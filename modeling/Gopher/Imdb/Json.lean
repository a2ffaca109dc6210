import Gopher.Imdb
import Gopher.Lib.CharBuffer
import Gopher.Lib.Quoted

namespace Gopher.Imdb

open Gopher.Lib

section Reader

def hexDigit (char : Char) : Option ℕ :=
  if char.isDigit then some (char.toNat - '0'.toNat)
  else if 'a' ≤ char ∧ char ≤ 'f' then some (char.toNat - 'a'.toNat + 10)
  else if 'A' ≤ char ∧ char ≤ 'F' then some (char.toNat - 'A'.toNat + 10)
  else none

-- Four hexadecimal digits behind the `u` of an escape.
def readHex : Text → Option (ℕ × Text)
  | first :: second :: third :: fourth :: rest => do
      let first ← hexDigit first
      let second ← hexDigit second
      let third ← hexDigit third
      let fourth ← hexDigit fourth
      return (((first * 16 + second) * 16 + third) * 16 + fourth, rest)
  | _ => none

-- The bytes of a code point.
def utf8 (code : ℕ) : Text :=
  if code < 0x80 then [Char.ofNat code]
  else if code < 0x800 then [Char.ofNat (0xC0 + code / 64), Char.ofNat (0x80 + code % 64)]
  else if code < 0x10000 then
    [Char.ofNat (0xE0 + code / 4096), Char.ofNat (0x80 + code / 64 % 64),
      Char.ofNat (0x80 + code % 64)]
  else
    [Char.ofNat (0xF0 + code / 262144), Char.ofNat (0x80 + code / 4096 % 64),
      Char.ofNat (0x80 + code / 64 % 64), Char.ofNat (0x80 + code % 64)]

-- A code point outside the first plane is written as two escapes.
def unescapeUnicode (input : Text) : Option (Text × Text) := do
  let (high, rest) ← readHex input
  if high < 0xD800 ∨ 0xE000 ≤ high then return (utf8 high, rest)
  let rest ← expect '\\' rest
  let rest ← expect 'u' rest
  let (low, rest) ← readHex rest
  if high < 0xDC00 ∧ 0xDC00 ≤ low ∧ low < 0xE000 then
    return (utf8 (0x10000 + (high - 0xD800) * 0x400 + (low - 0xDC00)), rest)
  none

def unescapeJson : Text → Option (Text × Text)
  | '"' :: rest => some (['"'], rest)
  | '\\' :: rest => some (['\\'], rest)
  | '/' :: rest => some (['/'], rest)
  | 'b' :: rest => some (['\x08'], rest)
  | 'f' :: rest => some (['\x0c'], rest)
  | 'n' :: rest => some (['\n'], rest)
  | 'r' :: rest => some (['\r'], rest)
  | 't' :: rest => some (['\t'], rest)
  | 'u' :: rest => unescapeUnicode rest
  | _ => none

-- Four digits with their values.
theorem readHex_cases {input rest : Text} {code : ℕ} (h : readHex input = some (code, rest)) :
    ∃ first second third fourth, input = first :: second :: third :: fourth :: rest ∧
      (∀ char ∈ [first, second, third, fourth], (hexDigit char).isSome) ∧
      ∀ behind, readHex (first :: second :: third :: fourth :: behind) = some (code, behind) := by
  unfold readHex at h
  split at h
  · rename_i first second third fourth tail
    simp only [Option.bind_eq_bind, Option.bind_eq_some_iff] at h
    obtain ⟨firstValue, hfirst, secondValue, hsecond, thirdValue, hthird, fourthValue, hfourth,
      heq⟩ := h
    cases heq
    refine ⟨first, second, third, fourth, rfl, ?_, fun behind => ?_⟩
    · simp [hfirst, hsecond, hthird, hfourth]
    · simp [readHex, hfirst, hsecond, hthird, hfourth]
  · cases h

theorem readHex_eq {input rest : Text} {code : ℕ} (h : readHex input = some (code, rest)) :
    ∃ digits, input = digits ++ rest ∧ digits.length = 4 ∧ '"' ∉ digits := by
  obtain ⟨first, second, third, fourth, rfl, hdigits, -⟩ := readHex_cases h
  refine ⟨[first, second, third, fourth], rfl, rfl, fun hquote => ?_⟩
  have hnone : hexDigit '"' = none := by decide
  have hdigit := hdigits _ hquote
  rw [hnone] at hdigit
  cases hdigit

theorem length_utf8_le (code : ℕ) : (utf8 code).length ≤ 4 := by
  unfold utf8
  split_ifs <;> simp

theorem unescapeUnicode_eq {input decoded rest : Text}
    (h : unescapeUnicode input = some (decoded, rest)) :
    ∃ digits, input = digits ++ rest ∧ decoded.length ≤ digits.length ∧ '"' ∉ digits := by
  obtain ⟨⟨high, afterHigh⟩, hhigh, h⟩ := Option.bind_eq_some_iff.mp h
  obtain ⟨digits, hinput, hdigits, hquote⟩ := readHex_eq hhigh
  dsimp only at h
  split_ifs at h
  · cases h
    exact ⟨digits, hinput, hdigits ▸ length_utf8_le high, hquote⟩
  · obtain ⟨afterSlash, hslash, h⟩ := Option.bind_eq_some_iff.mp h
    obtain ⟨afterU, hu, h⟩ := Option.bind_eq_some_iff.mp h
    obtain ⟨⟨low, afterLow⟩, hlow, h⟩ := Option.bind_eq_some_iff.mp h
    obtain ⟨lowDigits, hafterU, hlowDigits, hlowQuote⟩ := readHex_eq hlow
    rw [expect_eq_some_iff] at hslash hu
    dsimp only at h
    split_ifs at h
    rw [Option.pure_def, Option.some.injEq, Prod.mk.injEq] at h
    obtain ⟨rfl, rfl⟩ := h
    refine ⟨digits ++ '\\' :: 'u' :: lowDigits, ?_, ?_, ?_⟩
    · rw [hinput, hslash, hu, hafterU]
      simp
    · have hlength := length_utf8_le (0x10000 + (high - 0xD800) * 0x400 + (low - 0xDC00))
      rw [List.length_append]
      omega
    · simp [hquote, hlowQuote]

theorem local_readHex : Local readHex := by
  intro input code rest h
  obtain ⟨first, second, third, fourth, rfl, -, hread⟩ := readHex_cases h
  exact ⟨[first, second, third, fourth], rfl, hread⟩

theorem local_unescapeUnicode : Local unescapeUnicode := by
  intro input decoded rest h
  obtain ⟨⟨high, afterHigh⟩, hhigh, hrest⟩ := Option.bind_eq_some_iff.mp h
  obtain ⟨digits, hinput, hdigits⟩ := local_readHex hhigh
  dsimp only at hrest
  by_cases hplane : high < 0xD800 ∨ 0xE000 ≤ high
  · rw [if_pos hplane] at hrest
    cases hrest
    refine ⟨digits, hinput, fun behind => ?_⟩
    simp [unescapeUnicode, hdigits, hplane]
  · rw [if_neg hplane] at hrest
    obtain ⟨afterSlash, hslash, hrest⟩ := Option.bind_eq_some_iff.mp hrest
    obtain ⟨afterU, hu, hrest⟩ := Option.bind_eq_some_iff.mp hrest
    obtain ⟨⟨low, afterLow⟩, hlow, hrest⟩ := Option.bind_eq_some_iff.mp hrest
    obtain ⟨lowDigits, hafterU, hlowDigits⟩ := local_readHex hlow
    rw [expect_eq_some_iff] at hslash hu
    dsimp only at hrest
    by_cases hpair : high < 0xDC00 ∧ 0xDC00 ≤ low ∧ low < 0xE000
    · rw [if_pos hpair, Option.pure_def, Option.some.injEq, Prod.mk.injEq] at hrest
      obtain ⟨rfl, rfl⟩ := hrest
      refine ⟨digits ++ '\\' :: 'u' :: lowDigits, ?_, fun behind => ?_⟩
      · simp [hinput, hslash, hu, hafterU]
      · simp [unescapeUnicode, hdigits, hlowDigits, hplane, hpair]
    · rw [if_neg hpair] at hrest
      cases hrest

theorem local_unescapeJson : Local unescapeJson := by
  intro input decoded rest h
  unfold unescapeJson at h
  split at h
  case h_9 tail =>
    obtain ⟨digits, rfl, hdigits⟩ := local_unescapeUnicode h
    exact ⟨'u' :: digits, rfl, hdigits⟩
  case h_10 => cases h
  all_goals
    cases h
    exact ⟨[_], rfl, fun behind => rfl⟩

-- A string escapes the quote, the backslash and the control characters.
def jsonQuoting : Quoting where
  plain := fun char => char != '"' && char != '\\' && decide (0x20 ≤ char.toNat)
  unescape := unescapeJson
  quote_not_plain := by decide
  backslash_not_plain := by decide
  unescape_eq := by
    intro input decoded rest h
    unfold unescapeJson at h
    split at h
    case h_9 tail =>
      obtain ⟨digits, rfl, hlength, hquote⟩ := unescapeUnicode_eq h
      refine ⟨'u' :: digits, rfl, hlength.trans (Nat.le_succ _), fun hmem => ?_⟩
      obtain hu | hdigits := List.mem_cons.mp hmem
      · exact absurd hu (by decide)
      · exact absurd hdigits hquote
    case h_10 => cases h
    all_goals
      cases h
      exact ⟨[_], rfl, by simp, by decide⟩

inductive JsonValue where
  | number (n : ℤ)
  | string (text : Text)
  deriving DecidableEq, Repr

def isBlank (char : Char) : Bool := char == ' ' || char == '\t' || char == '\n' || char == '\r'

def skipBlanks (input : Text) : Text := input.dropWhile isBlank

def readString (input : Text) : Option (Text × Text) := do
  let input ← expect '"' input
  jsonQuoting.read input

def isNumberChar (char : Char) : Bool := char.isDigit || char == '-'

-- A string or an integer.
def readValue (input : Text) : Option (JsonValue × Text) :=
  if input.head? = some '"' then do
    let (text, input) ← readString input
    return (.string text, input)
  else do
    let n ← readInteger (input.takeWhile isNumberChar)
    return (.number n, input.dropWhile isNumberChar)

def readMember (input : Text) : Option ((Text × JsonValue) × Text) := do
  let (name, input) ← readString input
  let input ← expect ':' (skipBlanks input)
  let (value, input) ← readValue (skipBlanks input)
  return ((name, value), input)

-- The members behind the first one.
def readMembers : (bound : ℕ) → Text → Option (List (Text × JsonValue) × Text)
  | 0, _ => none
  | bound + 1, input =>
      let input := skipBlanks input
      if input.head? = some '\x7d' then some ([], input.tail)
      else do
        let input ← expect ',' input
        let (member, input) ← readMember (skipBlanks input)
        let (members, input) ← readMembers bound input
        return (member :: members, input)

-- An object without objects and arrays in it.
def readObject (text : Text) : Option (List (Text × JsonValue)) := do
  let input ← expect '\x7b' (skipBlanks text)
  let input := skipBlanks input
  if input.head? = some '\x7d' then
    if skipBlanks input.tail = [] then some [] else none
  else
    let (member, input) ← readMember input
    let (members, input) ← readMembers (input.length + 1) input
    if skipBlanks input = [] then some (member :: members) else none

end Reader

section Writer

def jsonMember (name val : Text) : Text :=
  ", \"".toList ++ name ++ "\": \"".toList ++ val ++ "\"".toList

def jsonTimestamp (env : Env) : Text :=
  "\x7b\"timestamp\": ".toList ++ formatInt (env.now * THOUSAND)

-- What `IMDB_Record2Json` prints piece by piece, but for the closing brace.
def jsonPieces (env : Env) (nodeInfo : NodeInfo) (table : Table) (record : Record) : List Text :=
  jsonTimestamp env ::
    jsonMember "machine_id".toList nodeInfo.systemUuid ::
    jsonMember "entity_name".toList table.entityName ::
    record.metrics.map fun metric => jsonMember metric.name metric.val

-- The cast of an `int` to `size_t`.
def sizeOfInt (n : ℤ) : ℕ := (n % 2 ^ 64).toNat

-- `maxLen -= ret`, where an overflow is undefined.
def subInt (a b : ℤ) : Option ℤ := if a - b < -2 ^ 31 then none else some (a - b)

-- The place and the room left, unless `snprintf` cannot count the text in an `int` or more was
-- to be printed than there was room for.
def jsonLoop : List Text → CharBuffer → (cursor : ℕ) → (maxLen : ℤ) →
    Option (CharBuffer × Option (ℕ × ℤ))
  | [], buffer, cursor, maxLen => some (buffer, some (cursor, maxLen))
  | piece :: pieces, buffer, cursor, maxLen => do
      let buffer ← buffer.vsnprintf cursor (sizeOfInt maxLen) piece
      if 2 ^ 31 ≤ piece.length then return (buffer, none)
      let maxLen ← subInt maxLen piece.length
      if maxLen < 0 then return (buffer, none)
      jsonLoop pieces buffer (cursor + piece.length) maxLen

-- `none` is a write behind the end of the buffer or an `int` that overflows. What the last
-- `snprintf` returns is not compared with the room left.
def record2Json (env : Env) (nodeInfo : NodeInfo) (table : Table) (record : Record)
    (jsonStr : CharBuffer) (jsonStrLen : UInt32) : Option (CharBuffer × ℤ) := do
  let jsonStr ← jsonStr.put 0 ['\x00']
  let (jsonStr, printed) ←
    jsonLoop (jsonPieces env nodeInfo table record) jsonStr 0 (intOfLen jsonStrLen.toNat)
  match printed with
  | none => return (jsonStr, -1)
  | some (cursor, maxLen) => do
      let jsonStr ← jsonStr.vsnprintf cursor (sizeOfInt maxLen) "\x7d".toList
      return (jsonStr, 0)

end Writer

end Gopher.Imdb
