import Gopher.Lib.Text
import Mathlib.Data.List.Forall2
import Mathlib.Data.Nat.Notation

namespace Gopher.Lib

def hexDigitValue (c : Char) : Option ℕ :=
  if '0' ≤ c ∧ c ≤ '9' then some (c.toNat - '0'.toNat)
  else if 'a' ≤ c ∧ c ≤ 'f' then some (c.toNat - 'a'.toNat + 10)
  else if 'A' ≤ c ∧ c ≤ 'F' then some (c.toNat - 'A'.toNat + 10)
  else none

def hexValue (value : ℕ) : Text → Option ℕ
  | [] => some value
  | c :: text => (hexDigitValue c).bind fun digit => hexValue (16 * value + digit) text

-- A group of an IPv6 address: one to four hexadecimal digits for two bytes.
def readGroup (text : Text) : Option (List UInt8) :=
  if text = [] ∨ 4 < text.length then none
  else (hexValue 0 text).map fun value => [UInt8.ofNat (value / 256), UInt8.ofNat value]

-- A decimal number up to 255, without leading zeros.
def readOctet (text : Text) : Option UInt8 :=
  if text = [] ∨ 3 < text.length ∨ ¬ (∀ c ∈ text, c.isDigit) ∨
      text.head? = some '0' ∧ text ≠ ['0'] then none
  else
    let value := text.foldl (fun value c => 10 * value + (c.toNat - '0'.toNat)) 0
    if 255 < value then none else some (UInt8.ofNat value)

-- An IPv4 address.
def readQuad (text : Text) : Option (List UInt8) :=
  match text.splitOn '.' with
  | [first, second, third, fourth] => do
      return [← readOctet first, ← readOctet second, ← readOctet third, ← readOctet fourth]
  | _ => none

-- Groups of an IPv6 address, where an IPv4 address may stand for the last two.
def readGroups : List Text → Option (List UInt8)
  | [] => some []
  | [last] => (readGroup last).or (readQuad last)
  | part :: parts => do
      let bytes ← readGroup part
      let rest ← readGroups parts
      return bytes ++ rest

-- The text on both sides of the first "::".
def splitGap : Text → Option (Text × Text)
  | [] => none
  | [_] => none
  | first :: second :: text =>
      if first = ':' ∧ second = ':' then some ([], text)
      else (splitGap (second :: text)).map fun (front, back) => (first :: front, back)

def readSide (text : Text) : Option (List UInt8) :=
  if text = [] then some [] else readGroups (text.splitOn ':')

-- The text form of an IPv6 address: eight groups, where "::" stands for as many
-- groups of zeros as are missing and an IPv4 address only at the very end.
def readIp6 (text : Text) : Option (List UInt8) :=
  match splitGap text with
  | none => (readGroups (text.splitOn ':')).filter (·.length = 16)
  | some (front, back) => do
      let before ← if '.' ∈ front then none else readSide front
      let after ← readSide back
      if before.length + after.length ≤ 14 then
        return before ++ List.replicate (16 - (before.length + after.length)) 0 ++ after
      else none

example : readIp6 "2001:db8::10.1.0.255".toList =
    some [0x20, 0x01, 0x0d, 0xb8, 0, 0, 0, 0, 0, 0, 0, 0, 10, 1, 0, 255] := by
  decide +kernel

theorem splitGap_cons {first : Char} (hfirst : first ≠ ':') (text : Text) :
    splitGap (first :: text) = (splitGap text).map fun (front, back) => (first :: front, back) := by
  cases text with
  | nil => rfl
  | cons second text => rw [splitGap, if_neg fun h => hfirst h.1]

theorem splitGap_append {part : Text} (hpart : ':' ∉ part) {text : Text}
    (htext : splitGap text = none) : splitGap (part ++ text) = none := by
  induction part with
  | nil => exact htext
  | cons first part ih =>
      rw [List.mem_cons, not_or] at hpart
      rw [List.cons_append, splitGap_cons (Ne.symm hpart.1), ih hpart.2]
      rfl

-- Without an empty part there is no gap.
theorem splitGap_intercalate {parts : List Text}
    (hparts : ∀ part ∈ parts, part ≠ [] ∧ ':' ∉ part) :
    splitGap ([':'].intercalate parts) = none := by
  induction parts with
  | nil => rfl
  | cons part parts ih =>
      have hpart := hparts part List.mem_cons_self
      have hrest : ∀ other ∈ parts, other ≠ [] ∧ ':' ∉ other :=
        fun other hother => hparts other (List.mem_cons_of_mem part hother)
      cases parts with
      | nil =>
          have hsingle : splitGap (part ++ []) = none := splitGap_append hpart.2 rfl
          simpa using hsingle
      | cons next parts =>
          have hnext := hrest next List.mem_cons_self
          rw [List.intercalate_cons_of_ne_nil (by simp), List.append_assoc]
          apply splitGap_append hpart.2
          cases hjoined : [':'].intercalate (next :: parts) with
          | nil => rfl
          | cons first text =>
              have hfirst : first ≠ ':' := by
                rintro rfl
                have hhead : ([':'].intercalate (next :: parts)).head? = next.head? := by
                  cases next with
                  | nil => exact absurd rfl hnext.1
                  | cons c next => cases parts <;> simp [List.intercalate_cons_of_ne_nil]
                rw [hjoined, List.head?_cons] at hhead
                exact hnext.2 (List.mem_of_mem_head? hhead.symm)
              have htext := ih hrest
              rw [hjoined] at htext
              rw [List.singleton_append, splitGap, if_neg fun h => hfirst h.2, htext]
              rfl

-- Parts that are joined are read as groups one by one.
theorem readIp6_intercalate {parts : List Text} (hne : parts ≠ [])
    (hparts : ∀ part ∈ parts, part ≠ [] ∧ ':' ∉ part) :
    readIp6 ([':'].intercalate parts) = (readGroups parts).filter (·.length = 16) := by
  have hsplit : ([':'].intercalate parts).splitOn ':' = parts :=
    List.splitOn_intercalate ':' (fun part hpart => (hparts part hpart).2) hne
  rw [readIp6, splitGap_intercalate hparts]
  simp only [hsplit]

theorem readGroups_cons {part : Text} {parts : List Text} (hne : parts ≠ []) :
    readGroups (part :: parts) = (readGroup part).bind fun bytes =>
      (readGroups parts).map fun rest => bytes ++ rest := by
  cases parts with
  | nil => exact absurd rfl hne
  | cons next parts =>
      rw [readGroups]
      · cases readGroup part <;> cases readGroups (next :: parts) <;> rfl
      · simp

-- Groups that are read, with an IPv4 address behind them.
theorem readGroups_append_quad {parts : List Text} {bytes : List (List UInt8)} {quad : Text}
    (hparts : List.Forall₂ (fun part bytes => readGroup part = some bytes) parts bytes) :
    readGroups (parts ++ [quad]) =
      ((readGroup quad).or (readQuad quad)).map fun rest => bytes.flatten ++ rest := by
  induction hparts with
  | nil =>
      cases hquad : (readGroup quad).or (readQuad quad) <;> simp [readGroups, hquad]
  | cons hpart _ ih =>
      rw [List.cons_append, readGroups_cons (by simp), hpart, ih, Option.bind_some, Option.map_map]
      simp [Function.comp_def]

end Gopher.Lib
