import Gopher.Imdb.Json
import Gopher.Imdb.Export.InBuffer
import Gopher.Lib.Json.Number

namespace Gopher.Imdb

open Gopher.Lib

def jsonStrings (nodeInfo : NodeInfo) (table : Table) (record : Record) : List (Text × Text) :=
  ("machine_id".toList, nodeInfo.systemUuid) :: ("entity_name".toList, table.entityName) ::
    record.metrics.map fun metric => (metric.name, metric.val)

-- What the object should say of a record.
def jsonMembers (env : Env) (nodeInfo : NodeInfo) (table : Table) (record : Record) :
    List (Text × JsonValue) :=
  ("timestamp".toList, .number (env.now * THOUSAND)) ::
    (jsonStrings nodeInfo table record).map fun pair => (pair.1, .string pair.2)

-- The whole object.
def jsonText (env : Env) (nodeInfo : NodeInfo) (table : Table) (record : Record) : Text :=
  (jsonPieces env nodeInfo table record).flatten ++ ['\x7d']

-- The string needs no escape.
def Plain (text : Text) : Prop := ∀ char ∈ text, jsonQuoting.plain char = true

instance (text : Text) : Decidable (Plain text) :=
  inferInstanceAs (Decidable (∀ char ∈ text, jsonQuoting.plain char = true))

theorem plain_nil : Plain [] := by simp [Plain]

theorem plain_append {front back : Text} : Plain (front ++ back) ↔ Plain front ∧ Plain back := by
  simp only [Plain, List.mem_append, or_imp, forall_and]

theorem plain_cons {char : Char} {text : Text} :
    Plain (char :: text) ↔ jsonQuoting.plain char = true ∧ Plain text := by
  rw [Plain, List.forall_mem_cons, Plain]

theorem noNul_of_plain {text : Text} (h : Plain text) : NoNul text := by
  intro hmem
  have hnul := h _ hmem
  revert hnul
  decide

def AllPlain (pairs : List (Text × Text)) : Prop :=
  ∀ pair ∈ pairs, Plain pair.1 ∧ Plain pair.2

section Read

variable {name val rest left : Text}

theorem readString_eq_some_iff {text : Text} :
    readString ('"' :: (text ++ '"' :: rest)) = some (text, left) ↔ Plain text ∧ left = rest := by
  rw [readString, expect_cons, Option.bind_eq_bind, Option.bind_some]
  exact Quoting.read_verbatim_iff

theorem skipBlanks_of_head {char : Char} (input : Text) (hchar : isBlank char = false) :
    skipBlanks (char :: input) = char :: input := by
  rw [skipBlanks, List.dropWhile_cons_of_neg (by rw [hchar]; exact Bool.false_ne_true)]

theorem skipBlanks_blank (input : Text) : skipBlanks (' ' :: input) = skipBlanks input := by
  rw [skipBlanks, List.dropWhile_cons_of_pos rfl, skipBlanks]

theorem readMember_eq_some_iff :
    readMember ('"' :: (name ++ '"' :: ':' :: ' ' :: '"' :: (val ++ '"' :: rest))) =
      some ((name, .string val), left) ↔ (Plain name ∧ Plain val) ∧ left = rest := by
  have hcolon := skipBlanks_of_head (' ' :: '"' :: (val ++ '"' :: rest))
    (by decide : isBlank ':' = false)
  have hquote := skipBlanks_of_head (val ++ '"' :: rest)
    (by decide : isBlank '"' = false)
  constructor
  · intro h
    obtain ⟨⟨first, afterName⟩, hname, h⟩ := Option.bind_eq_some_iff.mp h
    obtain ⟨afterColon, hexpect, h⟩ := Option.bind_eq_some_iff.mp h
    obtain ⟨⟨value, afterValue⟩, hvalue, h⟩ := Option.bind_eq_some_iff.mp h
    cases h
    obtain ⟨hplain, rfl⟩ := readString_eq_some_iff.mp hname
    rw [hcolon, expect_cons, Option.some.injEq] at hexpect
    rw [← hexpect, skipBlanks_blank, hquote, readValue, List.head?_cons, if_pos rfl] at hvalue
    obtain ⟨⟨text, afterText⟩, htext, hvalue⟩ := Option.bind_eq_some_iff.mp hvalue
    cases hvalue
    obtain ⟨hval, rfl⟩ := readString_eq_some_iff.mp htext
    exact ⟨⟨hplain, hval⟩, rfl⟩
  · rintro ⟨⟨hname, hval⟩, rfl⟩
    have hvalue : readValue ('"' :: (val ++ '"' :: left)) = some (.string val, left) := by
      rw [readValue, List.head?_cons, if_pos rfl, readString_eq_some_iff.mpr ⟨hval, rfl⟩]
      rfl
    rw [readMember, readString_eq_some_iff.mpr ⟨hname, rfl⟩]
    simp only [Option.bind_eq_bind, Option.bind_some, hcolon, expect_cons, skipBlanks_blank, hquote,
      hvalue]
    rfl

theorem jsonMember_append (name val rest : Text) : jsonMember name val ++ rest =
    ',' :: ' ' :: '"' :: (name ++ '"' :: ':' :: ' ' :: '"' :: (val ++ '"' :: rest)) := by
  have hmember : jsonMember name val =
      [',', ' ', '"'] ++ name ++ ['"', ':', ' ', '"'] ++ val ++ ['"'] := rfl
  rw [hmember]
  simp only [List.append_assoc, List.cons_append, List.nil_append]

theorem readMembers_eq_some_iff {pairs : List (Text × Text)} {bound : ℕ}
    (hbound : pairs.length < bound) :
    readMembers bound ((pairs.map fun pair => jsonMember pair.1 pair.2).flatten ++
        '\x7d' :: rest) =
      some (pairs.map fun pair => (pair.1, .string pair.2), left) ↔
        AllPlain pairs ∧ left = rest := by
  induction pairs generalizing bound with
  | nil =>
      cases bound with
      | zero => cases hbound
      | succ bound =>
          have hbrace := skipBlanks_of_head rest
            (by decide : isBlank '\x7d' = false)
          simp [readMembers, hbrace, AllPlain, eq_comm]
  | cons pair pairs ih =>
      cases bound with
      | zero => cases hbound
      | succ bound =>
          have hcomma := skipBlanks_of_head (' ' :: '"' :: (pair.1 ++ '"' :: ':' :: ' ' :: '"' ::
              (pair.2 ++ '"' :: ((pairs.map fun pair => jsonMember pair.1 pair.2).flatten ++
                '\x7d' :: rest))))
            (by decide : isBlank ',' = false)
          have hquote := skipBlanks_of_head (pair.1 ++ '"' :: ':' :: ' ' :: '"' ::
              (pair.2 ++ '"' :: ((pairs.map fun pair => jsonMember pair.1 pair.2).flatten ++
                '\x7d' :: rest)))
            (by decide : isBlank '"' = false)
          rw [List.map_cons, List.flatten_cons, List.append_assoc, jsonMember_append, List.map_cons,
            readMembers, AllPlain, List.forall_mem_cons]
          simp only [hcomma, List.head?_cons, expect_cons, skipBlanks_blank, hquote,
            Option.bind_eq_bind, Option.bind_some]
          rw [if_neg (by decide)]
          constructor
          · intro h
            obtain ⟨⟨first, more⟩, hfirst, h⟩ := Option.bind_eq_some_iff.mp h
            obtain ⟨⟨others, last⟩, hothers, h⟩ := Option.bind_eq_some_iff.mp h
            cases h
            obtain ⟨hpair, rfl⟩ := readMember_eq_some_iff.mp hfirst
            obtain ⟨hpairs, hleft⟩ := (ih (Nat.lt_of_succ_lt_succ hbound)).mp hothers
            exact ⟨⟨hpair, hpairs⟩, hleft⟩
          · rintro ⟨⟨hpair, hpairs⟩, hleft⟩
            have hothers := (ih (Nat.lt_of_succ_lt_succ hbound)).mpr ⟨hpairs, hleft⟩
            rw [readMember_eq_some_iff.mpr ⟨hpair, rfl⟩, Option.bind_some, hothers]
            rfl

theorem isNumberChar_of_mem_formatInt {n : ℤ} {char : Char} (hchar : char ∈ formatInt n) :
    isNumberChar char = true := by
  rw [isNumberChar, Bool.or_eq_true, beq_iff_eq]
  exact (isDigit_of_mem_formatInt hchar).symm

theorem formatInt_ne_nil (n : ℤ) : formatInt n ≠ [] := by
  intro hnil
  have hread := readInteger_formatInt n
  have hnone : readInteger [] = none := by decide
  rw [hnil, hnone] at hread
  cases hread

-- A number up to a comma or a brace.
theorem readValue_formatInt (n : ℤ) {char : Char} (hchar : isNumberChar char = false) :
    readValue (skipBlanks (formatInt n ++ char :: rest)) = some (.number n, char :: rest) := by
  have hall : ∀ one ∈ formatInt n, isNumberChar one = true :=
    fun one hone => isNumberChar_of_mem_formatInt hone
  obtain ⟨htake, hdrop⟩ := takeWhile_dropWhile_word rest hall hchar
  obtain ⟨first, digits, hfirst⟩ := List.exists_cons_of_ne_nil (formatInt_ne_nil n)
  have hnumber := hall first (by simp [hfirst])
  have hblank : isBlank first = false := by
    simp only [isBlank, Bool.or_eq_false_iff, beq_eq_false_iff_ne]
    refine ⟨⟨⟨?_, ?_⟩, ?_⟩, ?_⟩ <;> rintro rfl <;> revert hnumber <;> decide
  have hquote : (formatInt n ++ char :: rest).head? ≠ some '"' := by
    rw [hfirst, List.cons_append, List.head?_cons, ne_eq, Option.some.injEq]
    rintro rfl
    revert hnumber
    decide
  have hskip : skipBlanks (formatInt n ++ char :: rest) = formatInt n ++ char :: rest := by
    rw [hfirst, List.cons_append]
    exact skipBlanks_of_head _ hblank
  rw [hskip, readValue, if_neg hquote, htake, hdrop, readInteger_formatInt]
  rfl

theorem readMember_number (hname : Plain name) (n : ℤ) {char : Char}
    (hchar : isNumberChar char = false) :
    readMember ('"' :: (name ++ '"' :: ':' :: ' ' :: (formatInt n ++ char :: rest))) =
      some ((name, .number n), char :: rest) := by
  have hcolon := skipBlanks_of_head (' ' :: (formatInt n ++ char :: rest))
    (by decide : isBlank ':' = false)
  rw [readMember, readString_eq_some_iff.mpr ⟨hname, rfl⟩]
  simp only [Option.bind_eq_bind, Option.bind_some, hcolon, expect_cons, skipBlanks_blank,
    readValue_formatInt n hchar]
  rfl

theorem readMember_timestamp (n : ℤ) {char : Char} (hchar : isNumberChar char = false) :
    readMember ("\"timestamp\": ".toList ++ (formatInt n ++ char :: rest)) =
      some (("timestamp".toList, .number n), char :: rest) := by
  have hplain : Plain "timestamp".toList := by decide
  have hquoted : "\"timestamp\": ".toList =
      '"' :: ("timestamp".toList ++ ['"', ':', ' ']) := by decide +kernel
  rw [hquoted, List.cons_append, List.append_assoc]
  exact readMember_number hplain n hchar

end Read

section Object

theorem jsonPieces_eq (env : Env) (nodeInfo : NodeInfo) (table : Table) (record : Record) :
    jsonPieces env nodeInfo table record =
      jsonTimestamp env ::
        (jsonStrings nodeInfo table record).map fun pair => jsonMember pair.1 pair.2 := by
  rw [jsonPieces, jsonStrings, List.map_cons, List.map_cons, List.map_map]
  rfl

theorem length_le_length_members (pairs : List (Text × Text)) :
    pairs.length ≤ (pairs.map fun pair => jsonMember pair.1 pair.2).flatten.length := by
  induction pairs with
  | nil => exact Nat.le_refl _
  | cons pair pairs ih =>
      rw [List.map_cons, List.flatten_cons, jsonMember_append]
      simp only [List.length_cons, List.length_append]
      omega

theorem members_head (pairs : List (Text × Text)) : ∃ char more,
    (pairs.map fun pair => jsonMember pair.1 pair.2).flatten ++ ['\x7d'] = char :: more ∧
      isNumberChar char = false := by
  cases pairs with
  | nil => exact ⟨'\x7d', [], rfl, by decide⟩
  | cons pair pairs =>
      rw [List.map_cons, List.flatten_cons, List.append_assoc, jsonMember_append]
      exact ⟨',', _, rfl, by decide⟩

theorem readObject_eq_some_iff (n : ℤ) (pairs : List (Text × Text)) :
    readObject ('\x7b' :: ("\"timestamp\": ".toList ++ (formatInt n ++
        ((pairs.map fun pair => jsonMember pair.1 pair.2).flatten ++ ['\x7d'])))) =
      some (("timestamp".toList, .number n) :: pairs.map fun pair => (pair.1, .string pair.2)) ↔
        AllPlain pairs := by
  have hbrace := skipBlanks_of_head ("\"timestamp\": ".toList ++ (formatInt n ++
      ((pairs.map fun pair => jsonMember pair.1 pair.2).flatten ++ ['\x7d'])))
    (by decide : isBlank '\x7b' = false)
  have hquote : skipBlanks ("\"timestamp\": ".toList ++ (formatInt n ++
      ((pairs.map fun pair => jsonMember pair.1 pair.2).flatten ++ ['\x7d']))) =
        "\"timestamp\": ".toList ++ (formatInt n ++
          ((pairs.map fun pair => jsonMember pair.1 pair.2).flatten ++ ['\x7d'])) :=
    skipBlanks_of_head _ (by decide)
  have hhead : ("\"timestamp\": ".toList ++ (formatInt n ++
      ((pairs.map fun pair => jsonMember pair.1 pair.2).flatten ++ ['\x7d']))).head? ≠
        some '\x7d' := by
    have hfirst : "\"timestamp\": ".toList = '"' :: "timestamp\": ".toList := rfl
    rw [hfirst, List.cons_append, List.head?_cons]
    decide
  have hmember : readMember ("\"timestamp\": ".toList ++ (formatInt n ++
      ((pairs.map fun pair => jsonMember pair.1 pair.2).flatten ++ ['\x7d']))) =
        some (("timestamp".toList, .number n),
          (pairs.map fun pair => jsonMember pair.1 pair.2).flatten ++ ['\x7d']) := by
    obtain ⟨char, more, hmore, hchar⟩ := members_head pairs
    rw [hmore]
    exact readMember_timestamp n hchar
  have hbound : pairs.length < ((pairs.map fun pair => jsonMember pair.1 pair.2).flatten ++
      ['\x7d']).length + 1 := by
    have hle := length_le_length_members pairs
    rw [List.length_append]
    omega
  rw [readObject, hbrace, expect_cons]
  simp only [Option.bind_eq_bind, Option.bind_some, hquote, if_neg hhead, hmember]
  constructor
  · intro h
    obtain ⟨⟨members, left⟩, hmembers, h⟩ := Option.bind_eq_some_iff.mp h
    dsimp only at h
    split_ifs at h
    cases h
    exact ((readMembers_eq_some_iff hbound).mp hmembers).1
  · intro hplain
    rw [(readMembers_eq_some_iff hbound).mpr ⟨hplain, rfl⟩]
    rfl

theorem jsonText_eq (env : Env) (nodeInfo : NodeInfo) (table : Table) (record : Record) :
    jsonText env nodeInfo table record =
      '\x7b' :: ("\"timestamp\": ".toList ++ (formatInt (env.now * THOUSAND) ++
        (((jsonStrings nodeInfo table record).map fun pair => jsonMember pair.1 pair.2).flatten ++
          ['\x7d']))) := by
  have htimestamp : jsonTimestamp env =
      '\x7b' :: ("\"timestamp\": ".toList ++ formatInt (env.now * THOUSAND)) := rfl
  unfold jsonText
  rw [jsonPieces_eq, List.flatten_cons, htimestamp]
  simp only [List.cons_append, List.append_assoc]

-- The object is read back exactly if no string in it needs an escape.
theorem readObject_jsonText_iff (env : Env) (nodeInfo : NodeInfo) (table : Table)
    (record : Record) :
    readObject (jsonText env nodeInfo table record) =
        some (jsonMembers env nodeInfo table record) ↔
      AllPlain (jsonStrings nodeInfo table record) := by
  rw [jsonText_eq, jsonMembers]
  exact readObject_eq_some_iff _ _

end Object

section Print

open CharBuffer

variable {pieces : List Text} {before : CharBuffer} {cursor maxLen : ℕ}

theorem sizeOfInt_natCast (hmax : maxLen < 2 ^ 31) : sizeOfInt maxLen = maxLen := by
  rw [sizeOfInt]
  omega

theorem subInt_natCast {len : ℕ} (hlen : len ≤ maxLen) :
    subInt maxLen len = some ((maxLen - len : ℕ) : ℤ) := by
  rw [subInt, if_neg (by omega)]
  push_cast [hlen]
  rfl

theorem jsonLoop_fits (hmax : maxLen < 2 ^ 31) (hroom : cursor + maxLen ≤ before.length)
    (hfits : pieces.flatten.length ≤ maxLen) :
    ∃ after, jsonLoop pieces before cursor maxLen =
        some (after, some (cursor + pieces.flatten.length,
          ((maxLen - pieces.flatten.length : ℕ) : ℤ))) ∧
      after.length = before.length ∧
      (pieces.flatten.length < maxLen → Printed before cursor pieces.flatten after) := by
  induction pieces generalizing before cursor maxLen with
  | nil => exact ⟨before, rfl, rfl, fun _ => .refl before cursor⟩
  | cons piece pieces ih =>
      rw [List.flatten_cons, List.length_append] at hfits
      obtain ⟨middle, hmiddle, hcut, hwhole⟩ := Printed.of_vsnprintf hroom piece
      obtain ⟨after, hloop, hlength, hprinted⟩ := ih
        (show maxLen - piece.length < 2 ^ 31 by omega)
        (show cursor + piece.length + (maxLen - piece.length) ≤ middle.length by
          rw [hcut.length_eq]
          omega) (by omega)
      refine ⟨after, ?_, hlength.trans hcut.length_eq, fun hlt => ?_⟩
      · rw [jsonLoop, sizeOfInt_natCast hmax, hmiddle, Option.bind_eq_bind, Option.bind_some,
          if_neg (by omega), subInt_natCast (by omega), Option.bind_eq_bind, Option.bind_some,
          if_neg (by omega), hloop, List.flatten_cons, List.length_append, Nat.add_assoc,
          Nat.sub_sub]
      · rw [List.flatten_cons, List.length_append] at hlt
        exact ((hwhole (by omega)).left (by omega)).append (hprinted (by omega))

theorem jsonLoop_cut (hmax : maxLen < 2 ^ 31) (hroom : cursor + maxLen ≤ before.length)
    (hcut : maxLen < pieces.flatten.length) :
    ∃ after, jsonLoop pieces before cursor maxLen = some (after, none) := by
  induction pieces generalizing before cursor maxLen with
  | nil => cases hcut
  | cons piece pieces ih =>
      rw [List.flatten_cons, List.length_append] at hcut
      obtain ⟨middle, hmiddle, hprinted, -⟩ := Printed.of_vsnprintf hroom piece
      rw [jsonLoop, sizeOfInt_natCast hmax, hmiddle, Option.bind_eq_bind, Option.bind_some]
      by_cases hcount : 2 ^ 31 ≤ piece.length
      · exact ⟨middle, if_pos hcount⟩
      · rw [if_neg hcount]
        by_cases hpiece : maxLen < piece.length
        · rw [subInt, if_neg (by omega), Option.bind_eq_bind, Option.bind_some,
            if_pos (by omega)]
          exact ⟨middle, rfl⟩
        · rw [subInt_natCast (by omega), Option.bind_eq_bind, Option.bind_some,
            if_neg (by omega)]
          apply ih
          · omega
          · rw [hprinted.length_eq]
            omega
          · omega

theorem intOfLen_small {len : ℕ} (hlen : len < 2 ^ 31) : intOfLen len = len := if_pos hlen

theorem intOfLen_large {len : ℕ} (hlen : 2 ^ 31 ≤ len) : intOfLen len = len - 2 ^ 32 :=
  if_neg (by omega)

-- A length that is negative as an `int` gives up behind the first piece, which is written with
-- its NUL, since the length is taken for a `size_t`.
theorem jsonLoop_large (pieces : List Text) {piece : Text} {size : ℕ} (hsize : 2 ^ 31 ≤ size)
    (hlt : size < 2 ^ 32) (hroom : size ≤ before.length) (hpiece : piece.length ≤ 34) :
    (2 ^ 31 + piece.length ≤ size →
      ∃ after, jsonLoop (piece :: pieces) before 0 (intOfLen size) = some (after, none)) ∧
    (size < 2 ^ 31 + piece.length →
      jsonLoop (piece :: pieces) before 0 (intOfLen size) = none) := by
  obtain ⟨after, hafter, -⟩ := Printed.of_put
    (show 0 + (piece ++ ['\x00']).length ≤ before.length by
      rw [List.length_append, List.length_singleton]
      omega)
  have hsizeT : sizeOfInt (intOfLen size) = size + (2 ^ 64 - 2 ^ 32) := by
    rw [intOfLen_large hsize, sizeOfInt]
    omega
  have hwritten : before.vsnprintf 0 (sizeOfInt (intOfLen size)) piece = some after := by
    rw [vsnprintf, hsizeT, if_neg (by omega), truncated, List.take_of_length_le (by omega)]
    exact hafter
  rw [jsonLoop, hwritten, Option.bind_eq_bind, Option.bind_some, if_neg (by omega), subInt,
    intOfLen_large hsize]
  constructor
  · intro hle
    rw [if_neg (by omega), Option.bind_eq_bind, Option.bind_some, if_pos (by omega)]
    exact ⟨after, rfl⟩
  · intro hover
    rw [if_pos (by omega)]
    rfl

end Print

section Result

open CharBuffer

variable {env : Env} {nodeInfo : NodeInfo} {table : Table} {record : Record} {jsonStr : CharBuffer}
  {jsonStrLen : UInt32}

theorem noNul_formatInt (n : ℤ) : NoNul (formatInt n) := by
  intro hmem
  have hnumber := isNumberChar_of_mem_formatInt hmem
  revert hnumber
  decide

theorem plain_formatInt (n : ℤ) : Plain (formatInt n) := by
  intro char hchar
  have hnumber := isNumberChar_of_mem_formatInt hchar
  have hspace : 0x20 ≤ char.toNat := by
    obtain rfl | hdigit := isDigit_of_mem_formatInt hchar
    · decide
    · rw [Char.isDigit_iff_toNat] at hdigit
      exact Nat.le_trans (by decide) hdigit.1
  simp only [jsonQuoting, Bool.and_eq_true, bne_iff_ne, decide_eq_true_eq]
  refine ⟨⟨?_, ?_⟩, hspace⟩
  · rintro rfl
    revert hnumber
    decide
  · rintro rfl
    revert hnumber
    decide

theorem isNumber_formatInt (n : ℤ) : JsonDoc.isNumber (formatInt n) = true := by
  unfold formatInt
  split
  · exact (JsonDoc.isNumber_toDigits _).2
  · exact (JsonDoc.isNumber_toDigits _).1

theorem noNul_jsonMember {name val : Text} (hname : NoNul name) (hval : NoNul val) :
    NoNul (jsonMember name val) := by
  unfold jsonMember
  simp only [noNul_append]
  exact ⟨⟨⟨⟨by decide, hname⟩, by decide⟩, hval⟩, by decide⟩

theorem noNul_jsonText (huuid : NoNul nodeInfo.systemUuid) (hentity : NoNul table.entityName)
    (hrecord : record.CStrings) : NoNul (jsonText env nodeInfo table record) := by
  unfold jsonText
  refine noNul_append.mpr ⟨noNul_flatten ?_, by decide⟩
  intro piece hpiece
  unfold jsonPieces at hpiece
  rw [List.mem_cons, List.mem_cons, List.mem_cons] at hpiece
  obtain rfl | rfl | rfl | hpiece := hpiece
  · unfold jsonTimestamp
    exact noNul_append.mpr ⟨by decide, noNul_formatInt _⟩
  · exact noNul_jsonMember (by decide) huuid
  · exact noNul_jsonMember (by decide) hentity
  · obtain ⟨metric, hmetric, rfl⟩ := List.mem_map.mp hpiece
    exact noNul_jsonMember (hrecord metric hmetric).1 (hrecord metric hmetric).2

theorem length_jsonText (env : Env) (nodeInfo : NodeInfo) (table : Table) (record : Record) :
    (jsonText env nodeInfo table record).length =
      (jsonPieces env nodeInfo table record).flatten.length + 1 := by
  unfold jsonText
  rw [List.length_append, List.length_singleton]

-- With room for all but the closing brace the record is said to be printed.
theorem record2Json_fits (hempty : 0 < jsonStr.length)
    (hroom : jsonStrLen.toNat ≤ jsonStr.length) (hsize : jsonStrLen.toNat < 2 ^ 31)
    (hfits : (jsonText env nodeInfo table record).length ≤ jsonStrLen.toNat + 1) :
    ∃ after, record2Json env nodeInfo table record jsonStr jsonStrLen = some (after, 0) ∧
      ((jsonText env nodeInfo table record).length < jsonStrLen.toNat →
        NoNul (jsonText env nodeInfo table record) →
          after.cString 0 = some (jsonText env nodeInfo table record)) := by
  rw [length_jsonText] at hfits
  obtain ⟨cleared, hcleared, hsame⟩ := Printed.of_put
    (show 0 + ['\x00'].length ≤ jsonStr.length by rw [List.length_singleton]; omega)
  obtain ⟨printed, hloop, hlength, hprinted⟩ := jsonLoop_fits hsize
    (show 0 + jsonStrLen.toNat ≤ cleared.length by rw [hsame.length_eq]; omega)
    (show (jsonPieces env nodeInfo table record).flatten.length ≤ jsonStrLen.toNat by omega)
  obtain ⟨after, hafter, -, hbrace⟩ := Printed.of_vsnprintf
    (show 0 + (jsonPieces env nodeInfo table record).flatten.length +
        (jsonStrLen.toNat - (jsonPieces env nodeInfo table record).flatten.length) ≤
          printed.length by
      rw [hlength, hsame.length_eq]
      omega) "\x7d".toList
  refine ⟨after, ?_, fun hlt hnul => ?_⟩
  · unfold record2Json
    rw [hcleared, Option.bind_eq_bind, Option.bind_some, intOfLen_small hsize, hloop,
      Option.bind_eq_bind, Option.bind_some]
    dsimp only
    rw [sizeOfInt_natCast (by omega), hafter]
    rfl
  · rw [length_jsonText] at hlt
    have hone : "\x7d".toList.length = 1 := rfl
    have hwhole : Printed cleared 0 (jsonText env nodeInfo table record ++ ['\x00']) after := by
      unfold jsonText
      rw [List.append_assoc]
      exact (hprinted (by omega)).append (hbrace (by omega))
    exact Printed.cString (Nat.zero_le _) hnul hwhole

theorem record2Json_cut (hempty : 0 < jsonStr.length)
    (hroom : jsonStrLen.toNat ≤ jsonStr.length) (hsize : jsonStrLen.toNat < 2 ^ 31)
    (hcut : jsonStrLen.toNat + 1 < (jsonText env nodeInfo table record).length) :
    ∃ after, record2Json env nodeInfo table record jsonStr jsonStrLen = some (after, -1) := by
  rw [length_jsonText] at hcut
  obtain ⟨cleared, hcleared, hsame⟩ := Printed.of_put
    (show 0 + ['\x00'].length ≤ jsonStr.length by rw [List.length_singleton]; omega)
  obtain ⟨after, hloop⟩ := jsonLoop_cut hsize
    (show 0 + jsonStrLen.toNat ≤ cleared.length by rw [hsame.length_eq]; omega)
    (show jsonStrLen.toNat < (jsonPieces env nodeInfo table record).flatten.length by omega)
  refine ⟨after, ?_⟩
  unfold record2Json
  rw [hcleared, Option.bind_eq_bind, Option.bind_some, intOfLen_small hsize, hloop]
  rfl

-- A `long long` in decimal.
theorem length_formatInt_le {n : ℤ} (hlow : -2 ^ 63 ≤ n) (hhigh : n < 2 ^ 63) :
    (formatInt n).length ≤ 20 := by
  have hdigits : (Nat.toDigits 10 n.natAbs).length ≤ 19 := by
    rw [Nat.length_toDigits_le_iff (by decide) (by decide)]
    omega
  unfold formatInt
  split_ifs
  · rw [List.length_cons]
    omega
  · omega

theorem length_jsonTimestamp_le (hlow : -2 ^ 63 ≤ env.now * THOUSAND)
    (hhigh : env.now * THOUSAND < 2 ^ 63) : (jsonTimestamp env).length ≤ 34 := by
  have hprefix : "\x7b\"timestamp\": ".toList.length = 14 := rfl
  have hnumber := length_formatInt_le hlow hhigh
  unfold jsonTimestamp
  rw [List.length_append, hprefix]
  omega

theorem record2Json_large (nodeInfo : NodeInfo) (table : Table) (record : Record)
    (hsize : 2 ^ 31 ≤ jsonStrLen.toNat)
    (hroom : jsonStrLen.toNat ≤ jsonStr.length) (hstamp : (jsonTimestamp env).length ≤ 34) :
    (2 ^ 31 + (jsonTimestamp env).length ≤ jsonStrLen.toNat → ∃ after,
      record2Json env nodeInfo table record jsonStr jsonStrLen = some (after, -1)) ∧
    (jsonStrLen.toNat < 2 ^ 31 + (jsonTimestamp env).length →
      record2Json env nodeInfo table record jsonStr jsonStrLen = none) := by
  obtain ⟨cleared, hcleared, hsame⟩ := Printed.of_put
    (show 0 + ['\x00'].length ≤ jsonStr.length by rw [List.length_singleton]; omega)
  obtain ⟨pieces, hpieces⟩ : ∃ pieces, jsonPieces env nodeInfo table record =
      jsonTimestamp env :: pieces := ⟨_, rfl⟩
  obtain ⟨hgiveUp, hover⟩ := jsonLoop_large pieces hsize jsonStrLen.toNat_lt
    (hroom.trans_eq hsame.length_eq.symm) hstamp
  unfold record2Json
  rw [hcleared, Option.bind_eq_bind, Option.bind_some, hpieces]
  constructor
  · intro hle
    obtain ⟨after, hloop⟩ := hgiveUp hle
    rw [hloop]
    exact ⟨after, rfl⟩
  · intro hlt
    rw [hover hlt]
    rfl

-- What `IMDB_Record2Json` is for: a record that is said to be printed stands in the buffer as a
-- whole, and one that does not fit is not said to be printed.
def Delivers (env : Env) (nodeInfo : NodeInfo) (table : Table) (record : Record) (size : ℕ) :
    Option (CharBuffer × ℤ) → Prop
  | none => False
  | some (jsonStr, ret) =>
      (ret = 0 → ∃ text, jsonStr.cString 0 = some text ∧
        readObject text = some (jsonMembers env nodeInfo table record)) ∧
      (size ≤ (jsonText env nodeInfo table record).length → ret ≠ 0)

theorem delivers_of_failed (after : CharBuffer) (size : ℕ) :
    Delivers env nodeInfo table record size (some (after, -1)) :=
  ⟨fun h => absurd h (by decide), fun _ => by decide⟩

theorem delivers_printed_iff (hempty : 0 < jsonStr.length)
    (hroom : jsonStrLen.toNat ≤ jsonStr.length) (hsize : jsonStrLen.toNat < 2 ^ 31)
    (hfits : (jsonText env nodeInfo table record).length ≤ jsonStrLen.toNat + 1)
    (hnul : NoNul (jsonText env nodeInfo table record)) :
    Delivers env nodeInfo table record jsonStrLen.toNat
        (record2Json env nodeInfo table record jsonStr jsonStrLen) ↔
      (jsonText env nodeInfo table record).length < jsonStrLen.toNat ∧
        AllPlain (jsonStrings nodeInfo table record) := by
  obtain ⟨after, hresult, hprinted⟩ := record2Json_fits hempty hroom hsize hfits
  rw [hresult]
  constructor
  · rintro ⟨hdecodes, hcut⟩
    have hlt : (jsonText env nodeInfo table record).length < jsonStrLen.toNat := by
      by_contra hle
      exact hcut (by omega) rfl
    obtain ⟨text, htext, hread⟩ := hdecodes rfl
    rw [hprinted hlt hnul, Option.some.injEq] at htext
    rw [← htext, readObject_jsonText_iff] at hread
    exact ⟨hlt, hread⟩
  · rintro ⟨hlt, hplain⟩
    exact ⟨fun _ => ⟨_, hprinted hlt hnul, (readObject_jsonText_iff _ _ _ _).mpr hplain⟩,
      fun hle => by omega⟩

end Result

-- The strings are C strings, the time a `long long` and the buffer has the size it is said to
-- have. The record is delivered exactly if the object without its closing brace does not fit,
-- or it fits as a whole and no string needs an escape. A size that is no `int` is refused, but
-- behind the first numbers of that kind the room left falls below every `int`.
theorem record2Json_delivers_iff (env : Env) (nodeInfo : NodeInfo) (table : Table)
    (record : Record) (jsonStr : CharBuffer) (jsonStrLen : UInt32)
    (hlow : -2 ^ 63 ≤ env.now * THOUSAND) (hhigh : env.now * THOUSAND < 2 ^ 63)
    (huuid : NoNul nodeInfo.systemUuid) (hentity : NoNul table.entityName)
    (hrecord : record.CStrings) (hroom : jsonStrLen.toNat ≤ jsonStr.length) :
    Delivers env nodeInfo table record jsonStrLen.toNat
        (record2Json env nodeInfo table record jsonStr jsonStrLen) ↔
      0 < jsonStr.length ∧
      (2 ^ 31 + (jsonTimestamp env).length ≤ jsonStrLen.toNat ∨
        jsonStrLen.toNat < 2 ^ 31 ∧
          (jsonStrLen.toNat + 1 < (jsonText env nodeInfo table record).length ∨
            (jsonText env nodeInfo table record).length < jsonStrLen.toNat ∧
              AllPlain (jsonStrings nodeInfo table record))) := by
  have hstamp := length_jsonTimestamp_le hlow hhigh
  have hnul : NoNul (jsonText env nodeInfo table record) := noNul_jsonText huuid hentity hrecord
  cases jsonStr with
  | nil => exact iff_of_false (fun h => h) (fun h => absurd h.1 (Nat.lt_irrefl 0))
  | cons first chars =>
      have hempty : 0 < (first :: chars).length := Nat.succ_pos _
      by_cases hsize : jsonStrLen.toNat < 2 ^ 31
      · by_cases hfits : (jsonText env nodeInfo table record).length ≤ jsonStrLen.toNat + 1
        · rw [delivers_printed_iff hempty hroom hsize hfits hnul]
          constructor
          · intro h
            exact ⟨hempty, .inr ⟨hsize, .inr h⟩⟩
          · rintro ⟨-, hlarge | ⟨-, hcut | h⟩⟩
            · omega
            · omega
            · exact h
        · obtain ⟨after, hresult⟩ := record2Json_cut hempty hroom hsize
            (Nat.lt_of_not_le hfits)
          rw [hresult]
          exact iff_of_true (delivers_of_failed _ _)
            ⟨hempty, .inr ⟨hsize, .inl (Nat.lt_of_not_le hfits)⟩⟩
      · obtain ⟨hfailed, hover⟩ := record2Json_large nodeInfo table record
          (Nat.le_of_not_lt hsize) hroom hstamp
        by_cases hlarge : 2 ^ 31 + (jsonTimestamp env).length ≤ jsonStrLen.toNat
        · obtain ⟨after, hresult⟩ := hfailed hlarge
          rw [hresult]
          exact iff_of_true (delivers_of_failed _ _) ⟨hempty, .inl hlarge⟩
        · rw [hover (Nat.lt_of_not_le hlarge)]
          refine iff_of_false (fun h => h) ?_
          rintro ⟨-, h | ⟨h, -⟩⟩
          · exact hlarge h
          · exact hsize h

def shownTable : Table := { tableCreate "tcp_link".toList 4 with entityName := "tcp".toList }

-- With the value `1` the object has 71 characters.
def shownRecord (val : Text) : Record := ⟨[1], 5, [⟨"gauge".toList, "rx".toList, val⟩]⟩

theorem record2Json_delivers_shown :
    Delivers cutEnv cutMgr.nodeInfo shownTable (shownRecord "1".toList) (72 : UInt32).toNat
      (record2Json cutEnv cutMgr.nodeInfo shownTable (shownRecord "1".toList)
        (List.replicate 72 '?') 72) := by
  have hlength : (jsonText cutEnv cutMgr.nodeInfo shownTable (shownRecord "1".toList)).length =
      71 := by decide +kernel
  have hplain : AllPlain (jsonStrings cutMgr.nodeInfo shownTable (shownRecord "1".toList)) := by
    unfold AllPlain
    decide
  apply (record2Json_delivers_iff cutEnv cutMgr.nodeInfo shownTable (shownRecord "1".toList)
    (List.replicate 72 '?') 72 (by decide) (by decide) (by decide) (by decide)
    (by unfold Record.CStrings; decide) (by decide)).mpr
  rw [hlength]
  exact ⟨by decide, .inr ⟨by decide, .inr ⟨by decide, hplain⟩⟩⟩

-- The object of `shownRecord` without its closing brace.
def shownText (val : Text) : Text :=
  "\x7b\"timestamp\": 7000, \"machine_id\": \"u\", \"entity_name\": \"tcp\", ".toList ++
    "\"rx\": \"".toList ++ val ++ "\"".toList

-- Without room for the closing brace the record is said to be printed all the same, and a
-- quote in a value ends the string.
theorem record2Json_unread :
    (record2Json cutEnv cutMgr.nodeInfo shownTable (shownRecord "1".toList)
        (List.replicate 71 '?') 71 = some (shownText "1".toList ++ ['\x00'], 0) ∧
      readObject (shownText "1".toList) = none) ∧
    (record2Json cutEnv cutMgr.nodeInfo shownTable (shownRecord "a\"b".toList)
        (List.replicate 74 '?') 74 =
          some (shownText "a\"b".toList ++ ['\x7d', '\x00'], 0) ∧
      readObject (shownText "a\"b".toList ++ ['\x7d']) = none) ∧
    ¬∀ (env : Env) (nodeInfo : NodeInfo) (table : Table) (record : Record)
      (jsonStr : CharBuffer) (jsonStrLen : UInt32),
      -2 ^ 63 ≤ env.now * THOUSAND → env.now * THOUSAND < 2 ^ 63 →
      NoNul nodeInfo.systemUuid → NoNul table.entityName → record.CStrings →
      0 < jsonStr.length → jsonStrLen.toNat ≤ jsonStr.length →
      Delivers env nodeInfo table record jsonStrLen.toNat
        (record2Json env nodeInfo table record jsonStr jsonStrLen) := by
  have hcut : record2Json cutEnv cutMgr.nodeInfo shownTable (shownRecord "1".toList)
      (List.replicate 71 '?') 71 = some (shownText "1".toList ++ ['\x00'], 0) := by
    decide +kernel
  have hlength : (jsonText cutEnv cutMgr.nodeInfo shownTable (shownRecord "1".toList)).length =
      71 := by decide +kernel
  refine ⟨⟨hcut, by decide +kernel⟩, ⟨by decide +kernel, by decide +kernel⟩, fun h => ?_⟩
  have hdelivers := h cutEnv cutMgr.nodeInfo shownTable (shownRecord "1".toList)
    (List.replicate 71 '?') 71 (by decide) (by decide) (by decide) (by decide)
    (by unfold Record.CStrings; decide) (by decide) (by decide)
  rw [hcut] at hdelivers
  exact hdelivers.2 hlength.ge rfl

end Gopher.Imdb
