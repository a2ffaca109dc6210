import Gopher.Ingress.Event2Json
import Gopher.Lib.Json.Verbatim

-- What the two converters have in common: how they append, split a line and come to an end.

namespace Gopher.Ingress

open Gopher.Lib Gopher.Lib.Fill

section Strbuf

theorem prints_appendChr (c : Char) : Prints (strbufAppendChrWithCheck c) [c] [] 0 := by
  apply (stores_store [c]).prints_of_check
  intro dest
  rw [List.length_singleton]
  omega

theorem prints_appendStr (str : Text) : Prints (strbufAppendStrWithCheck str) str [] 0 := by
  apply (stores_store str).prints_of_check
  intro dest
  rw [Nat.add_zero]

theorem appendChr_of_nonpos (c : Char) (fill : Fill) {dest : Dest} (hsize : dest.size ≤ 0) :
    ((strbufAppendChrWithCheck c).andThen fill) dest = some (dest, false) := by
  simp [Fill.andThen, strbufAppendChrWithCheck, hsize, fail]

theorem toInt_of_lt {n : ℕ} (h : n < 2 ^ 31) : toInt n = some (n : ℤ) := if_pos h

end Strbuf

section Simple

theorem stores_andThen {first second : Fill} {text rest : Text} (hfirst : Stores first text [] 0)
    (hsecond : Stores second rest [] 0) : Stores (first.andThen second) (text ++ rest) [] 0 :=
  hfirst.andThen hsecond (Nat.zero_le _)

def valueText (fieldVal : Text) (fillQuote : Bool) : Text :=
  if fillQuote then JsonDoc.quoted fieldVal else fieldVal

theorem prints_fillLogFieldSimple (fieldVal fieldName : Text) (fillQuote : Bool)
    (hcount : fieldName.length + fieldVal.length + 5 < 2 ^ 31) :
    Prints (fillLogFieldSimple fieldVal fieldName fillQuote)
      (JsonDoc.memberText fieldName (valueText fieldVal fillQuote)) [] 1 := by
  have hquote : Stores (if fillQuote then strbufAppendChr '"' else done)
      (if fillQuote then ['"'] else []) [] 0 := by
    cases fillQuote
    · exact prints_done.toStores
    · exact stores_store ['"']
  have hstores := stores_andThen (stores_store ['"']) <| stores_andThen (stores_store fieldName) <|
    stores_andThen (stores_store ['"']) <| stores_andThen (stores_store [':']) <|
    stores_andThen hquote <| stores_andThen (stores_store fieldVal) hquote
  have htext : ['"'] ++ (fieldName ++ (['"'] ++ ([':'] ++ ((if fillQuote then ['"'] else []) ++
      (fieldVal ++ if fillQuote then ['"'] else []))))) =
      JsonDoc.memberText fieldName (valueText fieldVal fillQuote) := by
    cases fillQuote <;> simp [JsonDoc.memberText, valueText, JsonDoc.quoted]
  have hlength : (JsonDoc.memberText fieldName (valueText fieldVal fillQuote)).length =
      fieldName.length + fieldVal.length + 3 + if fillQuote then 2 else 0 := by
    cases fillQuote <;> simp [JsonDoc.memberText, valueText, JsonDoc.quoted] <;> omega
  have hint : toInt (fieldName.length + fieldVal.length + 3 + if fillQuote then 2 else 0) =
      some (((JsonDoc.memberText fieldName (valueText fieldVal fillQuote)).length : ℕ) : ℤ) := by
    rw [hlength]
    apply toInt_of_lt
    split <;> omega
  rw [htext] at hstores
  have hprints := (hstores.mono (Nat.zero_le 1)).prints_of_check
    (fun dest => show dest.size ≤ ((JsonDoc.memberText fieldName
      (valueText fieldVal fillQuote)).length : ℕ) ↔ _ by omega)
  apply hprints.congr
  intro dest
  rw [fillLogFieldSimple, hint]
  rfl

end Simple

section Fields

-- A line begins with a bar, and a bar closes each of its fields.
def fieldsOf (line : Text) : List Text := (line.tail.splitOn '|').dropLast

theorem nextField_of_mem {rest : Text} (h : '|' ∈ rest) :
    ∃ field tail, '|' ∉ field ∧ rest = field ++ '|' :: tail ∧
      nextField ('|' :: rest) = some (field, '|' :: tail) := by
  obtain ⟨field, tail, hrest, hfield⟩ := List.eq_append_cons_of_mem h
  have hbefore : ∀ char ∈ field, decide (char ≠ '|') = true := by
    intro char hchar
    exact decide_eq_true fun heq => hfield (heq ▸ hchar)
  refine ⟨field, tail, hfield, hrest, ?_⟩
  rw [nextField, List.tail_cons, if_pos h, hrest, List.takeWhile_append_of_pos hbefore,
    List.dropWhile_append_of_pos hbefore]
  simp

theorem fieldsOf_append {field : Text} (hfield : '|' ∉ field) (tail : Text) :
    fieldsOf ('|' :: (field ++ '|' :: tail)) = field :: fieldsOf ('|' :: tail) := by
  rw [fieldsOf, List.tail_cons, List.splitOn_append_cons_self_of_not_mem hfield,
    List.dropLast_cons_of_ne_nil (List.splitOn_ne_nil _ _)]
  rfl

theorem fieldsOf_of_not_mem {rest : Text} (h : '|' ∉ rest) : fieldsOf ('|' :: rest) = [] := by
  rw [fieldsOf, List.tail_cons, List.splitOn_eq_singleton h]
  rfl

theorem nextField_of_fieldsOf {rest field : Text} {fields : List Text}
    (h : fieldsOf ('|' :: rest) = field :: fields) :
    ∃ tail, nextField ('|' :: rest) = some (field, '|' :: tail) ∧
      fieldsOf ('|' :: tail) = fields := by
  by_cases hmem : '|' ∈ rest
  · obtain ⟨first, tail, hfirst, rfl, hnext⟩ := nextField_of_mem hmem
    rw [fieldsOf_append hfirst, List.cons.injEq] at h
    obtain ⟨rfl, htail⟩ := h
    exact ⟨tail, hnext, htail⟩
  · rw [fieldsOf_of_not_mem hmem] at h
    cases h

theorem infix_of_mem_fieldsOf {rest field : Text} (h : field ∈ fieldsOf ('|' :: rest)) :
    field <:+: rest := by
  induction hlength : rest.length using Nat.strongRecOn generalizing rest with
  | ind length ih =>
      by_cases hmem : '|' ∈ rest
      · obtain ⟨first, tail, hfirst, rfl, -⟩ := nextField_of_mem hmem
        rw [fieldsOf_append hfirst, List.mem_cons] at h
        obtain rfl | htail := h
        · exact ⟨[], '|' :: tail, rfl⟩
        · have hinfix := ih tail.length (by simp at hlength; omega) htail rfl
          exact hinfix.trans ⟨first ++ ['|'], [], by simp⟩
      · rw [fieldsOf_of_not_mem hmem] at h
        cases h

theorem readFields_eq (num : ℕ) (rest : Text) :
    readFields num ('|' :: rest) =
      if num ≤ (fieldsOf ('|' :: rest)).length then some ((fieldsOf ('|' :: rest)).take num)
      else none := by
  induction num generalizing rest with
  | zero => simp [readFields]
  | succ num ih =>
      by_cases hmem : '|' ∈ rest
      · obtain ⟨field, tail, hfield, rfl, hnext⟩ := nextField_of_mem hmem
        rw [readFields, hnext, Option.bind_eq_bind, Option.bind_some, fieldsOf_append hfield]
        dsimp only
        rw [ih]
        by_cases hle : num ≤ (fieldsOf ('|' :: tail)).length
        · rw [if_pos hle, if_pos (by simpa using hle)]
          rfl
        · rw [if_neg hle, if_neg (by simpa using hle)]
          rfl
      · rw [readFields, nextField, List.tail_cons, if_neg hmem, fieldsOf_of_not_mem hmem]
        rfl

end Fields

section Result

variable {fill : Fill} {text : Text} {jsonFmt : CharBuffer} {jsonSize : ℤ}

-- What a converter with a document comes to: it is done if there is room for the terminator too.
inductive Outcome (text : Text) (jsonFmt : CharBuffer) (jsonSize : ℤ) :
    Option (CharBuffer × ℤ) → Prop
  | done {buffer : CharBuffer} : buffer.length = jsonFmt.length → text.length < jsonSize →
      buffer.cString 0 = some text → Outcome text jsonFmt jsonSize (some (buffer, 0))
  | cut {buffer : CharBuffer} : buffer.length = jsonFmt.length → jsonSize ≤ text.length →
      Outcome text jsonFmt jsonSize (some (buffer, -1))

-- What a converter without one comes to.
inductive Refused (jsonFmt : CharBuffer) : Option (CharBuffer × ℤ) → Prop
  | refused {buffer : CharBuffer} : buffer.length = jsonFmt.length →
      Refused jsonFmt (some (buffer, -1))

-- The first character is checked, also where the size is negative.
theorem outcome_of_prints (c : Char)
    (h : Prints ((strbufAppendChrWithCheck c).andThen fill) (text ++ ['\x00']) [] 0)
    (hnul : '\x00' ∉ text) (hroom : jsonFmt.length = jsonSize.toNat) :
    Outcome text jsonFmt jsonSize
      (result (((strbufAppendChrWithCheck c).andThen fill) ⟨jsonFmt, 0, jsonSize⟩)) := by
  have hlength : ((text ++ ['\x00']).length + 0 : ℕ) = text.length + 1 := by simp
  by_cases hneg : jsonSize < 0
  · rw [appendChr_of_nonpos c fill (show jsonSize ≤ 0 by omega)]
    exact .cut rfl (by omega)
  · have hdest : Dest.HasRoom ⟨jsonFmt, 0, jsonSize⟩ :=
      ⟨by dsimp only; omega, by dsimp only; omega⟩
    by_cases hfits : text.length < jsonSize
    · obtain ⟨after, hrun, hmoved⟩ := h.fits hdest (by rw [hlength]; dsimp only; omega)
      have hprinted := hmoved.printed
      rw [List.append_nil] at hprinted
      rw [hrun]
      exact .done hprinted.length_eq hfits (hprinted.cString (Nat.zero_le _) hnul)
    · obtain ⟨after, hrun, hsame⟩ := h.cut hdest (by rw [hlength]; dsimp only; omega)
      rw [hrun]
      exact .cut hsame (by omega)

theorem refused_of_fails (c : Char) (h : Fails ((strbufAppendChrWithCheck c).andThen fill))
    (hroom : jsonFmt.length = jsonSize.toNat) :
    Refused jsonFmt
      (result (((strbufAppendChrWithCheck c).andThen fill) ⟨jsonFmt, 0, jsonSize⟩)) := by
  by_cases hneg : jsonSize < 0
  · rw [appendChr_of_nonpos c fill (show jsonSize ≤ 0 by omega)]
    exact .refused rfl
  · obtain ⟨after, hrun, hsame⟩ := h ⟨jsonFmt, 0, jsonSize⟩
      ⟨by dsimp only; omega, by dsimp only; omega⟩
    rw [hrun]
    exact .refused hsame

theorem nul_not_mem_memberText {name : Text} (hname : '\x00' ∉ name) (htext : '\x00' ∉ text) :
    '\x00' ∉ JsonDoc.memberText name text := by
  simp [JsonDoc.memberText, hname, htext]

-- The terminator is in none of the parts of a document.
theorem nul_not_mem_objectText {members : List (Text × Text)}
    (h : ∀ member ∈ members, '\x00' ∉ member.1 ∧ '\x00' ∉ member.2) :
    '\x00' ∉ JsonDoc.objectText members := by
  cases members with
  | nil => decide
  | cons first members =>
      obtain ⟨name, text⟩ := first
      rw [List.forall_mem_cons] at h
      rw [JsonDoc.objectText, JsonDoc.membersText_cons]
      generalize hbehind : List.flatten _ = behind
      have hrest : '\x00' ∉ behind := by
        intro hmem
        rw [← hbehind] at hmem
        obtain ⟨part, hpart, hnul⟩ := List.mem_flatten.mp hmem
        obtain ⟨⟨otherName, otherText⟩, hother, rfl⟩ := List.mem_map.mp hpart
        obtain hcomma | hmember := List.mem_cons.mp hnul
        · exact absurd hcomma (by decide)
        · have hboth := h.2 _ hother
          exact nul_not_mem_memberText hboth.1 hboth.2 hmember
      have hfirst := nul_not_mem_memberText h.1.1 h.1.2
      simp [hrest, hfirst]

end Result

end Gopher.Ingress
