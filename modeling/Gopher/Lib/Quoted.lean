import Gopher.Lib.Text
import Mathlib.Data.List.Basic

namespace Gopher.Lib

-- What the reader takes from its input and makes of it does not depend on what stands behind.
def Local {α : Type*} (reader : Text → Option (α × Text)) : Prop :=
  ∀ {input value left}, reader input = some (value, left) →
    ∃ taken, input = taken ++ left ∧ ∀ behind, reader (taken ++ behind) = some (value, behind)

-- A way to write a text between quotes. `unescape` reads what follows a backslash and gives
-- the text it stands for and what is left. An escape is never shorter than its text, and the
-- only one with a quote in it stands for the quote.
structure Quoting where
  plain : Char → Bool
  unescape : Text → Option (Text × Text)
  quote_not_plain : plain '"' = false
  backslash_not_plain : plain '\\' = false
  unescape_eq : ∀ {input decoded rest}, unescape input = some (decoded, rest) →
    ∃ escape, input = escape ++ rest ∧ decoded.length ≤ escape.length ∧
      ('"' ∈ escape → escape = ['"'] ∧ decoded = ['"'])

namespace Quoting

variable (quoting : Quoting)

-- The text up to the closing quote, and what is left. The first argument is a bound on the
-- characters that are read.
def readUpTo : ℕ → Text → Option (Text × Text)
  | 0, _ => none
  | _, [] => none
  | bound + 1, first :: input =>
      if first = '"' then some ([], input)
      else if first = '\\' then do
        let (decoded, input) ← quoting.unescape input
        let (value, rest) ← readUpTo bound input
        return (decoded ++ value, rest)
      else if quoting.plain first then do
        let (value, rest) ← readUpTo bound input
        return (first :: value, rest)
      else none

def read (input : Text) : Option (Text × Text) := quoting.readUpTo input.length input

-- The body of a quoted text, and the text it stands for.
inductive Stands : Text → Text → Prop
  | nil : Stands [] []
  | plain {char : Char} {body value : Text} : quoting.plain char = true → Stands body value →
      Stands (char :: body) (char :: value)
  | escape {escape decoded body value : Text} : decoded.length ≤ escape.length →
      ('"' ∈ escape → escape = ['"'] ∧ decoded = ['"']) → Stands body value →
      Stands ('\\' :: (escape ++ body)) (decoded ++ value)

variable {quoting} {body value rest : Text}

-- What a read that succeeds begins with: the closing quote, an escape or a plain character.
theorem readUpTo_cases {bound : ℕ} {input : Text}
    (h : quoting.readUpTo (bound + 1) input = some (value, rest)) :
    (input = '"' :: rest ∧ value = []) ∨
    (∃ escaped decoded left tail, input = '\\' :: escaped ∧ value = decoded ++ tail ∧
      quoting.unescape escaped = some (decoded, left) ∧
      quoting.readUpTo bound left = some (tail, rest)) ∨
    (∃ first left tail, input = first :: left ∧ value = first :: tail ∧ first ≠ '"' ∧
      first ≠ '\\' ∧ quoting.plain first = true ∧
      quoting.readUpTo bound left = some (tail, rest)) := by
  cases input with
  | nil => simp [readUpTo] at h
  | cons first input =>
      rw [readUpTo] at h
      split_ifs at h with hquote hbackslash hplain
      · cases h
        exact .inl ⟨by rw [hquote], rfl⟩
      · obtain ⟨⟨decoded, left⟩, hdecoded, hrest⟩ := Option.bind_eq_some_iff.mp h
        obtain ⟨⟨tail, last⟩, htail, heq⟩ := Option.bind_eq_some_iff.mp hrest
        cases heq
        exact .inr (.inl ⟨input, decoded, left, tail, by rw [hbackslash], rfl, hdecoded, htail⟩)
      · obtain ⟨⟨tail, last⟩, htail, heq⟩ := Option.bind_eq_some_iff.mp h
        cases heq
        exact .inr (.inr ⟨first, input, tail, rfl, rfl, hquote, hbackslash, hplain, htail⟩)

theorem stands_of_readUpTo {bound : ℕ} {input : Text}
    (h : quoting.readUpTo bound input = some (value, rest)) :
    ∃ body, input = body ++ '"' :: rest ∧ quoting.Stands body value := by
  induction bound generalizing input value with
  | zero => simp [readUpTo] at h
  | succ bound ih =>
      obtain ⟨rfl, rfl⟩ | ⟨escaped, decoded, left, tail, rfl, rfl, hdecoded, htail⟩ |
        ⟨first, left, tail, rfl, rfl, -, -, hplain, htail⟩ := readUpTo_cases h
      · exact ⟨[], rfl, .nil⟩
      · obtain ⟨body, hbody, hstands⟩ := ih htail
        obtain ⟨escape, hescape, hlength, hquotes⟩ := quoting.unescape_eq hdecoded
        refine ⟨'\\' :: (escape ++ body), ?_, .escape hlength hquotes hstands⟩
        rw [hescape, hbody, List.cons_append, List.append_assoc]
      · obtain ⟨body, hbody, hstands⟩ := ih htail
        exact ⟨first :: body, by rw [hbody, List.cons_append], .plain hplain hstands⟩

theorem Stands.length_le (h : quoting.Stands body value) : value.length ≤ body.length := by
  induction h with
  | nil => exact Nat.le_refl _
  | plain _ _ ih => exact Nat.succ_le_succ ih
  | escape hlength _ _ ih =>
      rw [List.length_cons, List.length_append, List.length_append]
      omega

-- A body as long as its text has no escapes.
theorem Stands.plain_of_length_eq (h : quoting.Stands body value)
    (hlength : body.length = value.length) : ∀ char ∈ body, quoting.plain char = true := by
  induction h with
  | nil => simp
  | plain hplain _ ih =>
      rw [List.forall_mem_cons]
      exact ⟨hplain, ih (Nat.succ.inj hlength)⟩
  | escape hshort _ hstands _ =>
      have hle := hstands.length_le
      rw [List.length_cons, List.length_append, List.length_append] at hlength
      omega

-- A quote in the body comes from an escape, so the text has one at an earlier place.
theorem Stands.quote_earlier (h : quoting.Stands body value) {place : ℕ}
    (hquote : body[place]? = some '"') : ∃ earlier < place, value[earlier]? = some '"' := by
  induction h generalizing place with
  | nil => simp at hquote
  | @plain char body value hplain _ ih =>
      cases place with
      | zero =>
          rw [List.getElem?_cons_zero, Option.some.injEq] at hquote
          rw [hquote, quoting.quote_not_plain] at hplain
          cases hplain
      | succ place =>
          obtain ⟨earlier, hlt, hvalue⟩ := ih (by simpa using hquote)
          exact ⟨earlier + 1, by omega, by simpa using hvalue⟩
  | @escape escape decoded body value hlength hescape _ ih =>
      cases place with
      | zero => simp at hquote
      | succ place =>
          rw [List.getElem?_cons_succ] at hquote
          by_cases hinside : place < escape.length
          · rw [List.getElem?_append_left hinside] at hquote
            obtain ⟨-, rfl⟩ := hescape (List.mem_of_getElem? hquote)
            exact ⟨0, Nat.succ_pos place, rfl⟩
          · rw [List.getElem?_append_right (by omega)] at hquote
            obtain ⟨earlier, hlt, hvalue⟩ := ih hquote
            refine ⟨decoded.length + earlier, by omega, ?_⟩
            rw [List.getElem?_append_right (by omega), Nat.add_sub_cancel_left]
            exact hvalue

-- A text that stands verbatim between the quotes is read back only if it has no quote.
theorem Stands.eq_of_append_eq (h : quoting.Stands body value) {front back : Text}
    (heq : body ++ '"' :: back = value ++ '"' :: front) : body = value ∧ back = front := by
  have hle := h.length_le
  by_cases hlength : body.length = value.length
  · obtain ⟨hbody, hback⟩ := List.append_inj heq hlength
    exact ⟨hbody, (List.cons.inj hback).2⟩
  · -- the body goes on behind the quote after `value`, and its first quote has an earlier one
    have hagree : ∀ place ≤ value.length,
        body[place]? = (value ++ ['"'])[place]? := by
      intro place hplace
      have hsame := congrArg (·[place]?) heq
      rw [List.getElem?_append_left (by omega)] at hsame
      rw [hsame, show value ++ '"' :: front = value ++ ['"'] ++ front by simp,
        List.getElem?_append_left (by rw [List.length_append, List.length_singleton]; omega)]
    have hnone : ∀ place ≤ value.length, body[place]? ≠ some '"' := by
      intro place
      induction place using Nat.strongRecOn with
      | ind place ih =>
          intro hplace hquote
          obtain ⟨earlier, hlt, hvalue⟩ := h.quote_earlier hquote
          have hinside : earlier < value.length := by omega
          apply ih earlier hlt (Nat.le_of_lt hinside)
          rw [hagree earlier (Nat.le_of_lt hinside), List.getElem?_append_left hinside]
          exact hvalue
    exfalso
    apply hnone value.length (Nat.le_refl _)
    rw [hagree value.length (Nat.le_refl _), List.getElem?_append_right (Nat.le_refl _),
      Nat.sub_self]
    rfl

theorem readUpTo_of_plain {bound : ℕ} (hvalue : ∀ char ∈ value, quoting.plain char = true)
    (hbound : value.length < bound) :
    quoting.readUpTo bound (value ++ '"' :: rest) = some (value, rest) := by
  induction value generalizing bound with
  | nil =>
      cases bound with
      | zero => cases hbound
      | succ bound => rfl
  | cons first value ih =>
      cases bound with
      | zero => cases hbound
      | succ bound =>
          rw [List.forall_mem_cons] at hvalue
          rw [List.length_cons] at hbound
          have hquote : first ≠ '"' := by
            rintro rfl
            rw [quoting.quote_not_plain] at hvalue
            cases hvalue.1
          have hbackslash : first ≠ '\\' := by
            rintro rfl
            rw [quoting.backslash_not_plain] at hvalue
            cases hvalue.1
          rw [List.cons_append, readUpTo, if_neg hquote, if_neg hbackslash, if_pos hvalue.1,
            ih hvalue.2 (by omega)]
          rfl

-- A text without escapes between the quotes is read as it stands exactly if all its
-- characters are plain.
theorem read_verbatim_iff {left : Text} :
    quoting.read (value ++ '"' :: rest) = some (value, left) ↔
      (∀ char ∈ value, quoting.plain char = true) ∧ left = rest := by
  constructor
  · intro h
    obtain ⟨body, hbody, hstands⟩ := stands_of_readUpTo h
    obtain ⟨rfl, rfl⟩ := hstands.eq_of_append_eq hbody.symm
    exact ⟨hstands.plain_of_length_eq rfl, rfl⟩
  · rintro ⟨hplain, rfl⟩
    apply readUpTo_of_plain hplain
    rw [List.length_append, List.length_cons]
    omega

theorem local_readUpTo (hlocal : Local quoting.unescape) {bound : ℕ} {input : Text}
    (h : quoting.readUpTo bound input = some (value, rest)) :
    ∃ body, input = body ++ '"' :: rest ∧ ∀ behind bound', body.length < bound' →
      quoting.readUpTo bound' (body ++ '"' :: behind) = some (value, behind) := by
  induction bound generalizing input value with
  | zero => simp [readUpTo] at h
  | succ bound ih =>
      obtain ⟨rfl, rfl⟩ | ⟨escaped, decoded, left, tail, rfl, rfl, hdecoded, htail⟩ |
        ⟨first, left, tail, rfl, rfl, hquote, hbackslash, hplain, htail⟩ := readUpTo_cases h
      · refine ⟨[], rfl, fun behind bound' hbound => ?_⟩
        cases bound' with
        | zero => cases hbound
        | succ bound' => rfl
      · obtain ⟨escape, rfl, hescape⟩ := hlocal hdecoded
        obtain ⟨body, rfl, hbody⟩ := ih htail
        refine ⟨'\\' :: (escape ++ body), by simp, fun behind bound' hbound => ?_⟩
        rw [List.length_cons, List.length_append] at hbound
        cases bound' with
        | zero => cases hbound
        | succ bound' =>
            rw [List.cons_append, readUpTo, if_neg (by decide), if_pos rfl,
              List.append_assoc, hescape, Option.bind_eq_bind, Option.bind_some]
            dsimp only
            rw [hbody behind bound' (by omega)]
            rfl
      · obtain ⟨body, rfl, hbody⟩ := ih htail
        refine ⟨first :: body, rfl, fun behind bound' hbound => ?_⟩
        rw [List.length_cons] at hbound
        cases bound' with
        | zero => cases hbound
        | succ bound' =>
            rw [List.cons_append, readUpTo, if_neg hquote, if_neg hbackslash, if_pos hplain,
              hbody behind bound' (by omega)]
            rfl

theorem local_read (hlocal : Local quoting.unescape) : Local quoting.read := by
  intro input value rest h
  obtain ⟨body, hinput, hbody⟩ := local_readUpTo hlocal h
  refine ⟨body ++ ['"'], by simp [hinput], fun behind => ?_⟩
  rw [List.append_assoc]
  apply hbody
  simp

end Quoting

end Gopher.Lib
