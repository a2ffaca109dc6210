import Gopher.Lib.Strstr
import Gopher.Lib.Words

-- The helpers that cut a piece out of a line of `ss`, and what they find in a line with a
-- quoted name.

namespace Gopher.Tcp

open Gopher.Lib

def LINE_BUF_LEN : ℕ := 512
def IP_STR_LEN : ℕ := 128
def TASK_COMM_LEN : ℕ := 16
def PORT_LEN : ℕ := 11
def PID_LEN : ℕ := 32
def FID_LEN : ℕ := 32

def isDigitStr (s : Text) : Bool := s.all Char.isDigit

-- `(unsigned int)atoi(s)`
def atoi (s : Text) : UInt32 := UInt32.ofInt (atoll s)

-- The pointers are what is left of the text from them on.
def getSubStr (s : Text) (start fin : Option Text) (bufLen : ℕ) : Option Text := do
  let p2 ← match fin with
    | none => some []
    | some fin => strstr fin s
  let p1 ← match start with
    | none => some s
    | some start => behind start s
  if p1.length ≤ p2.length ∨ bufLen ≤ p1.length - p2.length then none
  else some (p1.take (p1.length - p2.length))

-- A piece that has to be a number.
def digitsBetween (s start fin : Text) (bufLen : ℕ) : Option Text :=
  (getSubStr s (some start) (some fin) bufLen).filter isDigitStr

variable {s start fin mid p1 p2 : Text} {bufLen : ℕ}

theorem getSubStr_eq (hfin : strstr fin s = some p2) (hstart : behind start s = some p1) :
    getSubStr s (some start) (some fin) bufLen =
      if p1.length ≤ p2.length ∨ bufLen ≤ p1.length - p2.length then none
      else some (p1.take (p1.length - p2.length)) := by
  simp only [getSubStr, hfin, hstart, Option.bind_eq_bind, Option.bind_some]

theorem getSubStr_of_behind (hfin : strstr fin s = some p2)
    (hstart : behind start s = some (mid ++ p2)) (hne : mid ≠ []) (hlt : mid.length < bufLen) :
    getSubStr s (some start) (some fin) bufLen = some mid := by
  have hpos := List.length_pos_iff.mpr hne
  rw [getSubStr_eq hfin hstart, List.length_append, Nat.add_sub_cancel, if_neg (by omega),
    List.take_left]

theorem getSubStr_of_le (hfin : strstr fin s = some p2) (hstart : behind start s = some p1)
    (hle : p1.length ≤ p2.length) : getSubStr s (some start) (some fin) bufLen = none := by
  rw [getSubStr_eq hfin hstart, if_pos (.inl hle)]

theorem getSubStr_of_strstr_eq_none (hfin : strstr fin s = none) :
    getSubStr s (some start) (some fin) bufLen = none := by
  simp [getSubStr, hfin]

theorem getSubStr_of_behind_eq_none (hstart : behind start s = none) :
    getSubStr s (some start) (some fin) bufLen = none := by
  cases hfin : strstr fin s <;> simp [getSubStr, hfin, hstart]

theorem digitsBetween_eq_some {digits : Text} (h : getSubStr s (some start) (some fin) bufLen = some digits)
    (hdigits : isDigitStr digits = true) : digitsBetween s start fin bufLen = some digits := by
  rw [digitsBetween, h, Option.filter_some, if_pos hdigits]

-- A piece with a quote in it is no number.
theorem digitsBetween_eq_none (char : Char) (hchar : char.isDigit = false)
    (h : ∀ piece, getSubStr s (some start) (some fin) bufLen = some piece → char ∈ piece) :
    digitsBetween s start fin bufLen = none := by
  rw [digitsBetween]
  cases hpiece : getSubStr s (some start) (some fin) bufLen with
  | none => rfl
  | some piece =>
      rw [Option.filter_some, if_neg]
      intro hdigits
      rw [isDigitStr, List.all_eq_true] at hdigits
      rw [hdigits char (h piece hpiece)] at hchar
      cases hchar

-- The piece of a text with a quote in it lies in front of the quote or behind it.
theorem digitsBetween_append_quote (hstart : '"' ∉ start) (hfin : '"' ∉ fin) (hstartNe : start ≠ [])
    (hfinNe : fin ≠ []) (front rest : Text) (bufLen : ℕ) :
    digitsBetween (front ++ '"' :: rest) start fin bufLen =
      if start <:+: front ∧ fin <:+: front then digitsBetween front start fin bufLen
      else if start <:+: front ∨ fin <:+: front then none
      else digitsBetween rest start fin bufLen := by
  have hp1 := behind_append_cons hstart hstartNe front rest
  have hp2 := strstr_append_cons hfin hfinNe front rest
  cases hstartFront : behind start front with
  | none =>
      have hnot := behind_eq_none_iff.mp hstartFront
      rw [hstartFront] at hp1
      dsimp only at hp1
      rw [if_neg fun h => hnot h.1]
      cases hfinFront : strstr fin front with
      | none =>
          rw [hfinFront] at hp2
          rw [if_neg (not_or.mpr ⟨hnot, strstr_eq_none_iff.mp hfinFront⟩), digitsBetween, digitsBetween,
            getSubStr, getSubStr]
          dsimp only
          rw [hp1, hp2]
      | some p2 =>
          have hmem := infix_of_strstr hfinFront
          rw [hfinFront] at hp2
          rw [if_pos (.inr hmem)]
          cases hbehind : behind start rest with
          | none => rw [digitsBetween, getSubStr_of_behind_eq_none (hp1.trans hbehind)]; rfl
          | some p1 =>
              have hle := (behind_suffix hbehind).length_le
              rw [digitsBetween, getSubStr_of_le hp2 (hp1.trans hbehind)]
              · rfl
              · rw [List.length_append, List.length_cons]
                omega
  | some p1 =>
      have hmem := infix_of_behind hstartFront
      rw [hstartFront] at hp1
      cases hfinFront : strstr fin front with
      | none =>
          have hnot := strstr_eq_none_iff.mp hfinFront
          rw [hfinFront] at hp2
          rw [if_neg fun h => hnot h.2, if_pos (.inl hmem)]
          cases hrest : strstr fin rest with
          | none => rw [digitsBetween, getSubStr_of_strstr_eq_none (hp2.trans hrest)]; rfl
          | some p2 =>
              have hle := (strstr_suffix hrest).length_le
              refine digitsBetween_eq_none '"' (by decide) fun piece hpiece => ?_
              rw [getSubStr_eq (hp2.trans hrest) hp1] at hpiece
              split at hpiece
              · cases hpiece
              · cases hpiece
                rw [List.length_append, List.length_cons]
                have hlen : p1.length + (rest.length + 1) - p2.length =
                    p1.length + (rest.length - p2.length + 1) := by omega
                rw [hlen, List.take_length_add_append, List.take_succ_cons]
                exact List.mem_append_right _ List.mem_cons_self
      | some p2 =>
          have hfinMem := infix_of_strstr hfinFront
          rw [hfinFront] at hp2
          rw [if_pos ⟨hmem, hfinMem⟩, digitsBetween, digitsBetween, getSubStr_eq hp2 hp1,
            getSubStr_eq hfinFront hstartFront]
          simp only [List.length_append, Nat.add_le_add_iff_right, Nat.add_sub_add_right,
            List.take_append_of_le_length (Nat.sub_le _ _)]

theorem infix_of_digitsBetween (h : (digitsBetween s start fin bufLen).isSome = true) :
    start <:+: s ∧ fin <:+: s := by
  rw [digitsBetween] at h
  constructor
  · by_contra hnot
    rw [getSubStr_of_behind_eq_none (behind_eq_none_iff.mpr hnot)] at h
    cases h
  · by_contra hnot
    rw [getSubStr_of_strstr_eq_none (strstr_eq_none_iff.mpr hnot)] at h
    cases h

-- A number that is found in front of the quote, or else behind it.
theorem digitsBetween_append_quote_iff {β : Type*} (read : Text → β) (value : β) (hstart : '"' ∉ start)
    (hfin : '"' ∉ fin) (hstartNe : start ≠ []) (hfinNe : fin ≠ []) (front rest : Text) (bufLen : ℕ) :
    (digitsBetween (front ++ '"' :: rest) start fin bufLen).map read = some value ↔
      ((¬start <:+: front ∧ ¬fin <:+: front) ∧
          (digitsBetween rest start fin bufLen).map read = some value) ∨
        (digitsBetween front start fin bufLen).map read = some value := by
  have hinside (h : (digitsBetween front start fin bufLen).map read = some value) :
      start <:+: front ∧ fin <:+: front := by
    have hsome : ((digitsBetween front start fin bufLen).map read).isSome = true := by
      rw [h]
      rfl
    rw [Option.isSome_map] at hsome
    exact infix_of_digitsBetween hsome
  rw [digitsBetween_append_quote hstart hfin hstartNe hfinNe]
  by_cases hboth : start <:+: front ∧ fin <:+: front
  · rw [if_pos hboth]
    exact ⟨.inr, fun h => h.resolve_left fun hleft => hleft.1.1 hboth.1⟩
  rw [if_neg hboth, or_iff_left fun h => hboth (hinside h)]
  by_cases hone : start <:+: front ∨ fin <:+: front
  · rw [if_pos hone]
    exact iff_of_false (by simp) fun h => hone.elim h.1.1 h.1.2
  · rw [if_neg hone]
    exact (and_iff_right (not_or.mp hone)).symm

theorem isSome_digitsBetween_append_quote (hstart : '"' ∉ start) (hfin : '"' ∉ fin)
    (hstartNe : start ≠ []) (hfinNe : fin ≠ []) (front rest : Text) (bufLen : ℕ) :
    (digitsBetween (front ++ '"' :: rest) start fin bufLen).isSome = true ↔
      ((¬start <:+: front ∧ ¬fin <:+: front) ∧
          (digitsBetween rest start fin bufLen).isSome = true) ∨
        (digitsBetween front start fin bufLen).isSome = true := by
  have hunit (digits : Option Text) : digits.isSome = true ↔ digits.map (fun _ => ()) = some () := by
    cases digits <;> simp
  rw [hunit, hunit, hunit]
  exact digitsBetween_append_quote_iff _ () hstart hfin hstartNe hfinNe front rest bufLen

end Gopher.Tcp
