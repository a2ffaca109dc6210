import Gopher.Lib.Json.Reads

namespace Gopher.Lib.JsonDoc

variable {quoting : Quoting} {input rest literal : Text}

-- What stands in front of `rest` belongs to a number.
def SkipsTo (input rest : Text) : Prop :=
  ∃ front, input = front ++ rest ∧ ∀ char ∈ front, isScalarChar char = true

theorem SkipsTo.refl (input : Text) : SkipsTo input input :=
  ⟨[], rfl, by simp⟩

theorem SkipsTo.cons {char : Char} (hchar : isScalarChar char = true) (h : SkipsTo input rest) :
    SkipsTo (char :: input) rest := by
  obtain ⟨front, rfl, hfront⟩ := h
  exact ⟨char :: front, rfl, List.forall_mem_cons.mpr ⟨hchar, hfront⟩⟩

theorem SkipsTo.trans {middle : Text} (hfirst : SkipsTo input middle)
    (hsecond : SkipsTo middle rest) : SkipsTo input rest := by
  obtain ⟨front, rfl, hfront⟩ := hfirst
  obtain ⟨back, rfl, hback⟩ := hsecond
  exact ⟨front ++ back, (List.append_assoc ..).symm, List.forall_mem_append.mpr ⟨hfront, hback⟩⟩

theorem skipsTo_skipSign (input : Text) : SkipsTo input (skipSign input) := by
  unfold skipSign
  split
  · exact .cons (by decide) (.refl _)
  · exact .refl _

theorem skipsTo_skipDigits (h : skipDigits input = some rest) : SkipsTo input rest := by
  unfold skipDigits at h
  split at h
  · cases h
  · cases h
    refine ⟨_, List.takeWhile_append_dropWhile.symm, fun char hchar => ?_⟩
    have hdigit : char.isDigit = true := List.mem_takeWhile_imp hchar
    simp [isScalarChar, Char.isAlphanum, hdigit]

theorem skipsTo_skipInteger (h : skipInteger input = some rest) : SkipsTo input rest := by
  unfold skipInteger at h
  split at h
  · cases h
    exact .cons (by decide) (.refl _)
  · exact skipsTo_skipDigits h

theorem skipsTo_skipFraction (h : skipFraction input = some rest) : SkipsTo input rest := by
  unfold skipFraction at h
  split at h
  · exact .cons (by decide) (skipsTo_skipDigits h)
  · cases h
    exact .refl _

theorem skipsTo_skipExponentSign (input : Text) : SkipsTo input (skipExponentSign input) := by
  unfold skipExponentSign
  split
  · exact .cons (by decide) (.refl _)
  · exact .cons (by decide) (.refl _)
  · exact .refl _

theorem skipsTo_skipExponent (h : skipExponent input = some rest) : SkipsTo input rest := by
  unfold skipExponent at h
  split at h
  · exact .cons (by decide) ((skipsTo_skipExponentSign _).trans (skipsTo_skipDigits h))
  · exact .cons (by decide) ((skipsTo_skipExponentSign _).trans (skipsTo_skipDigits h))
  · cases h
    exact .refl _

theorem isScalarChar_of_isNumber (h : isNumber literal = true) :
    ∀ char ∈ literal, isScalarChar char = true := by
  obtain ⟨afterFraction, hfront, hexponent⟩ := Option.bind_eq_some_iff.mp (of_decide_eq_true h)
  obtain ⟨afterInteger, hinteger, hfraction⟩ := Option.bind_eq_some_iff.mp hfront
  obtain ⟨front, heq, hchars⟩ := (skipsTo_skipSign literal).trans <|
    (skipsTo_skipInteger hinteger).trans <|
    (skipsTo_skipFraction hfraction).trans (skipsTo_skipExponent hexponent)
  rw [heq, List.append_nil]
  exact hchars

theorem scalar_of_isNumber (h : isNumber literal = true) :
    scalar literal = some (.number literal) := by
  have hword : ∀ word, isNumber word = false → literal ≠ word := by
    rintro word hword rfl
    rw [hword] at h
    cases h
  rw [scalar, if_neg (hword _ (by decide)), if_neg (hword _ (by decide)),
    if_neg (hword _ (by decide)), if_pos h]

theorem isNumber_of_scalar {token : Text} (h : scalar token = some (.number literal)) :
    token = literal ∧ isNumber literal = true := by
  unfold scalar at h
  split_ifs at h with hnull htrue hfalse hnumber <;> cases h
  exact ⟨rfl, hnumber⟩

theorem takes_number (h : isNumber literal = true) : Takes quoting literal (.number literal) :=
  takes_scalar (isScalarChar_of_isNumber h) (scalar_of_isNumber h)

section Digits

theorem head?_toDigits {n : ℕ} (hn : n ≠ 0) : (Nat.toDigits 10 n).head? ≠ some '0' := by
  induction n using Nat.strongRecOn with
  | ind n ih =>
      by_cases hlt : n < 10
      · rw [Nat.toDigits_of_lt_base hlt, List.head?_cons, ne_eq, Option.some.injEq,
          Nat.digitChar_eq_zero]
        exact hn
      · rw [Nat.toDigits_of_base_le (by decide) (by omega), List.head?_append_of_ne_nil]
        · exact ih (n / 10) (by omega) (by omega)
        · exact Nat.toDigits_ne_nil

theorem skipDigits_toDigits (n : ℕ) : skipDigits (Nat.toDigits 10 n) = some [] := by
  have hdigits : ∀ char ∈ Nat.toDigits 10 n, char.isDigit = true :=
    fun char hchar => Nat.isDigit_of_mem_toDigits (by decide) (by decide) hchar
  rw [skipDigits, List.takeWhile_eq_self_iff.mpr hdigits, if_neg Nat.toDigits_ne_nil,
    List.dropWhile_eq_nil_iff.mpr hdigits]

theorem skipInteger_toDigits (n : ℕ) : skipInteger (Nat.toDigits 10 n) = some [] := by
  by_cases hn : n = 0
  · subst hn
    rfl
  · unfold skipInteger
    split
    case h_1 heq =>
      have hhead := head?_toDigits hn
      rw [heq] at hhead
      exact absurd rfl hhead
    case h_2 => exact skipDigits_toDigits n

theorem isNumber_toDigits (n : ℕ) :
    isNumber (Nat.toDigits 10 n) = true ∧ isNumber ('-' :: Nat.toDigits 10 n) = true := by
  have hsign : skipSign (Nat.toDigits 10 n) = Nat.toDigits 10 n := by
    unfold skipSign
    split
    case h_1 heq =>
      have hdigit : '-'.isDigit = true :=
        Nat.isDigit_of_mem_toDigits (n := n) (b := 10) (by decide) (by decide) (by simp [heq])
      exact absurd hdigit (by decide)
    case h_2 => rfl
  constructor
  · rw [isNumber, hsign, skipInteger_toDigits]
    rfl
  · rw [isNumber, skipSign, skipInteger_toDigits]
    rfl

end Digits

end Gopher.Lib.JsonDoc
