import Mathlib.Algebra.Order.Field.Basic
import Mathlib.Data.Rat.Cast.Order
import Mathlib.Tactic.Linarith
import Mathlib.Tactic.NormNum

namespace Gopher.Lib

-- The numbers with a significand of so many bits. The exponent is not bounded.
def Representable (bits : ℕ) (value : ℚ) : Prop :=
  ∃ significand exponent : ℤ, significand.natAbs ≤ 2 ^ bits ∧ value = significand * 2 ^ exponent

-- A rounding to these numbers: it keeps the order and does not touch what needs none.
structure Rounding (bits : ℕ) where
  round : ℚ → ℚ
  mono : ∀ value other, value ≤ other → round value ≤ round other
  exact : ∀ value, Representable bits value → round value = value

namespace Rounding

variable {bits : ℕ}

instance : CoeFun (Rounding bits) fun _ => ℚ → ℚ := ⟨round⟩

-- No rounding at all.
def ideal (bits : ℕ) : Rounding bits where
  round value := value
  mono _ _ h := h
  exact _ _ := rfl

theorem ideal_apply (value : ℚ) : ideal bits value = value := rfl

variable (fl : Rounding bits)

theorem zero : fl 0 = 0 :=
  fl.exact 0 ⟨0, 0, by simp, by norm_num⟩

theorem one : fl 1 = 1 :=
  fl.exact 1 ⟨1, 0, Nat.one_le_two_pow, by norm_num⟩

theorem two : fl 2 = 2 :=
  fl.exact 2 ⟨1, 1, Nat.one_le_two_pow, by norm_num⟩

theorem half : fl (1 / 2) = 1 / 2 :=
  fl.exact (1 / 2) ⟨1, -1, Nat.one_le_two_pow, by norm_num⟩

theorem natCast_eq_zero_iff (n : ℕ) : fl (n : ℚ) = 0 ↔ n = 0 := by
  constructor
  · intro h
    by_contra hne
    have hone : (1 : ℚ) ≤ n := by exact_mod_cast Nat.one_le_iff_ne_zero.mpr hne
    have hle := fl.mono _ _ hone
    rw [fl.one, h] at hle
    norm_num at hle
  · rintro rfl
    rw [Nat.cast_zero]
    exact fl.zero

-- The last number below 1.
def predOne (bits : ℕ) : ℚ := (2 ^ bits - 1 : ℤ) * 2 ^ (-(bits : ℤ))

theorem predOne_lt_one (bits : ℕ) : predOne bits < 1 := by
  have hpos : (0 : ℚ) < 2 ^ bits := by positivity
  unfold predOne
  rw [zpow_neg, zpow_natCast]
  push_cast
  rw [mul_inv_lt_iff₀ hpos]
  linarith

theorem le_predOne {value : ℚ} (h : value ≤ predOne bits) : fl value ≤ predOne bits := by
  have hrepresentable : Representable bits (predOne bits) := by
    refine ⟨2 ^ bits - 1, -bits, ?_, rfl⟩
    have hpos : 1 ≤ 2 ^ bits := Nat.one_le_two_pow
    have hcast : (2 : ℤ) ^ bits = ((2 ^ bits : ℕ) : ℤ) := by push_cast; rfl
    rw [hcast]
    omega
  have hle := fl.mono _ _ h
  rwa [fl.exact _ hrepresentable] at hle

end Rounding

end Gopher.Lib
