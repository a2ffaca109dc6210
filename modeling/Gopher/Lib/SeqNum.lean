import Mathlib.Data.Nat.Notation

namespace Gopher.Lib.SeqNum

-- Numbers on a circle of `2 * half`: `second` is reached from `first` in less than half
-- a turn.
def AtOrAfter (half first second : ℕ) : Prop :=
  (second + 2 * half - first) % (2 * half) < half

instance (half first second : ℕ) : Decidable (AtOrAfter half first second) :=
  inferInstanceAs (Decidable (_ < half))

variable {half first second : ℕ}

theorem atOrAfter_of_le (hfirst : first ≤ second) (hsecond : second < 2 * half) :
    AtOrAfter half first second ↔ second - first < half := by
  have hturn : second + 2 * half - first = second - first + 2 * half := by omega
  rw [AtOrAfter, hturn, Nat.add_mod_right, Nat.mod_eq_of_lt (by omega)]

theorem atOrAfter_of_lt (hfirst : first < 2 * half) (hsecond : second < first) :
    AtOrAfter half first second ↔ half < first - second := by
  rw [AtOrAfter, Nat.mod_eq_of_lt (by omega)]
  omega

-- Where the order of the numbers and the order on the circle are the same.
theorem le_iff_atOrAfter_iff (hfirst : first < 2 * half) (hsecond : second < 2 * half) :
    (first ≤ second ↔ AtOrAfter half first second) ↔
      (first ≤ second ∧ second - first < half ∨ second < first ∧ first - second ≤ half) := by
  rcases Nat.lt_or_ge second first with hlt | hle
  · rw [atOrAfter_of_lt hfirst hlt]
    omega
  · rw [atOrAfter_of_le hle hsecond]
    omega

end Gopher.Lib.SeqNum
