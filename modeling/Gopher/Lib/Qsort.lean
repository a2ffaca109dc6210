import Mathlib.Data.Int.Notation
import Mathlib.Data.List.Basic
import Mathlib.Order.Lattice

namespace Gopher.Lib

variable {α : Type*}

-- What the elements of an array must show of a comparison function for the order to be
-- defined: it is the same read from either side, and transitive.
structure Consistent (cmp : α → α → ℤ) (elems : List α) : Prop where
  antisymm : ∀ a ∈ elems, ∀ b ∈ elems, 0 < cmp a b ↔ cmp b a < 0
  trans : ∀ a ∈ elems, ∀ b ∈ elems, ∀ c ∈ elems, cmp a b ≤ 0 → cmp b c ≤ 0 → cmp a c ≤ 0

-- What `qsort` may leave of an array. The order of equal elements is not specified, and
-- for an inconsistent comparison no order at all.
structure Qsorted (cmp : α → α → ℤ) (before after : List α) : Prop where
  perm : after.Perm before
  sorted : Consistent cmp before → after.Pairwise fun a b => cmp a b ≤ 0

-- The comparison orders the elements by their keys.
def OrdersBy {κ : Type*} [LT κ] (key : α → κ) (cmp : α → α → ℤ) (elems : List α) : Prop :=
  ∀ a ∈ elems, ∀ b ∈ elems, key a < key b → cmp a b < 0 ∧ 0 < cmp b a

variable {κ : Type*} [LinearOrder κ] {key : α → κ} {cmp : α → α → ℤ} {elems after : List α}
  {a b : α}

section OrdersBy

variable (h : OrdersBy key cmp elems) (hsame : ∀ a b, key a = key b → cmp a b = 0)

include h hsame

theorem OrdersBy.nonpos_iff (ha : a ∈ elems) (hb : b ∈ elems) : cmp a b ≤ 0 ↔ key a ≤ key b := by
  rcases lt_trichotomy (key a) (key b) with hlt | heq | hgt
  · have hcmp := (h a ha b hb hlt).1
    exact iff_of_true (by omega) hlt.le
  · have hcmp := hsame a b heq
    exact iff_of_true (by omega) heq.le
  · have hcmp := (h b hb a ha hgt).2
    exact iff_of_false (by omega) hgt.not_ge

theorem OrdersBy.neg_iff (ha : a ∈ elems) (hb : b ∈ elems) : cmp a b < 0 ↔ key a < key b := by
  rcases lt_trichotomy (key a) (key b) with hlt | heq | hgt
  · exact iff_of_true (h a ha b hb hlt).1 hlt
  · have hcmp := hsame a b heq
    exact iff_of_false (by omega) heq.not_lt
  · have hcmp := (h b hb a ha hgt).2
    exact iff_of_false (by omega) hgt.not_gt

theorem OrdersBy.consistent : Consistent cmp elems where
  antisymm a ha b hb := by
    have hnonpos := h.nonpos_iff hsame ha hb
    rw [h.neg_iff hsame hb ha, ← Int.not_le, hnonpos, not_le]
  trans a ha b hb c hc := by
    rw [h.nonpos_iff hsame ha hb, h.nonpos_iff hsame hb hc, h.nonpos_iff hsame ha hc]
    exact le_trans

-- Then the array is left sorted by the keys.
theorem OrdersBy.sorted (hsorted : Qsorted cmp elems after) :
    after.Pairwise fun a b => key a ≤ key b := by
  have hcmp := hsorted.sorted (h.consistent hsame)
  refine hcmp.imp_of_mem fun ha hb => ?_
  exact (h.nonpos_iff hsame (hsorted.perm.mem_iff.mp ha) (hsorted.perm.mem_iff.mp hb)).mp

-- And what is sorted by the keys may be left.
theorem OrdersBy.qsorted (hperm : after.Perm elems)
    (hsorted : after.Pairwise fun a b => key a ≤ key b) : Qsorted cmp elems after where
  perm := hperm
  sorted _ := hsorted.imp_of_mem fun ha hb =>
    (h.nonpos_iff hsame (hperm.mem_iff.mp ha) (hperm.mem_iff.mp hb)).mpr

end OrdersBy

theorem exists_sorted (key : α → κ) (elems : List α) :
    ∃ after : List α, after.Perm elems ∧ after.Pairwise fun a b => key a ≤ key b := by
  refine ⟨elems.mergeSort fun a b => key a ≤ key b, List.mergeSort_perm _ _, ?_⟩
  have hsorted := @List.pairwise_mergeSort α (fun a b => decide (key a ≤ key b))
    (fun a b c hab hbc => by simpa using le_trans (by simpa using hab) (by simpa using hbc))
    (fun a b => by simpa using le_total (key a) (key b)) elems
  exact hsorted.imp fun h => by simpa using h

end Gopher.Lib
