import Mathlib.Data.List.Induction
import Mathlib.Order.BoundedOrder.Lattice

-- What is kept of a sequence of values while they arrive one by one.

namespace Gopher.Lib

variable {α β : Type*}

-- The values that stand one behind the other, compared.
def changes (change : α → α → β) (values : List α) : List β :=
  List.zipWith change values values.tail

theorem changes_concat (change : α → α → β) (values : List α) (value : α) :
    changes change (values ++ [value]) =
      changes change values ++ (values.getLast?.map fun last => change last value).toList := by
  induction values with
  | nil => rfl
  | cons first rest ih =>
      cases rest with
      | nil => rfl
      | cons second rest =>
          have hcons : changes change (first :: second :: rest ++ [value]) =
              change first second :: changes change (second :: rest ++ [value]) := rfl
          rw [hcons, ih, List.getLast?_cons_cons]
          rfl

section Peak

variable [SemilatticeSup β] [OrderBot β]

-- The least upper bound of the values so far.
def peak (values : List β) : β := values.foldl (· ⊔ ·) ⊥

theorem peak_concat (values : List β) (value : β) :
    peak (values ++ [value]) = peak values ⊔ value :=
  List.foldl_append

theorem peak_eq_bot_iff {values : List β} : peak values = ⊥ ↔ ∀ value ∈ values, value = ⊥ := by
  induction values using List.reverseRecOn with
  | nil => exact iff_of_true rfl fun value hmem => absurd hmem List.not_mem_nil
  | append_singleton values value ih =>
      rw [peak_concat, sup_eq_bot_iff, ih, List.forall_mem_append, List.forall_mem_singleton]

theorem peak_changes_concat (change : α → α → β) (values : List α) {last : α} (value : α)
    (hlast : values.getLast? = some last) :
    peak (changes change (values ++ [value])) =
      peak (changes change values) ⊔ change last value := by
  rw [changes_concat, hlast]
  exact peak_concat _ _

end Peak

end Gopher.Lib
