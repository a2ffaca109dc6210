import Mathlib.Data.List.Basic
import Mathlib.Data.List.TakeWhile

namespace Gopher.Lib

variable {α : Type*} (zero : α) (size : ℕ)

-- An entry at the start of a cell of `size` places, zeros behind it.
def cell (entry : List α) : List α :=
  entry ++ List.replicate (size - entry.length) zero

-- Cells one after the other in an array with places for `count` of them.
def cells (count : ℕ) (entries : List (List α)) : List α :=
  entries.flatMap (cell zero size) ++ List.replicate (size * (count - entries.length)) zero

-- What can be told from a cell that was never written, and fits into one.
structure IsEntry (entry : List α) : Prop where
  ne_nil : entry ≠ []
  length_le : entry.length ≤ size
  zero_not_mem : zero ∉ entry

variable {zero size}

theorem length_cell {entry : List α} (hentry : entry.length ≤ size) :
    (cell zero size entry).length = size := by
  rw [cell, List.length_append, List.length_replicate]
  omega

theorem length_flatMap_cell {entries : List (List α)}
    (hentries : ∀ entry ∈ entries, entry.length ≤ size) :
    (entries.flatMap (cell zero size)).length = size * entries.length := by
  induction entries with
  | nil => rfl
  | cons entry entries ih =>
      rw [List.flatMap_cons, List.length_append, length_cell (hentries entry (by simp)),
        ih fun other hother => hentries other (by simp [hother]), List.length_cons,
        Nat.mul_succ, Nat.add_comm]

theorem takeWhile_cell [DecidableEq α] {entry : List α} (hentry : zero ∉ entry) :
    (cell zero size entry).takeWhile (· ≠ zero) = entry := by
  rw [cell, List.takeWhile_append_of_pos, List.takeWhile_replicate]
  · simp
  · intro x hx
    exact decide_eq_true fun hzero => hentry (hzero ▸ hx)

theorem cell_injective {entry other : List α} (hentry : zero ∉ entry) (hother : zero ∉ other)
    (h : cell zero size entry = cell zero size other) : entry = other := by
  classical
  calc entry = (cell zero size entry).takeWhile (· ≠ zero) := (takeWhile_cell hentry).symm
    _ = (cell zero size other).takeWhile (· ≠ zero) := by rw [h]
    _ = other := takeWhile_cell hother

theorem cells_nil (count : ℕ) : cells zero size count [] = List.replicate (size * count) zero := rfl

theorem cells_cons (count : ℕ) (entry : List α) (entries : List (List α)) :
    cells zero size count (entry :: entries) =
      cell zero size entry ++ cells zero size (count - 1) entries := by
  rw [cells, cells, List.flatMap_cons, List.append_assoc, List.length_cons,
    show count - (entries.length + 1) = count - 1 - entries.length by omega]

-- An array that was never written holds no entry.
theorem eq_nil_of_cells_eq {count other : ℕ} {entries : List (List α)}
    (hentries : ∀ entry ∈ entries, IsEntry zero size entry)
    (h : cells zero size count entries = List.replicate other zero) : entries = [] := by
  cases entries with
  | nil => rfl
  | cons entry entries =>
      have hentry := hentries entry (by simp)
      obtain ⟨first, rest, rfl⟩ := List.exists_cons_of_ne_nil hentry.ne_nil
      have hmem : first ∈ cells zero size count ((first :: rest) :: entries) := by
        rw [cells_cons, cell]
        simp
      rw [h, List.mem_replicate] at hmem
      exact absurd (by simp [hmem.2]) hentry.zero_not_mem

theorem cells_injective {count : ℕ} {entries others : List (List α)}
    (hentries : ∀ entry ∈ entries, IsEntry zero size entry)
    (hothers : ∀ entry ∈ others, IsEntry zero size entry)
    (h : cells zero size count entries = cells zero size count others) : entries = others := by
  induction entries generalizing others count with
  | nil => exact (eq_nil_of_cells_eq hothers h.symm).symm
  | cons entry entries ih =>
      cases others with
      | nil => exact eq_nil_of_cells_eq hentries h
      | cons other others =>
          have hentry := hentries entry (by simp)
          have hother := hothers other (by simp)
          rw [cells_cons, cells_cons] at h
          obtain ⟨hfirst, hrest⟩ := List.append_inj h
            (by rw [length_cell hentry.length_le, length_cell hother.length_le])
          rw [cell_injective hentry.zero_not_mem hother.zero_not_mem hfirst,
            ih (fun one hone => hentries one (by simp [hone]))
              (fun one hone => hothers one (by simp [hone])) hrest]

-- Writing the next cell: the entry and one zero over the zeros.
theorem cells_append (zero : α) {count : ℕ} {entries : List (List α)} {entry : List α}
    (hentries : ∀ entry ∈ entries, entry.length ≤ size) (hentry : entry.length < size)
    (hcount : entries.length < count) :
    (cells zero size count entries).take (size * entries.length) ++ (entry ++ [zero]) ++
        (cells zero size count entries).drop (size * entries.length + (entry.length + 1)) =
      cells zero size count (entries ++ [entry]) := by
  have hlen : (entries.flatMap (cell zero size)).length = size * entries.length :=
    length_flatMap_cell hentries
  have hroom : size * (count - entries.length) = size * (count - (entries.length + 1)) + size := by
    rw [← Nat.mul_succ]
    congr 1
    omega
  have hzeros : [zero] ++
      List.replicate (size * (count - entries.length) - (entry.length + 1)) zero =
      List.replicate (size - entry.length) zero ++
        List.replicate (size * (count - (entries.length + 1))) zero := by
    rw [← List.replicate_one, List.replicate_append_replicate, List.replicate_append_replicate]
    congr 1
    omega
  rw [cells, cells, ← hlen, List.take_left, List.drop_append, List.flatMap_append,
    List.drop_eq_nil_of_le (by omega), List.nil_append, List.length_append, List.length_singleton,
    List.drop_replicate, Nat.add_sub_cancel_left, List.append_assoc, List.append_assoc, hzeros,
    List.flatMap_cons, List.flatMap_nil, List.append_nil, cell, List.append_assoc,
    List.append_assoc]

end Gopher.Lib
