import Gopher.Imdb
import Mathlib.Data.List.TakeWhile

namespace Gopher.Imdb

open Gopher.Lib

-- A table that has been served goes to the back with the highest priority.
def Table.reset (table : Table) : Table := { table with weighting := 0 }

def Table.waits (table : Table) : Bool := table.weighting != 0

@[simp] theorem Table.reset_name (table : Table) : table.reset.name = table.name := rfl

@[simp] theorem Table.reset_waits (table : Table) : table.reset.waits = false := rfl

theorem Table.weighting_eq_zero_iff (table : Table) :
    table.weighting = 0 ↔ table.waits = false := by
  simp [Table.waits]

-- Nothing at all, or a front that need not wait.
def Served (tables : List Table) : Prop := ∀ table ∈ tables.head?, table.waits = false

theorem served_append {front back : List Table} (hfront : Served front) (hback : Served back) :
    Served (front ++ back) := by
  cases front with
  | nil => exact hback
  | cons table front => exact hfront

-- The round that moves the last table of `pending` finds a front that need not wait.
theorem adjustLoop_last (tblName : Text) (rounds : ℕ) (table : Table) {rest : List Table}
    (hrest : Served rest) :
    adjustLoop tblName (rounds + 1) (table :: rest) = rest ++ [table.reset] := by
  have hserved : Served (rest ++ [table.reset]) :=
    served_append hrest (by simp [Served])
  have hrequeued : requeueTable (table :: rest) = rest ++ [table.reset] := rfl
  rw [adjustLoop]
  simp only [hrequeued]
  cases hcons : rest ++ [table.reset] with
  | nil => rfl
  | cons first others =>
      have hfirst : first.waits = false := hserved first (by simp [hcons])
      dsimp only
      rw [if_pos ((Table.weighting_eq_zero_iff first).mpr hfirst)]

-- The loop moves the tables that wait, one in each round, up to the first one that does
-- not or, when all of them wait, once around. It needs no other bound on its rounds.
theorem adjustLoop_eq (tblName : Text) {rounds : ℕ} (first : Table) (pending : List Table)
    {rest : List Table} (hpending : ∀ table ∈ pending, table.waits = true ∧ table.name ≠ tblName)
    (hrest : Served rest) (hrounds : pending.length < rounds) :
    adjustLoop tblName rounds (first :: pending ++ rest) =
      rest ++ (first :: pending).map Table.reset := by
  induction pending generalizing first rest rounds with
  | nil =>
      obtain ⟨rounds, rfl⟩ : ∃ n, rounds = n + 1 := ⟨rounds - 1, by omega⟩
      exact adjustLoop_last tblName rounds first hrest
  | cons second pending ih =>
      obtain ⟨rounds, rfl⟩ : ∃ n, rounds = n + 1 := ⟨rounds - 1, by omega⟩
      obtain ⟨⟨hwaits, hname⟩, hothers⟩ := List.forall_mem_cons.mp hpending
      have hweighting : second.weighting ≠ 0 := by
        rw [Ne, Table.weighting_eq_zero_iff, hwaits]
        decide
      have hback : Served (rest ++ [first.reset]) := served_append hrest (by simp [Served])
      rw [List.length_cons] at hrounds
      have hnext := ih second hothers hback (show pending.length < rounds by omega)
      rw [adjustLoop]
      simp only [requeueTable, List.cons_append]
      rw [if_neg hweighting, if_neg hname]
      rw [List.cons_append, ← List.append_assoc] at hnext
      rw [show { first with weighting := 0 } = first.reset from rfl, hnext]
      simp

theorem served_dropWhile (tables : List Table) : Served (tables.dropWhile Table.waits) := by
  intro table htable
  have hhead := List.head?_dropWhile_not Table.waits tables
  rw [Option.mem_def.mp htable] at hhead
  simpa using hhead

theorem adjustTblPrio_of_waits {tables : List Table} {first : Table} {others : List Table}
    (hcons : tables = first :: others) (hwaits : first.waits = true)
    (hnames : (tables.map Table.name).Nodup) {rounds : ℕ} (hrounds : tables.length ≤ rounds) :
    adjustLoop first.name rounds tables =
      tables.dropWhile Table.waits ++ (tables.takeWhile Table.waits).map Table.reset := by
  subst hcons
  rw [List.map_cons, List.nodup_cons] at hnames
  have hsplit := List.takeWhile_append_dropWhile (p := Table.waits) (l := others)
  have hpending : ∀ table ∈ others.takeWhile Table.waits,
      table.waits = true ∧ table.name ≠ first.name := by
    intro table htable
    refine ⟨List.mem_takeWhile_imp htable, fun hname => hnames.1 ?_⟩
    rw [← hname]
    exact List.mem_map_of_mem ((List.takeWhile_prefix Table.waits).subset htable)
  have hlength := (List.takeWhile_prefix (p := Table.waits) (l := others)).length_le
  rw [List.length_cons] at hrounds
  have hloop := adjustLoop_eq first.name first (others.takeWhile Table.waits) hpending
    (served_dropWhile others) (show _ < rounds by omega)
  rw [List.cons_append, hsplit] at hloop
  rw [hloop, List.dropWhile_cons_of_pos hwaits, List.takeWhile_cons_of_pos hwaits]

-- The tables that waited in front are moved to the back, and only their weighting is reset.
theorem adjustTblPrio_eq {tables : List Table} (hnames : (tables.map Table.name).Nodup) :
    adjustTblPrio tables =
      tables.dropWhile Table.waits ++ (tables.takeWhile Table.waits).map Table.reset := by
  cases tables with
  | nil => rfl
  | cons first others =>
      rw [adjustTblPrio]
      by_cases hwaits : first.waits = true
      · have hweighting : first.weighting ≠ 0 := by
          rw [Ne, Table.weighting_eq_zero_iff, hwaits]
          decide
        rw [if_neg hweighting]
        exact adjustTblPrio_of_waits rfl hwaits hnames (Nat.le_refl _)
      · have hserved : first.waits = false := by simpa using hwaits
        rw [if_pos ((Table.weighting_eq_zero_iff first).mpr hserved),
          List.dropWhile_cons_of_neg hwaits, List.takeWhile_cons_of_neg hwaits]
        simp

-- The tables after an export that succeeds are the old ones turned round: those moved to
-- the back are the only ones reset, the front is free to go, and the loop has not been
-- stopped by its count of rounds.
theorem adjustTblPrio_rotates (tables : List Table) (hne : tables ≠ [])
    (hnames : (tables.map Table.name).Nodup) :
    ∃ moved kept, tables = moved ++ kept ∧
      adjustTblPrio tables = kept ++ moved.map Table.reset ∧
      (∃ front ∈ (adjustTblPrio tables).head?, front.weighting = 0) ∧
      ∀ first others, tables = first :: others → first.weighting ≠ 0 →
        ∀ rounds, tables.length ≤ rounds →
          adjustLoop first.name rounds tables = adjustTblPrio tables := by
  have hadjust := adjustTblPrio_eq hnames
  have hsplit := List.takeWhile_append_dropWhile (p := Table.waits) (l := tables)
  refine ⟨tables.takeWhile Table.waits, tables.dropWhile Table.waits, hsplit.symm, hadjust, ?_, ?_⟩
  · have hserved : Served (adjustTblPrio tables) := by
      rw [hadjust]
      apply served_append (served_dropWhile tables)
      intro table htable
      obtain ⟨moved, -, rfl⟩ := List.mem_map.mp (List.mem_of_mem_head? htable)
      rfl
    have hlength : (adjustTblPrio tables).length = tables.length := by
      conv_rhs => rw [← hsplit]
      rw [hadjust, List.length_append, List.length_append, List.length_map, Nat.add_comm]
    cases hcons : adjustTblPrio tables with
    | nil =>
        rw [hcons, List.length_nil, eq_comm, List.length_eq_zero_iff] at hlength
        exact absurd hlength hne
    | cons front others =>
        have hfront : front.waits = false := hserved front (by simp [hcons])
        exact ⟨front, by simp, (Table.weighting_eq_zero_iff front).mpr hfront⟩
  · intro first others hcons hweighting rounds hrounds
    have hwaits : first.waits = true := by simpa [Table.waits] using hweighting
    rw [adjustTblPrio_of_waits hcons hwaits hnames hrounds, hadjust]

-- Two tables, both of them waiting: once around, and both are reset.
theorem adjustTblPrio_rotates_all :
    adjustTblPrio [{ tableCreate "a".toList 1 with weighting := 3 },
        { tableCreate "b".toList 1 with weighting := 1 }] =
      [tableCreate "a".toList 1, tableCreate "b".toList 1] ∧
    ∃ front ∈ (adjustTblPrio [{ tableCreate "a".toList 1 with weighting := 3 },
      { tableCreate "b".toList 1 with weighting := 1 }]).head?, front.weighting = 0 := by
  obtain ⟨-, -, -, -, hfront, -⟩ := adjustTblPrio_rotates
    [{ tableCreate "a".toList 1 with weighting := 3 },
      { tableCreate "b".toList 1 with weighting := 1 }] (by simp) (by decide)
  exact ⟨by decide, hfront⟩

end Gopher.Imdb
