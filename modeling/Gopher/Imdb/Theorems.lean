import Gopher.Imdb
import Mathlib.Data.List.Forall2
import Mathlib.Data.List.Nodup

namespace Gopher.Imdb

open Gopher.Lib

-- What every operation on a table keeps.
structure Table.WellFormed (table : Table) : Prop where
  keys_nodup : (table.records.map Record.key).Nodup
  length_le : table.records.length ≤ table.recordsCapability.toNat

theorem tableCreate_wellFormed (name : Text) (capacity : UInt32) :
    (tableCreate name capacity).WellFormed :=
  ⟨List.nodup_nil, Nat.zero_le _⟩

-- The records an addition keeps.
def othersOf (records : List Record) (record : Record) : List Record :=
  records.filter (fun stored => stored.key != record.key)

theorem othersOf_of_not_mem {records : List Record} {record : Record}
    (hkey : record.key ∉ records.map Record.key) : othersOf records record = records := by
  apply List.filter_eq_self.mpr
  intro stored hstored
  simp only [bne_iff_ne, ne_eq]
  rintro he
  exact hkey (he ▸ List.mem_map_of_mem hstored)

-- Since no two records share a key, deleting the record found leaves no other under its key.
theorem deleteOldRecord_eq {records : List Record} (hnodup : (records.map Record.key).Nodup)
    (record : Record) : deleteOldRecord records record = othersOf records record := by
  induction records with
  | nil => rfl
  | cons head records ih =>
      rw [List.map_cons, List.nodup_cons] at hnodup
      by_cases hkey : head.key = record.key
      · have hothers := othersOf_of_not_mem (hkey ▸ hnodup.1)
        rw [othersOf] at hothers
        simp [deleteOldRecord, hashFindRecord, hashDeleteRecord, othersOf, hkey, hothers]
      · have ih := ih hnodup.2
        have hfind : hashFindRecord (head :: records) record = hashFindRecord records record := by
          simp [hashFindRecord, hkey]
        have hhead : othersOf (head :: records) record = head :: othersOf records record := by
          simp [othersOf, hkey]
        rw [deleteOldRecord, hfind, hhead, ← ih, deleteOldRecord]
        cases hold : hashFindRecord records record with
        | none => rfl
        | some oldRecord =>
            -- the record found has the key looked for, so it is not the head
            have hfound := List.find?_some hold
            have hne : head ≠ oldRecord := by
              rintro rfl
              exact hkey (by simpa using hfound)
            simp [hashDeleteRecord, hne]

theorem othersOf_length_lt {records : List Record} {record : Record}
    (hkey : record.key ∈ records.map Record.key) :
    (othersOf records record).length < records.length := by
  obtain ⟨stored, hstored, he⟩ := List.mem_map.mp hkey
  apply List.length_filter_lt_length_iff_exists.mpr
  exact ⟨stored, hstored, by simp [he]⟩

-- An addition either replaces whatever was under the key, or finds the table
-- full of other keys and leaves it alone.
theorem tableAddRecord_cases {table : Table} (h : table.WellFormed) (now : ℤ) (record : Record) :
    ((othersOf table.records record).length < table.recordsCapability.toNat ∧
      tableAddRecord now table record = ({ table with
        records := othersOf table.records record ++ [recordUpdateTime record now] }, 0)) ∨
    (table.records.length = table.recordsCapability.toNat ∧
      record.key ∉ table.records.map Record.key ∧ tableAddRecord now table record = (table, -1)) := by
  have hdelete := deleteOldRecord_eq h.keys_nodup record
  by_cases hroom : (othersOf table.records record).length < table.recordsCapability.toNat
  · left
    refine ⟨hroom, ?_⟩
    simp only [tableAddRecord, hdelete, hashAddRecord]
    rw [if_neg (by omega)]
  · right
    have hle := h.length_le
    have hkey : record.key ∉ table.records.map Record.key := by
      intro hmem
      have hlt := othersOf_length_lt hmem
      omega
    have hothers := othersOf_of_not_mem hkey
    rw [hothers] at hroom hdelete
    refine ⟨by omega, hkey, ?_⟩
    simp only [tableAddRecord, hdelete]
    rw [if_pos (by omega)]

theorem tableAddRecord_wellFormed {table : Table} (h : table.WellFormed) (now : ℤ)
    (record : Record) : (tableAddRecord now table record).1.WellFormed := by
  obtain ⟨hroom, he⟩ | ⟨-, -, he⟩ := tableAddRecord_cases h now record
  · rw [he]
    constructor
    · rw [List.map_append, List.nodup_append']
      refine ⟨h.keys_nodup.sublist (List.filter_sublist.map _), List.nodup_singleton _, ?_⟩
      intro key hothers hnew
      obtain ⟨stored, hstored, rfl⟩ := List.mem_map.mp hothers
      have hne := (List.mem_filter.mp hstored).2
      simp [recordUpdateTime] at hnew
      simp [hnew] at hne
    · simp only [List.length_append, List.length_singleton]
      omega
  · rw [he]
    exact h

theorem Table.WellFormed.of_suffix {table exported : Table} (hwf : table.WellFormed)
    (hcapability : exported.recordsCapability = table.recordsCapability)
    (hsuffix : exported.records <:+ table.records) : exported.WellFormed := by
  have hsublist := hsuffix.sublist
  refine ⟨hwf.keys_nodup.sublist (hsublist.map _), ?_⟩
  rw [hcapability]
  exact Nat.le_trans hsublist.length_le hwf.length_le

-- An export only takes records off the front of the table.
theorem tblLoop_suffix (env : Env) (nodeInfo : NodeInfo) (entityName : Text)
    (records : List Record) (index curMaxLen : ℕ) :
    (tblLoop env nodeInfo entityName records index curMaxLen).1 <:+ records := by
  induction records generalizing index curMaxLen with
  | nil => exact List.suffix_rfl
  | cons record records ih =>
      rw [tblLoop]
      dsimp only
      split_ifs with hindex hexpired htext
      · exact List.suffix_rfl
      · exact (ih index curMaxLen).trans (List.suffix_cons record records)
      · exact List.suffix_rfl
      · exact (ih _ _).trans (List.suffix_cons record records)

theorem tbl2Prometheus_records (env : Env) (nodeInfo : NodeInfo) (table : Table) (maxLen : ℕ) :
    (tbl2Prometheus env nodeInfo table maxLen).1 = { table with
      records := (tblLoop env nodeInfo table.entityName table.records 0 maxLen).1 } := by
  rw [tbl2Prometheus]
  split_ifs with hlen
  · have hnil := List.eq_nil_of_length_eq_zero hlen
    cases table
    subst hnil
    rfl
  · rfl

theorem tbl2Prometheus_wellFormed {table : Table} (h : table.WellFormed) (env : Env)
    (nodeInfo : NodeInfo) (maxLen : ℕ) :
    (tbl2Prometheus env nodeInfo table maxLen).1.WellFormed := by
  rw [tbl2Prometheus_records]
  exact h.of_suffix rfl (tblLoop_suffix env nodeInfo table.entityName table.records 0 maxLen)

-- The calls a table sees: additions at any time of the clock, and exports with
-- any clock, time-out and room.
inductive TableOp
  | add (now : ℤ) (record : Record)
  | toPrometheus (env : Env) (nodeInfo : NodeInfo) (maxLen : ℕ)

def TableOp.exec (table : Table) : TableOp → Table
  | add now record => (tableAddRecord now table record).1
  | toPrometheus env nodeInfo maxLen => (tbl2Prometheus env nodeInfo table maxLen).1

def TableOp.Step (before : Table) (op : TableOp) (after : Table) : Prop :=
  after = op.exec before

theorem TableOp.exec_wellFormed {table : Table} (h : table.WellFormed) (op : TableOp) :
    (op.exec table).WellFormed := by
  cases op with
  | add now record => exact tableAddRecord_wellFormed h now record
  | toPrometheus env nodeInfo maxLen => exact tbl2Prometheus_wellFormed h env nodeInfo maxLen

theorem TableOp.run_wellFormed {first last : Table} {ops : List TableOp}
    (hrun : Run TableOp.Step first ops last) (hfirst : first.WellFormed) : last.WellFormed := by
  refine Run.invariant Table.WellFormed ?_ hrun hfirst
  rintro before op after hbefore rfl
  exact exec_wellFormed hbefore op

theorem TableOp.exec_capability (table : Table) (op : TableOp) :
    (op.exec table).recordsCapability = table.recordsCapability := by
  cases op with
  | add now record =>
      simp only [exec, tableAddRecord]
      split_ifs <;> rfl
  | toPrometheus env nodeInfo maxLen => rw [exec, tbl2Prometheus_records]

-- After any sequence of additions and exports.
theorem table_invariant (name : Text) (capacity : UInt32) (ops : List TableOp) (table : Table)
    (hrun : Run TableOp.Step (tableCreate name capacity) ops table) :
    (table.records.map Record.key).Nodup ∧
    table.recordsCapability = capacity ∧ table.records.length ≤ capacity.toNat ∧
    ∀ now record after ret, tableAddRecord now table record = (after, ret) →
      (ret = 0 ∨ ret = -1) ∧
      (ret = 0 → ∀ stored, stored ∈ after.records ↔
        stored = { record with updateTime := now } ∨
          stored ∈ table.records ∧ stored.key ≠ record.key) ∧
      (ret = -1 → after.records = table.records) := by
  have hwf := TableOp.run_wellFormed hrun (tableCreate_wellFormed name capacity)
  have hcapability : table.recordsCapability = capacity := by
    refine Run.invariant (fun table => table.recordsCapability = capacity) ?_ hrun rfl
    rintro before op after hbefore rfl
    exact (op.exec_capability before).trans hbefore
  refine ⟨hwf.keys_nodup, hcapability, hcapability ▸ hwf.length_le, ?_⟩
  intro now record after ret hadd
  obtain ⟨-, he⟩ | ⟨-, -, he⟩ := tableAddRecord_cases hwf now record
  · rw [he, Prod.mk.injEq] at hadd
    obtain ⟨rfl, rfl⟩ := hadd
    refine ⟨.inl rfl, fun _ stored => ?_, by omega⟩
    simp only [othersOf, recordUpdateTime, List.mem_append, List.mem_filter, List.mem_singleton,
      bne_iff_ne]
    exact or_comm
  · rw [he, Prod.mk.injEq] at hadd
    obtain ⟨rfl, rfl⟩ := hadd
    exact ⟨.inr rfl, by omega, fun _ => rfl⟩

def sampleEnv : Env where
  now := 7
  recordTimeout := 60
  tgidRecord := fun _ => none
  getSystemIp := none

def sampleRecord (key : UInt8) : Record where
  key := [key]
  updateTime := 0
  metrics := []

def fullTable : Table :=
  { tableCreate "t".toList 2 with
    records := [{ sampleRecord 2 with updateTime := 6 }, { sampleRecord 1 with updateTime := 7 }] }

-- Three additions under two keys and an export that expires nothing fill a table of two
-- records: it takes another record of the second key and none of a third.
theorem table_invariant_full :
    ((tableAddRecord 9 fullTable (sampleRecord 2)).2 = 0 ∧
      ∀ stored, stored ∈ (tableAddRecord 9 fullTable (sampleRecord 2)).1.records ↔
        stored = { sampleRecord 2 with updateTime := 9 } ∨
          stored ∈ fullTable.records ∧ stored.key ≠ (sampleRecord 2).key) ∧
    (tableAddRecord 9 fullTable (sampleRecord 3)).2 = -1 ∧
      (tableAddRecord 9 fullTable (sampleRecord 3)).1.records = fullTable.records := by
  have hrun : Run TableOp.Step (tableCreate "t".toList 2)
      [.add 5 (sampleRecord 1), .add 6 (sampleRecord 2), .add 7 (sampleRecord 1),
        .toPrometheus sampleEnv ⟨[], []⟩ 100] fullTable :=
    .cons rfl (.cons rfl (.cons rfl (.cons rfl (.nil _))))
  obtain ⟨-, -, -, hadd⟩ := table_invariant "t".toList 2 _ _ hrun
  have htaken : (tableAddRecord 9 fullTable (sampleRecord 2)).2 = 0 := by decide
  have hrefused : (tableAddRecord 9 fullTable (sampleRecord 3)).2 = -1 := by decide
  obtain ⟨-, hstored, -⟩ := hadd 9 (sampleRecord 2) _ _ rfl
  obtain ⟨-, -, hsame⟩ := hadd 9 (sampleRecord 3) _ _ rfl
  exact ⟨⟨htaken, hstored htaken⟩, hrefused, hsame hrefused⟩

structure DataBaseMgr.WellFormed (mgr : DataBaseMgr) : Prop where
  names_nodup : (mgr.tables.map Table.name).Nodup
  tables_wellFormed : ∀ table ∈ mgr.tables, table.WellFormed

-- One by one, an export takes records off the front of the tables.
theorem tablesLoop_forall (env : Env) (nodeInfo : NodeInfo) (tables : List Table) (space : ℕ) :
    List.Forall₂ (fun table exported => exported.name = table.name ∧
      exported.recordsCapability = table.recordsCapability ∧ exported.records <:+ table.records)
      tables (tablesLoop env nodeInfo tables space).1 := by
  induction tables generalizing space with
  | nil => exact .nil
  | cons table tables ih =>
      have hsuffix := tblLoop_suffix env nodeInfo table.entityName table.records 0 space
      rw [tablesLoop]
      dsimp only
      rw [tbl2Prometheus_records]
      by_cases hover : space ≤ (tbl2Prometheus env nodeInfo table space).2.2
      · rw [if_pos hover]
        exact .cons ⟨rfl, rfl, hsuffix⟩
          (List.forall₂_same.mpr fun other _ => ⟨rfl, rfl, List.suffix_rfl⟩)
      · rw [if_neg hover]
        exact .cons ⟨rfl, rfl, hsuffix⟩ (ih _)

theorem tablesLoop_names (env : Env) (nodeInfo : NodeInfo) (tables : List Table) (space : ℕ) :
    (tablesLoop env nodeInfo tables space).1.map Table.name = tables.map Table.name := by
  have hforall := tablesLoop_forall env nodeInfo tables space
  generalize (tablesLoop env nodeInfo tables space).1 = exported at hforall ⊢
  induction hforall with
  | nil => rfl
  | cons hfirst _ ih => rw [List.map_cons, List.map_cons, hfirst.1, ih]

theorem tablesLoop_wellFormed (env : Env) (nodeInfo : NodeInfo) {tables : List Table} (space : ℕ)
    (hwf : ∀ table ∈ tables, table.WellFormed) :
    ∀ table ∈ (tablesLoop env nodeInfo tables space).1, table.WellFormed := by
  have hforall := tablesLoop_forall env nodeInfo tables space
  generalize (tablesLoop env nodeInfo tables space).1 = exported at hforall ⊢
  induction hforall with
  | nil => simp
  | cons hfirst _ ih =>
      obtain ⟨htable, hrest⟩ := List.forall_mem_cons.mp hwf
      exact List.forall_mem_cons.mpr ⟨htable.of_suffix hfirst.2.1 hfirst.2.2, ih hrest⟩

-- What requeuing the tables leaves as it is: all but the weighting.
def Table.contents (table : Table) : Text × UInt32 × List Record :=
  (table.name, table.recordsCapability, table.records)

theorem requeueTable_perm (tables : List Table) :
    ((requeueTable tables).map Table.contents).Perm (tables.map Table.contents) := by
  cases tables with
  | nil => exact List.Perm.refl _
  | cons first tables =>
      rw [requeueTable, List.map_append]
      exact List.perm_append_singleton _ _

theorem adjustLoop_perm (tblName : Text) (rounds : ℕ) (tables : List Table) :
    ((adjustLoop tblName rounds tables).map Table.contents).Perm (tables.map Table.contents) := by
  induction rounds generalizing tables with
  | zero => exact List.Perm.refl _
  | succ rounds ih =>
      have hrequeue := requeueTable_perm tables
      rw [adjustLoop]
      split
      · exact hrequeue
      · split_ifs
        · exact hrequeue
        · exact hrequeue
        · exact (ih _).trans hrequeue

theorem adjustTblPrio_perm (tables : List Table) :
    ((adjustTblPrio tables).map Table.contents).Perm (tables.map Table.contents) := by
  unfold adjustTblPrio
  split
  · exact List.Perm.refl _
  · split_ifs
    · exact List.Perm.refl _
    · exact adjustLoop_perm _ _ _

theorem DataBaseMgr.WellFormed.of_perm {mgr : DataBaseMgr} {tables : List Table}
    (hwf : mgr.WellFormed)
    (hperm : (tables.map Table.contents).Perm (mgr.tables.map Table.contents)) :
    { mgr with tables := tables }.WellFormed := by
  constructor
  · have hnames := hperm.map Prod.fst
    simp only [List.map_map] at hnames
    exact hnames.nodup_iff.mpr hwf.names_nodup
  · intro table htable
    have hmem := hperm.mem_iff.mp (List.mem_map_of_mem htable)
    obtain ⟨other, hother, he⟩ := List.mem_map.mp hmem
    simp only [Table.contents, Prod.mk.injEq] at he
    obtain ⟨hkeys, hlength⟩ := hwf.tables_wellFormed other hother
    rw [he.2.2] at hkeys hlength
    rw [he.2.1] at hlength
    exact ⟨hkeys, hlength⟩

theorem dataBase2Prometheus_wellFormed {mgr : DataBaseMgr} (hwf : mgr.WellFormed) (env : Env)
    (maxLen : UInt32) : (dataBase2Prometheus env mgr maxLen).mgr.WellFormed := by
  have hloop : { mgr with
      tables := (tablesLoop env mgr.nodeInfo mgr.tables maxLen.toNat).1 }.WellFormed := by
    constructor
    · rw [tablesLoop_names]
      exact hwf.names_nodup
    · exact tablesLoop_wellFormed env mgr.nodeInfo _ hwf.tables_wellFormed
  rw [dataBase2Prometheus]
  dsimp only
  split
  · exact hloop
  · exact hloop.of_perm (adjustTblPrio_perm _)

theorem addRecordTo_names (now : ℤ) (tableName : Text) (record : Record) (tables : List Table) :
    (addRecordTo now tableName record tables).1.map Table.name = tables.map Table.name := by
  induction tables with
  | nil => rfl
  | cons table tables ih =>
      rw [addRecordTo]
      split_ifs
      · simp only [tableAddRecord]
        split_ifs <;> rfl
      · simp [ih]

theorem addRecordTo_wellFormed (now : ℤ) (tableName : Text) (record : Record)
    {tables : List Table} (hwf : ∀ table ∈ tables, table.WellFormed) :
    ∀ table ∈ (addRecordTo now tableName record tables).1, table.WellFormed := by
  induction tables with
  | nil => simp [addRecordTo]
  | cons table tables ih =>
      obtain ⟨hfirst, hrest⟩ := List.forall_mem_cons.mp hwf
      rw [addRecordTo]
      split_ifs
      · exact List.forall_mem_cons.mpr ⟨tableAddRecord_wellFormed hfirst now record, hrest⟩
      · exact List.forall_mem_cons.mpr ⟨hfirst, ih hrest⟩

inductive DataBaseOp
  | addTable (name entityName : Text) (capacity : UInt32)
  | addRecord (now : ℤ) (tableName : Text) (record : Record)
  | toPrometheus (env : Env) (maxLen : UInt32)

def DataBaseOp.exec (mgr : DataBaseMgr) : DataBaseOp → DataBaseMgr
  | addTable name entityName capacity =>
      (dataBaseMgrAddTable mgr (tableSetEntityName (tableCreate name capacity) entityName)).1
  | addRecord now tableName record =>
      { mgr with tables := (addRecordTo now tableName record mgr.tables).1 }
  | toPrometheus env maxLen => (dataBase2Prometheus env mgr maxLen).mgr

def DataBaseOp.Step (before : DataBaseMgr) (op : DataBaseOp) (after : DataBaseMgr) : Prop :=
  after = op.exec before

theorem dataBaseMgrAddTable_wellFormed {mgr : DataBaseMgr} (hwf : mgr.WellFormed) {table : Table}
    (htable : table.WellFormed) : (dataBaseMgrAddTable mgr table).1.WellFormed := by
  rw [dataBaseMgrAddTable]
  split_ifs with hfull hname
  · exact hwf
  · exact hwf
  · constructor
    · rw [List.map_append, List.map_singleton]
      exact List.nodup_append'.mpr ⟨hwf.names_nodup, List.nodup_singleton _, by simpa using hname⟩
    · intro stored hstored
      obtain hmem | hmem := List.mem_append.mp hstored
      · exact hwf.tables_wellFormed stored hmem
      · rw [List.mem_singleton.mp hmem]
        exact htable

theorem DataBaseOp.exec_wellFormed {mgr : DataBaseMgr} (hwf : mgr.WellFormed) (op : DataBaseOp) :
    (op.exec mgr).WellFormed := by
  cases op with
  | addTable name entityName capacity =>
      exact dataBaseMgrAddTable_wellFormed hwf ⟨List.nodup_nil, Nat.zero_le _⟩
  | addRecord now tableName record =>
      constructor
      · rw [exec, addRecordTo_names]
        exact hwf.names_nodup
      · exact addRecordTo_wellFormed now tableName record hwf.tables_wellFormed
  | toPrometheus env maxLen => exact dataBase2Prometheus_wellFormed hwf env maxLen

-- Every database a run can reach has distinct table names, and distinct keys in each table.
theorem DataBaseOp.run_wellFormed {capacity : UInt32} {nodeInfo : NodeInfo}
    {ops : List DataBaseOp} {mgr : DataBaseMgr}
    (hrun : Run DataBaseOp.Step (dataBaseMgrCreate capacity nodeInfo) ops mgr) :
    mgr.WellFormed := by
  refine Run.invariant DataBaseMgr.WellFormed ?_ hrun ⟨List.nodup_nil, by simp [dataBaseMgrCreate]⟩
  rintro before op after hbefore rfl
  exact exec_wellFormed hbefore op

end Gopher.Imdb
