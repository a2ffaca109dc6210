import Gopher.Imdb.Theorems
import Gopher.Lib.Lines

namespace Gopher.Imdb

open Gopher.Lib

def reportable (metric : Metric) : Bool :=
  metricTypeSatisfyPrometheus metric && metric.val != INVALID_METRIC_VALUE

-- The line of one metric, without its newline.
def metricLine (env : Env) (entityName labels : Text) (metric : Metric) : Text :=
  formatMetrics entityName metric.name ++ formatValue labels metric.val (env.now * THOUSAND)

def recordLines (env : Env) (nodeInfo : NodeInfo) (entityName : Text) (record : Record) :
    List Text :=
  (record.metrics.filter reportable).map
    (metricLine env entityName ((buildPrometheusLabel env nodeInfo record).getD []))

-- The tables are requeued by an export, so a record's table is the one of the same name.
def Stored (tables : List Table) (name : Text) (record : Record) : Prop :=
  ∃ table ∈ tables, table.name = name ∧ record ∈ table.records

instance (tables : List Table) (name : Text) (record : Record) :
    Decidable (Stored tables name record) :=
  inferInstanceAs (Decidable (∃ table ∈ tables, table.name = name ∧ record ∈ table.records))

-- The unexpired records that were in a table before and are not after.
def missing (env : Env) (before after : List Table) : List (Table × Record) :=
  before.flatMap fun table =>
    (table.records.filter fun record =>
      !expired env record && !decide (Stored after table.name record)).map fun record =>
        (table, record)

-- Whatever left its table went out, each metric in a line of its own.
def LosesNothing (env : Env) (mgr : DataBaseMgr) (maxLen : UInt32) : Prop :=
  let result := dataBase2Prometheus env mgr maxLen
  let gone := missing env mgr.tables result.mgr.tables
  gone ≠ [] → ∃ bufLen, result.ret = 0 ∧ result.bufLen = some bufLen ∧
    (gone.flatMap fun one => recordLines env mgr.nodeInfo one.1.entityName one.2).Subperm
        (completeLines (result.buffer.take bufLen))

-- The lines that go out one after the other while each fits with its NUL.
def fitting : (space : ℕ) → List Text → List Text
  | _, [] => []
  | space, line :: lines =>
      if line.length + 1 < space ∧ space < 2 ^ 31 then
        line :: fitting (space - (line.length + 1)) lines
      else []

-- The lines of a record that go out when it finds `space` bytes left.
def outLines (env : Env) (nodeInfo : NodeInfo) (entityName : Text) (record : Record)
    (space : ℕ) : List Text :=
  if (buildPrometheusLabel env nodeInfo record).isSome then
    fitting space (recordLines env nodeInfo entityName record)
  else []

-- The records a table gives up, each with the space it found.
def tblTaken (env : Env) (nodeInfo : NodeInfo) (entityName : Text) :
    List Record → (index space : ℕ) → List (Record × ℕ)
  | [], _, _ => []
  | record :: records, index, space =>
      if DEFAULT_PERIOD_RECORD_NUM ≤ index then []
      else if expired env record then tblTaken env nodeInfo entityName records index space
      else
        let out := outLines env nodeInfo entityName record space
        if out = [] then []
        else (record, space) ::
          tblTaken env nodeInfo entityName records (index + 1) (space - (printed out).length)

def tblLines (env : Env) (nodeInfo : NodeInfo) (table : Table) (space : ℕ) : List Text :=
  (tblTaken env nodeInfo table.entityName table.records 0 space).flatMap fun one =>
    outLines env nodeInfo table.entityName one.1 one.2

-- The bytes of a table, its blank line included.
def tblLen (env : Env) (nodeInfo : NodeInfo) (table : Table) (space : ℕ) : ℕ :=
  if table.records = [] then 0 else (printed (tblLines env nodeInfo table space)).length + 1

structure Taken where
  table : Table
  record : Record
  space : ℕ
  deriving DecidableEq

def tablesTaken (env : Env) (nodeInfo : NodeInfo) : List Table → (space : ℕ) → List Taken
  | [], _ => []
  | table :: tables, space =>
      (tblTaken env nodeInfo table.entityName table.records 0 space).map
        (fun one => ⟨table, one.1, one.2⟩) ++
      if space ≤ tblLen env nodeInfo table space then []
      else tablesTaken env nodeInfo tables (space - tblLen env nodeInfo table space)

-- Some table leaves no room for its blank line and the NUL.
def overflows (env : Env) (nodeInfo : NodeInfo) : List Table → (space : ℕ) → Bool
  | [], _ => false
  | table :: tables, space =>
      space ≤ tblLen env nodeInfo table space ||
        overflows env nodeInfo tables (space - tblLen env nodeInfo table space)

-- All the lines of the record fit in the space it found, and none is broken in two.
def Taken.Whole (env : Env) (nodeInfo : NodeInfo) (taken : Taken) : Prop :=
  let lines := recordLines env nodeInfo taken.table.entityName taken.record
  fitting taken.space lines = lines ∧ ∀ line ∈ lines, '\n' ∉ line

-- The end of the buffer does not fall inside a record, and no table overflows
-- after a record was taken.
def NoneCut (env : Env) (mgr : DataBaseMgr) (maxLen : UInt32) : Prop :=
  let taken := tablesTaken env mgr.nodeInfo mgr.tables maxLen.toNat
  (∀ one ∈ taken, one.Whole env mgr.nodeInfo) ∧
    (overflows env mgr.nodeInfo mgr.tables maxLen.toNat = true → taken = [])

theorem fitting_prefix (space : ℕ) (lines : List Text) : fitting space lines <+: lines := by
  induction lines generalizing space with
  | nil => simp [fitting]
  | cons line lines ih =>
      rw [fitting]
      split_ifs
      · exact (List.prefix_cons_inj line).mpr (ih _)
      · exact List.nil_prefix

theorem outLines_prefix (env : Env) (nodeInfo : NodeInfo) (entityName : Text) (record : Record)
    (space : ℕ) :
    outLines env nodeInfo entityName record space <+:
      recordLines env nodeInfo entityName record := by
  rw [outLines]
  split_ifs
  · exact fitting_prefix _ _
  · exact List.nil_prefix

theorem intOfLen_le_iff {len : ℕ} (hlen : len < 2 ^ 32) (size : ℕ) :
    intOfLen len ≤ size ↔ ¬ (size < len ∧ len < 2 ^ 31) := by
  unfold intOfLen
  split_ifs <;> omega

-- Two pieces printed one after the other, the second closed by a newline.
theorem snprintf_line {maxLen : ℕ} (hlen : maxLen < 2 ^ 32) (first second : Text) :
    (do
      let cursor ← snprintf ⟨[], intOfLen maxLen⟩ first
      let cursor ← snprintf cursor (second ++ ['\n'])
      return cursor.text) =
    if (first ++ second).length + 1 < maxLen ∧ maxLen < 2 ^ 31 then
      some (first ++ second ++ ['\n'])
    else none := by
  have hfirst := intOfLen_le_iff hlen first.length
  have hboth := intOfLen_le_iff hlen (first.length + second.length + 1)
  have hzero := intOfLen_le_iff hlen 0
  simp only [snprintf, List.length_append, List.length_singleton, List.nil_append]
  by_cases hfits : first.length + second.length + 1 < maxLen ∧ maxLen < 2 ^ 31
  · rw [if_neg (by omega), if_neg (by omega), if_pos hfits]
    simp only [Option.bind_eq_bind, Option.bind_some]
    rw [if_neg (by omega), if_neg (by push_cast; omega)]
    simp
  · rw [if_neg hfits]
    by_cases hsize : intOfLen maxLen ≤ 0
    · simp [hsize]
    · by_cases hone : intOfLen maxLen ≤ first.length
      · simp [hsize, hone]
      · rw [if_neg hsize, if_neg hone]
        simp only [Option.bind_eq_bind, Option.bind_some]
        rw [if_neg (by omega), if_pos (by push_cast; omega)]
        rfl

theorem buildPrometheusMetrics_eq (env : Env) (metric : Metric) {maxLen : ℕ}
    (hlen : maxLen < 2 ^ 32) (entityName labels : Text) :
    buildPrometheusMetrics env metric maxLen entityName labels =
      if (metricLine env entityName labels metric).length + 1 < maxLen ∧ maxLen < 2 ^ 31 then
        some (metricLine env entityName labels metric ++ ['\n'])
      else none := by
  rw [metricLine, ← snprintf_line hlen]
  rfl

theorem recLoop_eq (env : Env) (entityName labels : Text) (metrics : List Metric) {space : ℕ}
    (hspace : space < 2 ^ 32) :
    recLoop env entityName labels metrics space =
      printed (fitting space ((metrics.filter reportable).map (metricLine env entityName labels))) := by
  induction metrics generalizing space with
  | nil => rfl
  | cons metric metrics ih =>
      rw [recLoop]
      by_cases htype : metricTypeSatisfyPrometheus metric
      · by_cases hval : metric.val = INVALID_METRIC_VALUE
        · simpa [htype, hval, reportable] using ih hspace
        · have hreport : reportable metric = true := by simp [reportable, htype, hval]
          simp only [htype, hval, Bool.not_true, Bool.false_eq_true, ite_false,
            List.filter_cons_of_pos hreport, List.map_cons, fitting,
            buildPrometheusMetrics_eq env metric hspace]
          split_ifs with hfits
          · simp only [printed_cons, List.length_append, List.length_singleton,
              List.append_assoc, List.singleton_append]
            rw [ih (by omega)]
          · rfl
      · simpa [htype, reportable] using ih hspace

theorem rec2Prometheus_eq (env : Env) (nodeInfo : NodeInfo) (record : Record) (entityName : Text)
    {space : ℕ} (hspace : space < 2 ^ 32) :
    rec2Prometheus env nodeInfo record entityName space =
      printed (outLines env nodeInfo entityName record space) := by
  rw [rec2Prometheus, outLines, recordLines]
  cases hlabels : buildPrometheusLabel env nodeInfo record with
  | none => rfl
  | some labels => exact recLoop_eq env entityName labels record.metrics hspace

section Table

variable (env : Env) (nodeInfo : NodeInfo) (entityName : Text)

theorem tblLoop_text (records : List Record) (index : ℕ) {space : ℕ} (hspace : space < 2 ^ 32) :
    (tblLoop env nodeInfo entityName records index space).2 =
      printed ((tblTaken env nodeInfo entityName records index space).flatMap
        fun one => outLines env nodeInfo entityName one.1 one.2) := by
  induction records generalizing index space with
  | nil => rfl
  | cons record records ih =>
      rw [tblLoop, tblTaken, rec2Prometheus_eq env nodeInfo record entityName hspace]
      simp only [printed_eq_nil_iff]
      split_ifs
      · rfl
      · exact ih index hspace
      · rfl
      · simp only [List.flatMap_cons, printed_append]
        rw [ih (index + 1) (by omega)]

-- A record leaves the table exactly when it has expired or is taken.
theorem tblLoop_missing {records : List Record} (hnodup : records.Nodup) (index : ℕ) {space : ℕ}
    (hspace : space < 2 ^ 32) :
    (records.filter fun record => !expired env record &&
      !decide (record ∈ (tblLoop env nodeInfo entityName records index space).1)) =
      (tblTaken env nodeInfo entityName records index space).map Prod.fst := by
  induction records generalizing index space with
  | nil => rfl
  | cons record records ih =>
      obtain ⟨hhead, hnodup⟩ := List.nodup_cons.mp hnodup
      -- what stays is a part of `records`, where the head does not occur
      have hkept : ∀ index space,
          record ∉ (tblLoop env nodeInfo entityName records index space).1 :=
        fun index space hmem =>
          hhead ((tblLoop_suffix env nodeInfo entityName records index space).subset hmem)
      have hstay : ((record :: records).filter fun stored =>
          !expired env stored && !decide (stored ∈ record :: records)) = [] := by
        apply List.filter_eq_nil_iff.mpr
        intro stored hstored
        simp [hstored]
      rw [tblLoop, tblTaken, rec2Prometheus_eq env nodeInfo record entityName hspace]
      simp only [printed_eq_nil_iff]
      split_ifs with hindex hexpired hout
      · exact hstay
      · simpa [hexpired] using ih hnodup index hspace
      · exact hstay
      · rw [List.map_cons, ← ih hnodup (index + 1) (by omega)]
        simp [hexpired, hkept]

end Table

end Gopher.Imdb
