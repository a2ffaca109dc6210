import Gopher.Imdb.Export.Theorems
import Mathlib.Data.List.TakeWhile

namespace Gopher.Imdb

open Gopher.Lib

variable (env : Env) (nodeInfo : NodeInfo)

-- The labels of the record fit their buffer, and it has a metric to report.
def yields (record : Record) : Bool :=
  (buildPrometheusLabel env nodeInfo record).isSome && record.metrics.any reportable

def unexpired (records : List Record) : List Record :=
  records.filter fun record => !expired env record

-- What an export owes: the unexpired records with a text.
def due (records : List Record) : List Record :=
  (unexpired env records).filter (yields env nodeInfo)

def recordsLines (entityName : Text) (records : List Record) : List Text :=
  records.flatMap (recordLines env nodeInfo entityName)

-- One export prints the first records that are due, up to the limit of the period, and
-- keeps the others for the next one.
structure Emits (table : Table) (maxLen : ℕ) : Prop where
  text : (tbl2Prometheus env nodeInfo table maxLen).2.1 =
    printed (recordsLines env nodeInfo table.entityName
      ((due env nodeInfo table.records).take DEFAULT_PERIOD_RECORD_NUM) ++ tblBlank table)
  later : due env nodeInfo (tbl2Prometheus env nodeInfo table maxLen).1.records =
    (due env nodeInfo table.records).drop DEFAULT_PERIOD_RECORD_NUM

-- Room for all that is due, for the blank line and the NUL, in a `uint32_t` size.
def Roomy (table : Table) (maxLen : ℕ) : Prop :=
  maxLen < 2 ^ 32 ∧ (printed (recordsLines env nodeInfo table.entityName
    (due env nodeInfo table.records))).length + 1 < maxLen

-- No unexpired record without a text stands in front of one with a text, unless the limit
-- of the period is reached before it; a size beyond the range of `int` does for nothing.
def Unblocked (table : Table) (maxLen : ℕ) : Prop :=
  due env nodeInfo table.records = [] ∨ maxLen < 2 ^ 31 ∧
    (DEFAULT_PERIOD_RECORD_NUM ≤
        ((unexpired env table.records).takeWhile (yields env nodeInfo)).length ∨
      ∀ record ∈ (unexpired env table.records).dropWhile (yields env nodeInfo),
        yields env nodeInfo record = false)

-- The property holds of the export, in the state it finds.
def TableOp.Exports (p : Env → NodeInfo → Table → ℕ → Prop) (table : Table) : TableOp → Prop
  | add _ _ => True
  | toPrometheus env nodeInfo maxLen => p env nodeInfo table maxLen

-- The property holds of every export of a run of additions and exports.
def EveryExport (p : Env → NodeInfo → Table → ℕ → Prop) (table : Table) (ops : List TableOp) :
    Prop :=
  EachStep TableOp.exec table (fun _ before op => op.Exports p before) ops

section Lines

variable {env nodeInfo} {entityName : Text} {record : Record} {space : ℕ}

theorem fitting_of_room {lines : List Text} (hroom : (printed lines).length < space)
    (hspace : space < 2 ^ 31) : fitting space lines = lines := by
  induction lines generalizing space with
  | nil => rfl
  | cons line lines ih =>
      rw [printed_cons, List.length_append, List.length_cons] at hroom
      have hrest := ih (show (printed lines).length < space - (line.length + 1) by omega) (by omega)
      rw [fitting, if_pos ⟨by omega, hspace⟩, hrest]

theorem fitting_of_large (hspace : 2 ^ 31 ≤ space) (lines : List Text) :
    fitting space lines = [] := by
  cases lines with
  | nil => rfl
  | cons line lines => rw [fitting, if_neg (by omega)]

theorem recordLines_eq_nil_iff :
    recordLines env nodeInfo entityName record = [] ↔ record.metrics.any reportable = false := by
  rw [recordLines, List.map_eq_nil_iff, List.filter_eq_nil_iff, List.any_eq_false]

theorem outLines_of_yields (hyields : yields env nodeInfo record = true)
    (hroom : (printed (recordLines env nodeInfo entityName record)).length < space)
    (hspace : space < 2 ^ 31) :
    outLines env nodeInfo entityName record space = recordLines env nodeInfo entityName record ∧
      recordLines env nodeInfo entityName record ≠ [] := by
  rw [yields, Bool.and_eq_true] at hyields
  obtain ⟨hlabels, hmetrics⟩ := hyields
  rw [outLines, if_pos hlabels, fitting_of_room hroom hspace]
  refine ⟨rfl, fun hnil => ?_⟩
  rw [recordLines_eq_nil_iff.mp hnil] at hmetrics
  cases hmetrics

theorem outLines_of_not_yields (hyields : yields env nodeInfo record = false) :
    outLines env nodeInfo entityName record space = [] := by
  rw [yields, Bool.and_eq_false_iff] at hyields
  rw [outLines]
  obtain hlabels | hmetrics := hyields
  · rw [if_neg (by simp [hlabels])]
  · have hnil := fitting_prefix space (recordLines env nodeInfo entityName record)
    rw [recordLines_eq_nil_iff.mpr hmetrics] at hnil
    rw [recordLines_eq_nil_iff.mpr hmetrics, List.prefix_nil.mp hnil, ite_self]

end Lines

section Loop

variable {env nodeInfo} {entityName : Text} {records : List Record} {space : ℕ}

theorem unexpired_cons_of_expired {record : Record} (hexpired : expired env record = true) :
    unexpired env (record :: records) = unexpired env records := by
  rw [unexpired, List.filter_cons_of_neg (by simp [hexpired]), unexpired]

theorem due_cons_of_expired {record : Record} (hexpired : expired env record = true) :
    due env nodeInfo (record :: records) = due env nodeInfo records := by
  rw [due, unexpired_cons_of_expired hexpired, due]

theorem unexpired_cons {record : Record} (hexpired : ¬ expired env record = true) :
    unexpired env (record :: records) = record :: unexpired env records := by
  rw [unexpired, List.filter_cons_of_pos (by simp [hexpired]), unexpired]

-- The loop takes the records in front of the first one without a text, up to the limit.
theorem tblLoop_emits (index : ℕ)
    (hroom : (printed (recordsLines env nodeInfo entityName (due env nodeInfo records))).length
      < space) (hspace : space < 2 ^ 31) :
    let front := ((unexpired env records).takeWhile (yields env nodeInfo)).take
      (DEFAULT_PERIOD_RECORD_NUM - index)
    (tblLoop env nodeInfo entityName records index space).2 =
        printed (recordsLines env nodeInfo entityName front) ∧
      due env nodeInfo (tblLoop env nodeInfo entityName records index space).1 =
        (due env nodeInfo records).drop front.length := by
  induction records generalizing index space with
  | nil => simp [tblLoop, unexpired, due, recordsLines]
  | cons record records ih =>
      rw [tblLoop, rec2Prometheus_eq env nodeInfo record entityName (by omega)]
      by_cases hindex : DEFAULT_PERIOD_RECORD_NUM ≤ index
      · rw [if_pos hindex, Nat.sub_eq_zero_of_le hindex]
        simp [recordsLines]
      rw [if_neg hindex]
      by_cases hexpired : expired env record = true
      · rw [due_cons_of_expired hexpired] at hroom ⊢
        rw [unexpired_cons_of_expired hexpired, if_pos hexpired]
        exact ih index hroom hspace
      rw [if_neg hexpired, unexpired_cons hexpired]
      by_cases hyields : yields env nodeInfo record = true
      · have hdue : due env nodeInfo (record :: records) = record :: due env nodeInfo records := by
          rw [due, unexpired_cons hexpired, List.filter_cons_of_pos hyields, due]
        rw [hdue, recordsLines, List.flatMap_cons, ← recordsLines, printed_append,
          List.length_append] at hroom
        have hline : (printed (recordLines env nodeInfo entityName record)).length < space := by
          omega
        obtain ⟨hout, hne⟩ := outLines_of_yields hyields hline hspace
        have hprinted : (printed (recordLines env nodeInfo entityName record)).length ≠ 0 :=
          fun hzero => hne ((printed_eq_nil_iff _).mp hzero)
        have hroomRest : (printed (recordsLines env nodeInfo entityName
            (due env nodeInfo records))).length <
            space - (printed (recordLines env nodeInfo entityName record)).length := by omega
        obtain ⟨htext, hkept⟩ := ih (index + 1) hroomRest (by omega)
        have hcount : DEFAULT_PERIOD_RECORD_NUM - index =
            DEFAULT_PERIOD_RECORD_NUM - (index + 1) + 1 := by omega
        rw [hout]
        dsimp only
        rw [if_neg hprinted, htext, hkept, hdue, List.takeWhile_cons_of_pos hyields, hcount,
          List.take_succ_cons, List.length_cons, List.drop_succ_cons]
        refine ⟨?_, rfl⟩
        rw [recordsLines, recordsLines, List.flatMap_cons, printed_append]
      · rw [Bool.not_eq_true] at hyields
        rw [outLines_of_not_yields hyields, List.takeWhile_cons_of_neg (by simp [hyields])]
        simp [recordsLines]

-- With a size beyond the range of `int` the loop takes nothing.
theorem tblLoop_large (env : Env) (nodeInfo : NodeInfo) (entityName : Text)
    (records : List Record) (index : ℕ) {space : ℕ} (hlarge : 2 ^ 31 ≤ space)
    (hspace : space < 2 ^ 32) :
    (tblLoop env nodeInfo entityName records index space).2 = [] ∧
      due env nodeInfo (tblLoop env nodeInfo entityName records index space).1 =
        due env nodeInfo records := by
  induction records generalizing index with
  | nil => exact ⟨rfl, rfl⟩
  | cons record records ih =>
      have hout : outLines env nodeInfo entityName record space = [] := by
        rw [outLines, fitting_of_large hlarge, ite_self]
      rw [tblLoop, rec2Prometheus_eq env nodeInfo record entityName hspace, hout]
      by_cases hindex : DEFAULT_PERIOD_RECORD_NUM ≤ index
      · rw [if_pos hindex]
        exact ⟨rfl, rfl⟩
      rw [if_neg hindex]
      by_cases hexpired : expired env record = true
      · rw [if_pos hexpired, due_cons_of_expired hexpired]
        exact ih index
      · rw [if_neg hexpired]
        exact ⟨rfl, rfl⟩

end Loop

section Export

variable {env nodeInfo} {table : Table} {maxLen : ℕ}

theorem due_eq_append (env : Env) (nodeInfo : NodeInfo) (records : List Record) :
    due env nodeInfo records = (unexpired env records).takeWhile (yields env nodeInfo) ++
      ((unexpired env records).dropWhile (yields env nodeInfo)).filter (yields env nodeInfo) := by
  have hfront : ((unexpired env records).takeWhile (yields env nodeInfo)).filter
      (yields env nodeInfo) = (unexpired env records).takeWhile (yields env nodeInfo) := by
    apply List.filter_eq_self.mpr
    intro record hrecord
    exact List.mem_takeWhile_imp hrecord
  conv_lhs => rw [due, ← List.takeWhile_append_dropWhile (p := yields env nodeInfo)
    (l := unexpired env records), List.filter_append, hfront]

-- A part in front reaches the limit, or nothing follows it.
theorem take_eq_take_append_iff {α : Type*} (front rest : List α) (count : ℕ) :
    front.take count = (front ++ rest).take count ↔ count ≤ front.length ∨ rest = [] := by
  rw [List.take_append, List.self_eq_append_right, List.take_eq_nil_iff, Nat.sub_eq_zero_iff_le]

theorem tbl2Prometheus_text_of_loop {text : Text}
    (htext : (tblLoop env nodeInfo table.entityName table.records 0 maxLen).2 = text)
    (hroom : text.length + 1 < maxLen) :
    (tbl2Prometheus env nodeInfo table maxLen).2.1 = text ++ printed (tblBlank table) := by
  rw [tbl2Prometheus, tblBlank]
  by_cases hnil : table.records = []
  · rw [hnil, tblLoop] at htext
    simp [hnil, ← htext]
  · rw [if_neg (fun hzero => hnil (List.length_eq_zero_iff.mp hzero)), if_neg hnil]
    dsimp only
    rw [htext, if_pos (by omega)]
    rfl

theorem text_take_due (hroom : Roomy env nodeInfo table maxLen) (count : ℕ) :
    (printed (recordsLines env nodeInfo table.entityName
      ((due env nodeInfo table.records).take count))).length + 1 < maxLen := by
  have hsplit := congrArg (fun records =>
    (printed (recordsLines env nodeInfo table.entityName records)).length)
    (List.take_append_drop count (due env nodeInfo table.records))
  simp only [recordsLines, List.flatMap_append, printed_append, List.length_append] at hsplit
  have hall := hroom.2
  simp only [recordsLines] at hall ⊢
  omega

-- With a size beyond the range of `int` nothing may be owed.
theorem emits_iff_of_large (hroom : Roomy env nodeInfo table maxLen) (hlarge : 2 ^ 31 ≤ maxLen) :
    Emits env nodeInfo table maxLen ↔ due env nodeInfo table.records = [] := by
  obtain ⟨htext, hkept⟩ := tblLoop_large env nodeInfo table.entityName table.records 0
    hlarge hroom.1
  constructor
  · intro hemits
    have hlater := hemits.later
    rw [tbl2Prometheus_records, hkept] at hlater
    have hlen := congrArg List.length hlater
    rw [List.length_drop] at hlen
    apply List.eq_nil_of_length_eq_zero
    have hlimit : DEFAULT_PERIOD_RECORD_NUM = 100 := rfl
    omega
  · intro hnil
    refine ⟨?_, ?_⟩
    · have hone : ([] : Text).length + 1 < maxLen := by
        rw [List.length_nil]
        omega
      rw [tbl2Prometheus_text_of_loop htext hone, hnil]
      rfl
    · rw [tbl2Prometheus_records, hkept, hnil]
      rfl

-- The records taken are the ones owed.
theorem emits_iff_of_small (hroom : Roomy env nodeInfo table maxLen) (hsmall : maxLen < 2 ^ 31) :
    Emits env nodeInfo table maxLen ↔
      ((unexpired env table.records).takeWhile (yields env nodeInfo)).take
        DEFAULT_PERIOD_RECORD_NUM =
          (due env nodeInfo table.records).take DEFAULT_PERIOD_RECORD_NUM := by
  have hspace : (printed (recordsLines env nodeInfo table.entityName
      (due env nodeInfo table.records))).length < maxLen := by
    have hall := hroom.2
    omega
  obtain ⟨htext, hkept⟩ := tblLoop_emits 0 hspace hsmall
  have hprefix : ((unexpired env table.records).takeWhile (yields env nodeInfo)).take
      DEFAULT_PERIOD_RECORD_NUM <+: due env nodeInfo table.records := by
    rw [due_eq_append]
    exact (List.take_prefix _ _).trans (List.prefix_append _ _)
  constructor
  · intro hemits
    have hlater := hemits.later
    rw [tbl2Prometheus_records, hkept, List.drop_eq_drop_iff, ← List.take_eq_take_iff] at hlater
    exact (List.prefix_iff_eq_take.mp hprefix).trans hlater
  · intro htake
    rw [Nat.sub_zero, htake] at htext hkept
    refine ⟨?_, ?_⟩
    · rw [tbl2Prometheus_text_of_loop htext (text_take_due hroom _), printed_append]
    · rw [tbl2Prometheus_records, hkept, List.drop_eq_drop_iff, List.length_take]
      omega

-- One export emits what it owes exactly when nothing blocks it.
theorem emits_iff_unblocked (hroom : Roomy env nodeInfo table maxLen) :
    Emits env nodeInfo table maxLen ↔ Unblocked env nodeInfo table maxLen := by
  by_cases hlarge : 2 ^ 31 ≤ maxLen
  · rw [emits_iff_of_large hroom hlarge, Unblocked]
    constructor
    · intro hnil
      exact .inl hnil
    · rintro (hnil | ⟨hsmall, -⟩)
      · exact hnil
      · omega
  · have hsmall : maxLen < 2 ^ 31 := by omega
    have happend := due_eq_append env nodeInfo table.records
    rw [emits_iff_of_small hroom hsmall, happend, take_eq_take_append_iff,
      List.filter_eq_nil_iff, Unblocked]
    constructor
    · intro hfirst
      refine .inr ⟨by omega, hfirst.imp_right fun hrest record hrecord => ?_⟩
      rw [Bool.eq_false_iff]
      exact hrest record hrecord
    · rintro (hnil | ⟨-, hfirst⟩)
      · rw [happend, List.append_eq_nil_iff, List.filter_eq_nil_iff] at hnil
        exact .inr hnil.2
      · refine hfirst.imp_right fun hrest record hrecord => ?_
        rw [hrest record hrecord]
        exact Bool.false_ne_true

end Export

-- In a run of additions and exports with room for what is due, every export emits what the
-- table owes exactly when none of them finds a record without a text in front of one it owes.
theorem everyExport_emits_iff (table : Table) (ops : List TableOp)
    (hroom : EveryExport Roomy table ops) :
    EveryExport Emits table ops ↔ EveryExport Unblocked table ops := by
  have hstep : ∀ earlier op later, ops = earlier ++ op :: later →
      (op.Exports Emits (earlier.foldl TableOp.exec table) ↔
        op.Exports Unblocked (earlier.foldl TableOp.exec table)) := by
    intro earlier op later hops
    have hexport := hroom earlier op later hops
    cases op with
    | add now record => exact Iff.rfl
    | toPrometheus env nodeInfo maxLen => exact emits_iff_unblocked hexport
  constructor
  · intro hemits earlier op later hops
    exact (hstep earlier op later hops).mp (hemits earlier op later hops)
  · intro hclear earlier op later hops
    exact (hstep earlier op later hops).mpr (hclear earlier op later hops)

-- The first record has nothing to report, the second one has.
def nullTable : Table :=
  { tableCreate "tcp_link".toList 4 with
    entityName := "tcp".toList
    records := [⟨[1], 5, [{ cutMetric "rx".toList with val := INVALID_METRIC_VALUE }]⟩,
      ⟨[2], 6, [cutMetric "rx".toList]⟩] }

def nullExport : TableOp := .toPrometheus cutEnv cutMgr.nodeInfo 4096

-- However often the table is exported, only the blank line comes out.
theorem nullTable_starves :
    EveryExport Roomy nullTable [nullExport] ∧ ¬ EveryExport Emits nullTable [nullExport] ∧
      due cutEnv cutMgr.nodeInfo nullTable.records ≠ [] ∧
      (tbl2Prometheus cutEnv cutMgr.nodeInfo nullTable 4096).2.1 = ['\n'] ∧
      ∀ calls, (List.replicate calls nullExport).foldl TableOp.exec nullTable = nullTable := by
  refine ⟨?_, ?_, by decide, by decide, ?_⟩
  · refine eachStep_cons.mpr ⟨⟨by decide, by decide⟩, eachStep_nil⟩
  · intro hemits
    have hlater := (eachStep_cons.mp hemits).1.later
    revert hlater
    decide
  · intro calls
    have hsame : nullExport.exec nullTable = nullTable := by decide
    induction calls with
    | zero => rfl
    | succ calls ih => rw [List.replicate_succ, List.foldl_cons, hsame, ih]

-- Once the record in front has expired, the other one goes out, and so does a new one.
theorem everyExport_emits_iff_nullTable :
    let later := { cutEnv with now := 66 }
    let ops := [.toPrometheus later cutMgr.nodeInfo 4096,
      .add 66 ⟨[3], 0, [cutMetric "tx".toList]⟩, .toPrometheus later cutMgr.nodeInfo 4096]
    EveryExport Roomy nullTable ops ∧ EveryExport Unblocked nullTable ops ∧
      EveryExport Emits nullTable ops := by
  intro later ops
  have hroom : EveryExport Roomy nullTable ops := by
    refine eachStep_cons.mpr ⟨⟨by decide, by decide⟩, ?_⟩
    refine eachStep_cons.mpr ⟨trivial, ?_⟩
    exact eachStep_cons.mpr ⟨⟨by decide, by decide⟩, eachStep_nil⟩
  have hclear : EveryExport Unblocked nullTable ops := by
    refine eachStep_cons.mpr ⟨.inr ⟨by decide, .inr (by decide)⟩, ?_⟩
    refine eachStep_cons.mpr ⟨trivial, ?_⟩
    exact eachStep_cons.mpr ⟨.inr ⟨by decide, .inr (by decide)⟩, eachStep_nil⟩
  exact ⟨hroom, hclear, (everyExport_emits_iff nullTable ops hroom).mpr hclear⟩

end Gopher.Imdb
