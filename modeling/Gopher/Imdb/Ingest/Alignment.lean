import Gopher.Imdb.Ingest.Theorems

namespace Gopher.Imdb

open Gopher.Lib

-- `|table|f0|f1|...|f(n-1)|` and a newline.
def dataLine (tblName : Text) (fields : List Text) : Text :=
  ['|'].intercalate ([] :: tblName :: (fields ++ [['\n']]))

-- What `IMDB_MetricCreate` and `IMDB_MetricSetValue` make of a field.
def fieldMetric (ingest : Ingest) (metricMeta : MetricMeta) (field : Text) : Option Metric := do
  let metric ← metricCreate ingest metricMeta
  metricSetValue ingest metric (valueOf field)

-- Field i under metric i, an empty one as "(null)", and nothing else.
def Aligned (ingest : Ingest) (schema : Schema) (fields : List Text) (record : Record) : Prop :=
  record.metrics.map some = List.zipWith (fieldMetric ingest) schema.metrics fields

variable {ingest : Ingest} {schema : Schema}

theorem fillFields_metrics {metrics : List MetricMeta} {fields : List Text} {keyIdx : UInt32}
    {record after : Record}
    (h : fillFields ingest schema metrics (fields.map valueOf) keyIdx record = some after) :
    after.metrics.map some =
      record.metrics.map some ++ List.zipWith (fieldMetric ingest) metrics fields := by
  induction metrics generalizing fields keyIdx record with
  | nil =>
      rw [fillFields_metrics_nil] at h
      rw [← Option.some.inj h, List.zipWith_nil_left, List.append_nil]
  | cons metricMeta metrics ih =>
      cases fields with
      | nil =>
          rw [List.map_nil, fillFields_values_nil] at h
          rw [← Option.some.inj h, List.zipWith_nil_right, List.append_nil]
      | cons field fields =>
          rw [List.map_cons, fillFields] at h
          obtain ⟨⟨filled, next⟩, hfill, hrest⟩ := Option.bind_eq_some_iff.mp h
          obtain ⟨metric, hmetric, hfilled⟩ := fillRecord_metrics hfill
          have hfield : fieldMetric ingest metricMeta field = some metric := hmetric
          rw [ih hrest, hfilled, List.zipWith_cons_cons, hfield]
          simp

theorem recordOf_metrics {fields : List Text} {record : Record}
    (h : recordOf ingest schema (fields.map valueOf) = some record) :
    record.metrics.map some = List.zipWith (fieldMetric ingest) schema.metrics fields := by
  obtain ⟨empty, hcreate, hfill⟩ := Option.bind_eq_some_iff.mp h
  rw [fillFields_metrics hfill]
  unfold recordCreateWithKey at hcreate
  split_ifs at hcreate
  cases hcreate
  rfl

theorem store_record {mgr : DataBaseMgr} {tableName name : Text} {values : List Text}
    {record : Record} (h : (store ingest mgr tableName values).record = some (name, record)) :
    name = tableName ∧ ∃ filled, recordOf ingest (ingest.schema tableName) values = some filled ∧
      record = recordUpdateTime filled ingest.now := by
  unfold store at h
  cases hfind : findTable mgr tableName with
  | none =>
      rw [hfind] at h
      cases h
  | some table =>
      cases hrecord : recordOf ingest (ingest.schema tableName) values with
      | none =>
          rw [hfind, hrecord] at h
          cases h
      | some filled =>
          rw [hfind, hrecord] at h
          dsimp only [addToTable] at h
          split_ifs at h
          cases h
          exact ⟨rfl, filled, rfl, rfl⟩

theorem recordUpdateTime_metrics (record : Record) (seconds : ℤ) :
    (recordUpdateTime record seconds).metrics = record.metrics := rfl

theorem splitOn_dataLine {tblName : Text} {fields : List Text} (hname : '|' ∉ tblName)
    (hfields : ∀ field ∈ fields, '|' ∉ field) :
    (dataLine tblName fields).splitOn '|' = [] :: tblName :: (fields ++ [['\n']]) := by
  apply List.splitOn_intercalate
  · intro token htoken
    simp only [List.mem_cons, List.mem_append, List.not_mem_nil, or_false] at htoken
    obtain rfl | rfl | hfield | rfl := htoken
    · exact List.not_mem_nil
    · exact hname
    · exact hfields token hfield
    · decide
  · exact List.cons_ne_nil _ _

-- The newline ends the fields, and empty fields at the front are skipped.
theorem ingressFields_newline (fields : List Text) :
    ingressFields (fields ++ [['\n']]) = ingressFields fields := by
  have htake : (fields ++ [['\n']]).takeWhile (· ≠ ['\n']) = fields.takeWhile (· ≠ ['\n']) := by
    induction fields with
    | nil => simp
    | cons field fields ih =>
        rw [List.cons_append, List.takeWhile_cons, List.takeWhile_cons, ih]
  rw [ingressFields, htake, ingressFields]

theorem ingressFields_eq_self_iff (fields : List Text) :
    ingressFields fields = fields ↔ fields.head? ≠ some [] ∧ ['\n'] ∉ fields := by
  constructor
  · intro hsame
    have hnewline : ['\n'] ∉ fields := by
      intro hmem
      rw [← hsame] at hmem
      have hne := List.mem_takeWhile_imp (p := (· ≠ ['\n']))
        ((List.dropWhile_suffix _).subset hmem)
      simp at hne
    refine ⟨fun hhead => ?_, hnewline⟩
    rw [← hsame] at hhead
    have hfirst := List.head?_dropWhile_not (fun field => decide (field = []))
      (fields.takeWhile (· ≠ ['\n']))
    rw [ingressFields] at hhead
    rw [hhead] at hfirst
    simp at hfirst
  · rintro ⟨hhead, hnewline⟩
    have htake : fields.takeWhile (· ≠ ['\n']) = fields := by
      rw [List.takeWhile_eq_self_iff]
      intro field hfield
      exact decide_eq_true fun hfieldNewline => hnewline (hfieldNewline ▸ hfield)
    rw [ingressFields, htake]
    cases fields with
    | nil => rfl
    | cons field fields =>
        have hempty : field ≠ [] := fun hfield => hhead (by rw [hfield, List.head?_cons])
        rw [List.dropWhile_cons_of_neg (by simp [hempty])]

theorem ingressFields_sublist (fields : List Text) : (ingressFields fields).Sublist fields :=
  (List.dropWhile_sublist _).trans (List.takeWhile_sublist _)

-- What ingress adds for a line is the record of its fields up to a newline, the empty
-- ones at the front left out.
theorem ingressAddRecord_dataLine {mgr : DataBaseMgr} {tblName name : Text} {fields : List Text}
    {record : Record} (hname : '|' ∉ tblName) (hfields : ∀ field ∈ fields, '|' ∉ field)
    (hadded : (ingressAddRecord ingest mgr (dataLine tblName fields)).record =
      some (name, record)) :
    record.metrics.map some = List.zipWith (fieldMetric ingest) (ingest.schema tblName).metrics
      (ingressFields fields) := by
  unfold ingressAddRecord at hadded
  cases hline : getTableNameAndContent (dataLine tblName fields) MAX_IMDB_TABLE_NAME_LEN with
  | none =>
      rw [hline] at hadded
      cases hadded
  | some line =>
      obtain ⟨readName, content⟩ := line
      obtain ⟨-, others, hcontent, hsplit⟩ := splitOn_of_getTableNameAndContent hline
      rw [splitOn_dataLine hname hfields, List.cons.injEq, List.cons.injEq] at hsplit
      obtain ⟨-, rfl, rfl⟩ := hsplit
      rw [hline] at hadded
      dsimp only at hadded
      rw [processMetricData_eq, hcontent, ingressValues_cons_nil, ingressValues,
        ingressFields_newline] at hadded
      obtain ⟨-, filled, hfilled, rfl⟩ := store_record hadded
      rw [recordUpdateTime_metrics]
      exact recordOf_metrics hfilled

-- The record that a line leaves has each field under its metric exactly when the first
-- field is not empty and none is a newline alone.
theorem ingress_aligned_iff (ingest : Ingest) (mgr : DataBaseMgr) (tblName : Text)
    (fields : List Text) (hname : '|' ∉ tblName) (hfields : ∀ field ∈ fields, '|' ∉ field)
    (hlength : fields.length = (ingest.schema tblName).metrics.length) (name : Text)
    (record : Record)
    (hadded : (ingressAddRecord ingest mgr (dataLine tblName fields)).record =
      some (name, record)) :
    Aligned ingest (ingest.schema tblName) fields record ↔
      fields.head? ≠ some [] ∧ ['\n'] ∉ fields := by
  rw [Aligned, ingressAddRecord_dataLine hname hfields hadded, ← ingressFields_eq_self_iff]
  constructor
  · intro hsame
    have hcount := congrArg List.length hsame
    rw [List.length_zipWith, List.length_zipWith] at hcount
    exact (ingressFields_sublist fields).eq_of_length_le (by omega)
  · intro hsame
    rw [hsame]

theorem ingress_aligned_iff_tcp : ∃ record,
    (ingressAddRecord tcpIngest tcpMgr
      (dataLine "tcp".toList ["10.0.0.1".toList, []])).record = some ("tcp".toList, record) ∧
    Aligned tcpIngest (tcpIngest.schema "tcp".toList) ["10.0.0.1".toList, []] record := by
  have hadded : (ingressAddRecord tcpIngest tcpMgr
      (dataLine "tcp".toList ["10.0.0.1".toList, []])).record.map Prod.fst =
        some "tcp".toList := by decide +kernel
  obtain ⟨⟨name, record⟩, hrecord, rfl⟩ := Option.map_eq_some_iff.mp hadded
  refine ⟨record, hrecord, ?_⟩
  exact (ingress_aligned_iff tcpIngest tcpMgr _ _ (by decide) (by decide) (by decide) _ _
    hrecord).mpr (by decide)

-- The key is empty, and the value of the second metric is stored as the key.
theorem tcp_first_empty_shifts : ¬∀ (ingest : Ingest) (mgr : DataBaseMgr) (tblName : Text)
    (fields : List Text), '|' ∉ tblName → (∀ field ∈ fields, '|' ∉ field) →
      fields.length = (ingest.schema tblName).metrics.length → ∀ name record,
        (ingressAddRecord ingest mgr (dataLine tblName fields)).record = some (name, record) →
          Aligned ingest (ingest.schema tblName) fields record := by
  intro h
  have hadded : (ingressAddRecord tcpIngest tcpMgr
      (dataLine "tcp".toList [[], "7".toList])).record.map
        (fun added => added.2.metrics.map Metric.val) = some ["7".toList] := by decide +kernel
  obtain ⟨⟨name, record⟩, hrecord, hvals⟩ := Option.map_eq_some_iff.mp hadded
  have haligned := h tcpIngest tcpMgr "tcp".toList [[], "7".toList] (by decide) (by decide)
    (by decide) name record hrecord
  have hcount := congrArg List.length haligned
  rw [List.length_map, ← List.length_map (f := Metric.val), hvals] at hcount
  revert hcount
  decide

end Gopher.Imdb
