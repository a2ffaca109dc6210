import Gopher.Imdb.Ingest
import Gopher.Imdb.Theorems
import Mathlib.Data.List.TakeWhile

namespace Gopher.Imdb

open Gopher.Lib

section Shift

variable {β : Type*}

variable {first : β} {front body extra : List β} {count : ℕ}

-- Element by element: each one is equal to an earlier one, or to one of the front.
theorem getElem?_of_take_append (hfront : ∀ x ∈ front, x = first) (hne : front ≠ [])
    (hcount : count ≤ body.length) (h : (front ++ body ++ extra).take count = body.take count)
    {i : ℕ} (hi : i < count) : body[i]? = some first := by
  have hpos := List.length_pos_iff.mpr hne
  induction i using Nat.strongRecOn with
  | ind i ih =>
      have hsame := congrArg (·[i]?) h
      simp only [List.getElem?_take_of_lt hi, List.append_assoc] at hsame
      rw [← hsame]
      by_cases hlt : i < front.length
      · rw [List.getElem?_append_left hlt, List.getElem?_eq_getElem hlt]
        exact congrArg some (hfront _ (List.getElem_mem hlt))
      · rw [List.getElem?_append_right (by omega), List.getElem?_append_left (by omega)]
        exact ih _ (by omega) (by omega)

theorem take_append_of_forall_eq (hfront : ∀ x ∈ front, x = first) (hcount : count ≤ body.length)
    (hall : ∀ x ∈ body.take count, x = first) :
    (front ++ body ++ extra).take count = body.take count := by
  have hbody : body.take count = List.replicate count first :=
    List.eq_replicate_iff.mpr ⟨List.length_take_of_le hcount, hall⟩
  rw [hbody, List.eq_replicate_iff]
  constructor
  · rw [List.length_take, List.length_append, List.length_append]
    omega
  · intro x hx
    rw [List.append_assoc, List.take_append] at hx
    rcases List.mem_append.mp hx with hx | hx
    · exact hfront x (List.mem_of_mem_take hx)
    · rw [List.take_append_of_le_length (by omega)] at hx
      exact hall x ((List.take_sublist_take_left (by omega)).mem hx)

-- A list moved by equal elements in front agrees with itself on a prefix of those
-- elements only.
theorem take_append_eq_iff (hfront : ∀ x ∈ front, x = first) :
    (front ++ body ++ extra).take count = body.take count ↔
      (front = [] ∧ extra = []) ∨
        (count ≤ body.length ∧ (front = [] ∨ ∀ x ∈ body.take count, x = first)) := by
  constructor
  · intro h
    by_cases hcount : count ≤ body.length
    · refine .inr ⟨hcount, ?_⟩
      by_cases hnil : front = []
      · exact .inl hnil
      · right
        intro x hx
        obtain ⟨i, hi, hxi⟩ := List.getElem_of_mem hx
        rw [List.length_take] at hi
        have hbody := getElem?_of_take_append hfront hnil hcount h (i := i) (by omega)
        rw [List.getElem_take] at hxi
        rw [List.getElem?_eq_getElem (by omega), hxi] at hbody
        exact Option.some.inj hbody
    · have hlength := congrArg List.length h
      simp only [List.length_take, List.length_append] at hlength
      left
      constructor
      · apply List.eq_nil_of_length_eq_zero
        omega
      · apply List.eq_nil_of_length_eq_zero
        omega
  · rintro (⟨rfl, rfl⟩ | ⟨hcount, rfl | hall⟩)
    · rw [List.nil_append, List.append_nil]
    · rw [List.nil_append, List.take_append_of_le_length hcount]
    · exact take_append_of_forall_eq hfront hcount hall

end Shift

variable (ingest : Ingest)

-- What a field leaves in a metric and in the key.
def storedValue (value : Text) : Option Text :=
  (ingest.format value).map (truncated MAX_IMDB_METRIC_VAL_LEN)

-- The record of a line, from the values of its fields.
def fillFields (schema : Schema) : List MetricMeta → List Text → (keyIdx : UInt32) → Record →
    Option Record
  | metricMeta :: metrics, value :: values, keyIdx, record => do
      let (record, keyIdx) ← fillRecord ingest schema true metricMeta value record keyIdx
      fillFields schema metrics values keyIdx record
  | _, _, _, record => some record

def recordOf (schema : Schema) (values : List Text) : Option Record := do
  let record ← recordCreateWithKey schema.metricsCapacity schema.recordKeySize
  fillFields ingest schema schema.metrics values 0 record

-- The values that each of the two finds in the fields of a line.
def addedValues (fields : List Text) : List Text := (fields.filter (· ≠ ['\n'])).map valueOf

def ingressFields (fields : List Text) : List Text :=
  (fields.takeWhile (· ≠ ['\n'])).dropWhile (· = [])

def ingressValues (fields : List Text) : List Text := (ingressFields fields).map valueOf

variable {ingest} {schema : Schema}

theorem metricSetValue_eq (metric : Metric) (value : Text) :
    metricSetValue ingest metric value =
      (storedValue ingest value).map fun val => { metric with val := val } := by
  cases hformat : ingest.format value <;> simp [metricSetValue, storedValue, hformat]

theorem recordAppendKey_congr {value other : Text}
    (h : storedValue ingest value = storedValue ingest other) (keySize : UInt32) (record : Record)
    (keyIdx : UInt32) : recordAppendKey ingest keySize record keyIdx value =
      recordAppendKey ingest keySize record keyIdx other := by
  unfold recordAppendKey
  dsimp only
  split_ifs
  · rfl
  · unfold storedValue at h
    cases hvalue : ingest.format value with
    | none =>
        rw [hvalue, Option.map_none] at h
        rw [Option.map_eq_none_iff.mp h.symm]
    | some val =>
        rw [hvalue, Option.map_some] at h
        obtain ⟨val', hother, heq⟩ := Option.map_eq_some_iff.mp h.symm
        simp only [hother, Option.bind_eq_bind, Option.bind_some, heq]

theorem fillRecord_congr {value other : Text}
    (h : storedValue ingest value = storedValue ingest other) (needKey : Bool)
    (metricMeta : MetricMeta) (record : Record) (keyIdx : UInt32) :
    fillRecord ingest schema needKey metricMeta value record keyIdx =
      fillRecord ingest schema needKey metricMeta other record keyIdx := by
  simp only [fillRecord, metricSetValue_eq, h, recordAppendKey_congr h]

theorem fillFields_metrics_nil (values : List Text) (keyIdx : UInt32) (record : Record) :
    fillFields ingest schema [] values keyIdx record = some record := by
  cases values <;> rfl

theorem fillFields_values_nil (metrics : List MetricMeta) (keyIdx : UInt32) (record : Record) :
    fillFields ingest schema metrics [] keyIdx record = some record := by
  cases metrics <;> rfl

theorem fillFields_congr {values others : List Text} (metrics : List MetricMeta)
    (h : (values.map (storedValue ingest)).take metrics.length =
      (others.map (storedValue ingest)).take metrics.length) (keyIdx : UInt32) (record : Record) :
    fillFields ingest schema metrics values keyIdx record =
      fillFields ingest schema metrics others keyIdx record := by
  induction metrics generalizing values others keyIdx record with
  | nil => rw [fillFields_metrics_nil, fillFields_metrics_nil]
  | cons metricMeta metrics ih =>
      cases values with
      | nil =>
          cases others with
          | nil => rfl
          | cons other others => simp at h
      | cons value values =>
          cases others with
          | nil => simp at h
          | cons other others =>
              rw [List.map_cons, List.map_cons, List.length_cons, List.take_succ_cons,
                List.take_succ_cons, List.cons.injEq] at h
              rw [fillFields, fillFields, fillRecord_congr h.1]
              simp only [ih h.2]

-- The values stored so far.
def Record.values (record : Record) : List (Option Text) :=
  record.metrics.map fun metric => some metric.val

theorem fillRecord_metrics {needKey : Bool} {metricMeta : MetricMeta} {value : Text}
    {record after : Record} {keyIdx next : UInt32}
    (h : fillRecord ingest schema needKey metricMeta value record keyIdx = some (after, next)) :
    ∃ metric, (metricCreate ingest metricMeta).bind (metricSetValue ingest · value) = some metric ∧
      after.metrics = record.metrics ++ [metric] := by
  simp only [fillRecord, Option.bind_eq_bind, Option.bind_eq_some_iff] at h
  obtain ⟨created, hcreate, metric, hset, added, hadd, hkey⟩ := h
  refine ⟨metric, by rw [hcreate, Option.bind_some, hset], ?_⟩
  have hadded : added.metrics = record.metrics ++ [metric] := by
    unfold recordAddMetric at hadd
    split_ifs at hadd
    rw [← Option.some.inj hadd]
  split_ifs at hkey
  · obtain ⟨keyed, happend, heq⟩ := Option.bind_eq_some_iff.mp hkey
    cases heq
    unfold recordAppendKey at happend
    dsimp only at happend
    split_ifs at happend
    obtain ⟨_, _, heq⟩ := Option.bind_eq_some_iff.mp happend
    cases heq
    exact hadded
  · cases hkey
    exact hadded

theorem fillRecord_values {needKey : Bool} {metricMeta : MetricMeta} {value : Text}
    {record after : Record} {keyIdx next : UInt32}
    (h : fillRecord ingest schema needKey metricMeta value record keyIdx = some (after, next)) :
    after.values = record.values ++ [storedValue ingest value] := by
  obtain ⟨metric, hmetric, hafter⟩ := fillRecord_metrics h
  obtain ⟨created, -, hset⟩ := Option.bind_eq_some_iff.mp hmetric
  rw [metricSetValue_eq, Option.map_eq_some_iff] at hset
  obtain ⟨val, hval, rfl⟩ := hset
  rw [Record.values, hafter, hval]
  exact List.map_append

theorem fillFields_values {metrics : List MetricMeta} {values : List Text} {keyIdx : UInt32}
    {record after : Record}
    (h : fillFields ingest schema metrics values keyIdx record = some after) :
    after.values =
      record.values ++ (values.map (storedValue ingest)).take metrics.length := by
  induction metrics generalizing values keyIdx record with
  | nil =>
      rw [fillFields_metrics_nil] at h
      rw [← Option.some.inj h]
      simp
  | cons metricMeta metrics ih =>
      cases values with
      | nil =>
          rw [fillFields_values_nil] at h
          rw [← Option.some.inj h]
          simp
      | cons value values =>
          rw [fillFields] at h
          obtain ⟨⟨filled, next⟩, hfill, hrest⟩ := Option.bind_eq_some_iff.mp h
          rw [ih hrest, fillRecord_values hfill, List.append_assoc]
          rfl

-- Both loops fill the record from the values they find.
theorem analyseRecord_eq (fields : List Text) (record : Record) (keyIdx : UInt32) (index : ℕ) :
    analyseRecord ingest schema fields record keyIdx index =
      fillFields ingest schema (schema.metrics.drop index) (addedValues fields) keyIdx record := by
  induction fields generalizing record keyIdx index with
  | nil =>
      rw [analyseRecord, addedValues, List.filter_nil, List.map_nil,
        fillFields_values_nil]
  | cons field fields ih =>
      rw [analyseRecord]
      by_cases hnewline : field = ['\n']
      · have hfields : addedValues (field :: fields) = addedValues fields := by
          simp [addedValues, hnewline]
        rw [if_pos (by rw [hnewline]; decide), hfields]
        exact ih record keyIdx index
      · have hvalue : valueOf field ≠ ['\n'] := by
          unfold valueOf
          split_ifs
          · decide
          · exact hnewline
        have hfields : addedValues (field :: fields) = valueOf field :: addedValues fields := by
          simp [addedValues, hnewline]
        rw [if_neg hvalue, hfields]
        by_cases hindex : index < schema.metrics.length
        · rw [List.getElem?_eq_getElem hindex, List.drop_eq_getElem_cons hindex, fillFields]
          simp only [ih]
        · rw [List.getElem?_eq_none (by omega), List.drop_eq_nil_of_le (by omega),
            fillFields_metrics_nil]

theorem parseContent_succ (fields : List Text) (record : Record) (keyIdx : UInt32) (index : ℕ) :
    parseContent ingest schema true fields record keyIdx (index + 1) =
      fillFields ingest schema (schema.metrics.drop (index + 1))
        ((fields.takeWhile (· ≠ ['\n'])).map valueOf) keyIdx record := by
  induction fields generalizing record keyIdx index with
  | nil =>
      rw [parseContent, List.takeWhile_nil, List.map_nil, fillFields_values_nil]
  | cons field fields ih =>
      rw [parseContent]
      by_cases hnewline : field = ['\n']
      · rw [if_pos hnewline, List.takeWhile_cons_of_neg (by simp [hnewline]), List.map_nil,
          fillFields_values_nil]
      · rw [if_neg hnewline, if_neg (by omega), List.takeWhile_cons_of_pos (by simp [hnewline]),
          List.map_cons]
        by_cases hindex : index + 1 < schema.metrics.length
        · rw [List.getElem?_eq_getElem hindex, List.drop_eq_getElem_cons hindex, fillFields]
          simp only [ih]
        · rw [List.getElem?_eq_none (by omega), List.drop_eq_nil_of_le (by omega),
            fillFields_metrics_nil]

theorem parseContent_eq (fields : List Text) (record : Record) (keyIdx : UInt32) :
    parseContent ingest schema true fields record keyIdx 0 =
      fillFields ingest schema schema.metrics (ingressValues fields) keyIdx record := by
  induction fields with
  | nil =>
      rw [parseContent, ingressValues, ingressFields, List.takeWhile_nil, List.dropWhile_nil,
        List.map_nil, fillFields_values_nil]
  | cons field fields ih =>
      rw [parseContent]
      by_cases hnewline : field = ['\n']
      · have hvalues : ingressValues (field :: fields) = [] := by
          simp [ingressValues, ingressFields, hnewline]
        rw [if_pos hnewline, hvalues, fillFields_values_nil]
      · rw [if_neg hnewline]
        by_cases hempty : field = []
        · have hvalues : ingressValues (field :: fields) = ingressValues fields := by
            simp [ingressValues, ingressFields, hempty]
          rw [if_pos ⟨hempty, rfl⟩, hvalues]
          exact ih
        · have hvalues : ingressValues (field :: fields) =
              valueOf field :: (fields.takeWhile (· ≠ ['\n'])).map valueOf := by
            simp [ingressValues, ingressFields, hnewline, hempty]
          rw [if_neg (fun h => hempty h.1), hvalues]
          cases hmetrics : schema.metrics with
          | nil =>
              rw [List.getElem?_nil, fillFields_metrics_nil]
          | cons metricMeta metrics =>
              rw [List.getElem?_cons_zero, fillFields]
              simp only [parseContent_succ, hmetrics, List.drop_succ_cons, List.drop_zero]

-- The first metric is not empty, and nothing stands behind a newline; or the fields
-- that ingress uses fill all metrics, the first one not being empty or all being so.
def SameFields (ingest : Ingest) (metricsNum : ℕ) (fields : List Text) : Prop :=
  (fields.head? ≠ some [] ∧ ∀ field ∈ fields.dropWhile (· ≠ ['\n']), field = ['\n']) ∨
    (metricsNum ≤ (ingressFields fields).length ∧ (fields.head? ≠ some [] ∨
      ∀ value ∈ (ingressValues fields).take metricsNum,
        storedValue ingest value = storedValue ingest INVALID_METRIC_VALUE))

theorem addedValues_eq (fields : List Text) : addedValues fields =
    ((fields.takeWhile (· ≠ ['\n'])).takeWhile (· = [])).map valueOf ++ ingressValues fields ++
      ((fields.dropWhile (· ≠ ['\n'])).filter (· ≠ ['\n'])).map valueOf := by
  have hbefore : (fields.takeWhile (· ≠ ['\n'])).filter (· ≠ ['\n']) =
      fields.takeWhile (· ≠ ['\n']) := by
    rw [List.filter_eq_self]
    intro field hfield
    exact List.mem_takeWhile_imp (p := (· ≠ ['\n'])) hfield
  rw [ingressValues, ingressFields, ← List.map_append, List.takeWhile_append_dropWhile,
    ← List.map_append, addedValues]
  conv_lhs => rw [← List.takeWhile_append_dropWhile (p := (· ≠ ['\n'])) (l := fields)]
  rw [List.filter_append, hbefore]

theorem emptyFront_eq_nil_iff (fields : List Text) :
    (fields.takeWhile (· ≠ ['\n'])).takeWhile (· = []) = [] ↔ fields.head? ≠ some [] := by
  cases fields with
  | nil => simp
  | cons field fields =>
      by_cases hempty : field = []
      · simp [hempty]
      · by_cases hnewline : field = ['\n'] <;> simp [hempty, hnewline]

theorem sameFields_iff (metricsNum : ℕ) (fields : List Text) :
    ((addedValues fields).map (storedValue ingest)).take metricsNum =
        ((ingressValues fields).map (storedValue ingest)).take metricsNum ↔
      SameFields ingest metricsNum fields := by
  have hfront : ∀ value ∈ (((fields.takeWhile (· ≠ ['\n'])).takeWhile (· = [])).map valueOf).map
      (storedValue ingest), value = storedValue ingest INVALID_METRIC_VALUE := by
    intro value hvalue
    obtain ⟨text, htext, rfl⟩ := List.mem_map.mp hvalue
    obtain ⟨field, hfield, rfl⟩ := List.mem_map.mp htext
    have hempty : field = [] := by simpa using List.mem_takeWhile_imp hfield
    rw [hempty]
    rfl
  rw [addedValues_eq, List.map_append, List.map_append, take_append_eq_iff hfront, SameFields,
    List.map_eq_nil_iff, List.map_eq_nil_iff, emptyFront_eq_nil_iff, List.map_eq_nil_iff,
    List.map_eq_nil_iff, List.filter_eq_nil_iff, List.length_map, ← List.map_take,
    List.forall_mem_map]
  simp [ingressValues]

theorem analyseName_ne_newline {tokens rest : List Text} {tableName : Text}
    (h : analyseName tokens = some (tableName, rest)) : tableName ≠ ['\n'] := by
  induction tokens with
  | nil => cases h
  | cons token tokens ih =>
      rw [analyseName] at h
      split_ifs at h with hempty hnewline
      · exact ih h
      · exact ih h
      · cases h
        exact hnewline

theorem splitOn_bar (text : Text) : ('|' :: text).splitOn '|' = [] :: text.splitOn '|' :=
  List.splitOn_append_cons_self_of_not_mem (List.not_mem_nil : '|' ∉ []) text

-- The name that ingress reads is the first token of the line, and the same fields follow.
theorem splitOn_of_getTableNameAndContent {buf tblName content : Text} {size : ℕ}
    (h : getTableNameAndContent buf size = some (tblName, content)) :
    tblName ≠ [] ∧ ∃ fields, content.splitOn '|' = [] :: fields ∧
      buf.splitOn '|' = [] :: tblName :: fields := by
  cases buf with
  | nil => cases h
  | cons bar buf =>
      unfold getTableNameAndContent at h
      rw [List.head?_cons, List.tail_cons] at h
      split_ifs at h with hhead
      dsimp only at h
      split_ifs at h with hcontent hname hsize
      cases h
      rw [not_not, Option.some.injEq] at hhead
      subst hhead
      have hnot : '|' ∉ buf.takeWhile (· ≠ '|') := by
        intro hmem
        have hne := List.mem_takeWhile_imp (p := (· ≠ '|')) hmem
        simp at hne
      have hsplit := List.takeWhile_append_dropWhile (p := (· ≠ '|')) (l := buf)
      have hfirst := List.head?_dropWhile_not (· ≠ '|') buf
      cases hdrop : buf.dropWhile (· ≠ '|') with
      | nil => exact absurd hdrop hcontent
      | cons c rest =>
          rw [hdrop] at hfirst hsplit
          have hc : c = '|' := by simpa using hfirst
          subst hc
          refine ⟨hname, rest.splitOn '|', splitOn_bar rest, ?_⟩
          conv_lhs => rw [← hsplit]
          rw [splitOn_bar, List.splitOn_append_cons_self_of_not_mem hnot]

-- A line under a name: the record of its values goes into the table of that name.
def store (ingest : Ingest) (mgr : DataBaseMgr) (tableName : Text) (values : List Text) : Added :=
  match findTable mgr tableName, recordOf ingest (ingest.schema tableName) values with
  | some _, some record => addToTable ingest mgr tableName record
  | _, _ => rejected mgr

theorem dataBaseMgrAddRecord_eq (mgr : DataBaseMgr) (recordStr : Text) :
    dataBaseMgrAddRecord ingest mgr recordStr =
      (analyseName (recordStr.splitOn '|')).map fun line =>
        store ingest mgr line.1 (addedValues line.2) := by
  unfold dataBaseMgrAddRecord store recordOf
  cases analyseName (recordStr.splitOn '|') with
  | none => rfl
  | some line =>
      simp only [Option.bind_eq_bind, Option.bind_some, Option.map_some, analyseRecord_eq,
        List.drop_zero]
      cases findTable mgr line.1 with
      | none => rfl
      | some table =>
          by_cases hkey : (ingest.schema line.1).recordKeySize = 0
          · simp [hkey, recordCreateWithKey]
          · simp only [if_neg hkey]
            cases recordCreateWithKey (ingest.schema line.1).metricsCapacity
                (ingest.schema line.1).recordKeySize with
            | none => rfl
            | some record =>
                simp only [Option.bind_some]
                cases fillFields ingest (ingest.schema line.1) (ingest.schema line.1).metrics
                  (addedValues line.2) 0 record <;> rfl

theorem processMetricData_eq (mgr : DataBaseMgr) (content tblName : Text) :
    processMetricData ingest mgr content tblName =
      store ingest mgr tblName (ingressValues (content.splitOn '|')) := by
  unfold processMetricData store recordOf dataBaseMgrCreateRec
  cases findTable mgr tblName with
  | none => rfl
  | some table =>
      by_cases hkey : (ingest.schema tblName).recordKeySize = 0
      · simp [hkey, recordCreateWithKey]
      · simp only [if_neg hkey, parseContent_eq, Option.bind_eq_bind]
        cases recordCreateWithKey (ingest.schema tblName).metricsCapacity
            (ingest.schema tblName).recordKeySize with
        | none => rfl
        | some record =>
            simp only [Option.bind_some]
            cases fillFields ingest (ingest.schema tblName) (ingest.schema tblName).metrics
              (ingressValues (content.splitOn '|')) 0 record <;> rfl

-- The table has no place for the record, or there is no table or no record.
def Refused (ingest : Ingest) (mgr : DataBaseMgr) (tableName : Text) (values : List Text) : Prop :=
  ∀ table ∈ findTable mgr tableName, ∀ record ∈ recordOf ingest (ingest.schema tableName) values,
    table.records.length = table.recordsCapability.toNat ∧
      record.key ∉ table.records.map Record.key

theorem addRecordTo_of_find (now : ℤ) (record : Record) {tableName : Text} {tables : List Table}
    {table : Table} (hfind : tables.find? (fun table => table.name = tableName) = some table) :
    (addRecordTo now tableName record tables).2 = (tableAddRecord now table record).2 ∧
      ((tableAddRecord now table record).1 = table →
        (addRecordTo now tableName record tables).1 = tables) := by
  induction tables with
  | nil => cases hfind
  | cons head tables ih =>
      rw [addRecordTo]
      by_cases hname : head.name = tableName
      · rw [List.find?_cons_of_pos (by simp [hname])] at hfind
        cases hfind
        rw [if_pos hname]
        exact ⟨rfl, fun hsame => congrArg (· :: tables) hsame⟩
      · rw [List.find?_cons_of_neg (by simp [hname])] at hfind
        obtain ⟨hret, htables⟩ := ih hfind
        rw [if_neg hname]
        exact ⟨hret, fun hsame => congrArg (head :: ·) (htables hsame)⟩

-- A line that is refused leaves the database alone; every other one adds its record.
theorem store_cases {mgr : DataBaseMgr} (hwf : mgr.WellFormed) (tableName : Text)
    (values : List Text) :
    (Refused ingest mgr tableName values ∧ store ingest mgr tableName values = rejected mgr) ∨
      (¬ Refused ingest mgr tableName values ∧ ∃ record after,
        recordOf ingest (ingest.schema tableName) values = some record ∧
        store ingest mgr tableName values =
          ⟨after, some (tableName, recordUpdateTime record ingest.now)⟩) := by
  unfold Refused store
  cases hfind : findTable mgr tableName with
  | none =>
      refine .inl ⟨?_, rfl⟩
      rintro table ⟨⟩
  | some table =>
      cases hrecord : recordOf ingest (ingest.schema tableName) values with
      | none =>
          refine .inl ⟨?_, rfl⟩
          rintro table - record ⟨⟩
      | some record =>
          have hmem : table ∈ mgr.tables := List.mem_of_find?_eq_some hfind
          obtain ⟨hret, hsame⟩ := addRecordTo_of_find ingest.now record hfind
          obtain ⟨hroom, hadd⟩ | ⟨hfull, hkey, hadd⟩ :=
            tableAddRecord_cases (hwf.tables_wellFormed table hmem) ingest.now record
          · rw [hadd] at hret
            refine .inr ⟨fun hrefused => ?_, record, { mgr with
              tables := (addRecordTo ingest.now tableName record mgr.tables).1 }, rfl, ?_⟩
            · obtain ⟨hfull, hkey⟩ := hrefused table rfl record rfl
              rw [othersOf_of_not_mem hkey] at hroom
              omega
            · simp [addToTable, hret]
          · rw [hadd] at hret hsame
            refine .inl ⟨?_, ?_⟩
            · rintro _ ⟨⟩ _ ⟨⟩
              exact ⟨hfull, hkey⟩
            · simp [addToTable, hret, hsame rfl, rejected]

-- Both reject a line and leave the database alone, or both add the same record to the
-- table of the same name.
def Agree (ingest : Ingest) (mgr : DataBaseMgr) (line : Text) : Prop :=
  (dataBaseMgrAddRecord ingest mgr line = some (rejected mgr) ∧
      ingressAddRecord ingest mgr line = rejected mgr) ∨
    ∃ tableName record after,
      dataBaseMgrAddRecord ingest mgr line = some ⟨after, some (tableName, record)⟩ ∧
      ingressAddRecord ingest mgr line = ⟨after, some (tableName, record)⟩

-- A line in the form of ingress, with fields that both read alike.
def ReadAlike (ingest : Ingest) (line : Text) : Prop :=
  ∃ tblName content, getTableNameAndContent line MAX_IMDB_TABLE_NAME_LEN = some (tblName, content) ∧
    tblName ≠ ['\n'] ∧
    SameFields ingest (ingest.schema tblName).metrics.length (content.splitOn '|').tail

-- The line names a table for `IMDB_DataBaseMgrAddRecord`, and neither finds a place for
-- what it reads.
def BothRefused (ingest : Ingest) (mgr : DataBaseMgr) (line : Text) : Prop :=
  (∃ tableName fields, analyseName (line.splitOn '|') = some (tableName, fields) ∧
      Refused ingest mgr tableName (addedValues fields)) ∧
    ∀ tblName content,
      getTableNameAndContent line MAX_IMDB_TABLE_NAME_LEN = some (tblName, content) →
      Refused ingest mgr tblName (ingressValues (content.splitOn '|'))

theorem ingressValues_cons_nil (fields : List Text) :
    ingressValues ([] :: fields) = ingressValues fields := by
  simp [ingressValues, ingressFields]

theorem recordOf_values {values : List Text} {record : Record}
    (h : recordOf ingest schema values = some record) :
    record.values = (values.map (storedValue ingest)).take schema.metrics.length := by
  obtain ⟨empty, hcreate, hfill⟩ := Option.bind_eq_some_iff.mp h
  rw [fillFields_values hfill]
  unfold recordCreateWithKey at hcreate
  split_ifs at hcreate
  cases hcreate
  rfl

theorem recordUpdateTime_values (record : Record) (seconds : ℤ) :
    (recordUpdateTime record seconds).values = record.values := rfl

theorem agree_of_readAlike {mgr : DataBaseMgr} (hwf : mgr.WellFormed) {line : Text}
    (h : ReadAlike ingest line) : Agree ingest mgr line := by
  obtain ⟨tblName, content, hline, hnewline, hsame⟩ := h
  obtain ⟨hname, fields, hcontent, hsplit⟩ := splitOn_of_getTableNameAndContent hline
  rw [hcontent, List.tail_cons, ← sameFields_iff] at hsame
  have hrecord : recordOf ingest (ingest.schema tblName) (addedValues fields) =
      recordOf ingest (ingest.schema tblName) (ingressValues fields) := by
    simp only [recordOf, fillFields_congr _ hsame]
  have hstore : store ingest mgr tblName (addedValues fields) =
      store ingest mgr tblName (ingressValues fields) := by
    unfold store
    rw [hrecord]
  have hadd : dataBaseMgrAddRecord ingest mgr line =
      some (store ingest mgr tblName (ingressValues fields)) := by
    rw [dataBaseMgrAddRecord_eq, hsplit, analyseName, if_pos rfl, analyseName, if_neg hname,
      if_neg hnewline, Option.map_some, hstore]
  have hingress : ingressAddRecord ingest mgr line =
      store ingest mgr tblName (ingressValues fields) := by
    rw [ingressAddRecord, hline]
    dsimp only
    rw [processMetricData_eq, hcontent, ingressValues_cons_nil]
  rw [Agree, hadd, hingress]
  obtain ⟨-, hrejected⟩ | ⟨-, record, after, -, hadded⟩ :=
    store_cases hwf tblName (ingressValues fields)
  · exact .inl ⟨congrArg some hrejected, hrejected⟩
  · exact .inr ⟨_, _, _, congrArg some hadded, hadded⟩

theorem agree_of_bothRefused {mgr : DataBaseMgr} (hwf : mgr.WellFormed) {line : Text}
    (h : BothRefused ingest mgr line) : Agree ingest mgr line := by
  obtain ⟨⟨tableName, fields, hname, hrefused⟩, hingress⟩ := h
  left
  constructor
  · obtain ⟨-, hrejected⟩ | ⟨haccepted, -⟩ := store_cases hwf tableName (addedValues fields)
    · rw [dataBaseMgrAddRecord_eq, hname, Option.map_some, hrejected]
    · exact absurd hrefused haccepted
  · unfold ingressAddRecord
    cases hline : getTableNameAndContent line MAX_IMDB_TABLE_NAME_LEN with
    | none => rfl
    | some result =>
        have hrefused := hingress result.1 result.2 hline
        obtain ⟨-, hrejected⟩ | ⟨haccepted, -⟩ :=
          store_cases hwf result.1 (ingressValues (result.2.splitOn '|'))
        · dsimp only
          rw [processMetricData_eq, hrejected]
        · exact absurd hrefused haccepted

theorem readAlike_or_bothRefused {mgr : DataBaseMgr} (hwf : mgr.WellFormed) {line : Text}
    (h : Agree ingest mgr line) : ReadAlike ingest line ∨ BothRefused ingest mgr line := by
  rw [Agree, dataBaseMgrAddRecord_eq] at h
  obtain ⟨hadd, hingress⟩ | ⟨tableName, record, after, hadd, hingress⟩ := h
  · right
    obtain ⟨⟨tableName, fields⟩, hname, hstore⟩ := Option.map_eq_some_iff.mp hadd
    refine ⟨⟨tableName, fields, hname, ?_⟩, fun tblName content hline => ?_⟩
    · obtain ⟨hrefused, -⟩ | ⟨-, record, after, -, hadded⟩ :=
        store_cases hwf tableName (addedValues fields)
      · exact hrefused
      · rw [hadded] at hstore
        cases hstore
    · rw [ingressAddRecord, hline] at hingress
      dsimp only at hingress
      rw [processMetricData_eq] at hingress
      obtain ⟨hrefused, -⟩ | ⟨-, record, after, -, hadded⟩ :=
        store_cases hwf tblName (ingressValues (content.splitOn '|'))
      · exact hrefused
      · rw [hadded] at hingress
        cases hingress
  · left
    obtain ⟨⟨addName, fields⟩, hname, hstore⟩ := Option.map_eq_some_iff.mp hadd
    dsimp only at hstore
    cases hline : getTableNameAndContent line MAX_IMDB_TABLE_NAME_LEN with
    | none =>
        rw [ingressAddRecord, hline] at hingress
        cases hingress
    | some result =>
        obtain ⟨tblName, content⟩ := result
        rw [ingressAddRecord, hline] at hingress
        dsimp only at hingress
        obtain ⟨hempty, others, hcontent, hsplit⟩ := splitOn_of_getTableNameAndContent hline
        rw [processMetricData_eq, hcontent, ingressValues_cons_nil] at hingress
        obtain ⟨-, hrejected⟩ | ⟨-, first, firstAfter, hfirst, hadded⟩ :=
          store_cases hwf addName (addedValues fields)
        · rw [hrejected] at hstore
          cases hstore
        obtain ⟨-, hrejected⟩ | ⟨-, second, secondAfter, hsecond, hingressAdded⟩ :=
          store_cases hwf tblName (ingressValues others)
        · rw [hrejected] at hingress
          cases hingress
        rw [hadded, Added.mk.injEq, Option.some.injEq, Prod.mk.injEq] at hstore
        rw [hingressAdded, Added.mk.injEq, Option.some.injEq, Prod.mk.injEq] at hingress
        obtain ⟨-, rfl, hfirstRecord⟩ := hstore
        obtain ⟨-, rfl, hsecondRecord⟩ := hingress
        have hnewline := analyseName_ne_newline hname
        rw [hsplit, analyseName, if_pos rfl, analyseName, if_neg hempty, if_neg hnewline,
          Option.some.injEq, Prod.mk.injEq] at hname
        obtain ⟨-, rfl⟩ := hname
        refine ⟨_, content, hline, hnewline, ?_⟩
        rw [hcontent, List.tail_cons, ← sameFields_iff, ← recordOf_values hfirst,
          ← recordOf_values hsecond, ← recordUpdateTime_values first ingest.now,
          ← recordUpdateTime_values second ingest.now, hfirstRecord, hsecondRecord]

-- The two agree on a line exactly if they read its fields alike, or refuse it both.
theorem addRecord_agree_iff (ingest : Ingest) (capacity : UInt32) (nodeInfo : NodeInfo)
    (ops : List DataBaseOp) (mgr : DataBaseMgr)
    (hrun : Run DataBaseOp.Step (dataBaseMgrCreate capacity nodeInfo) ops mgr) (line : Text) :
    Agree ingest mgr line ↔ ReadAlike ingest line ∨ BothRefused ingest mgr line := by
  have hwf := DataBaseOp.run_wellFormed hrun
  constructor
  · exact readAlike_or_bothRefused hwf
  · rintro (halike | hrefused)
    · exact agree_of_readAlike hwf halike
    · exact agree_of_bothRefused hwf hrefused

-- A table with a key and a value; formats without conversions are printed as they are.
def tcpIngest : Ingest where
  now := 5
  format := fun text => if text.contains '%' then none else some text
  schema := fun _ => ⟨2, [⟨"ip".toList, [], METRIC_TYPE_KEY⟩, ⟨"rtt".toList, [], "gauge".toList⟩], 128⟩

def tcpMgr : DataBaseMgr := ⟨1, [tableCreate "tcp".toList 4], ⟨[], []⟩⟩

theorem tcpMgr_run : Run DataBaseOp.Step (dataBaseMgrCreate 1 ⟨[], []⟩)
    [.addTable "tcp".toList [] 4] tcpMgr :=
  .cons rfl (.nil _)

theorem addRecord_agree_iff_tcp : Agree tcpIngest tcpMgr "|tcp|10.0.0.1|7|\n".toList := by
  apply (addRecord_agree_iff tcpIngest 1 ⟨[], []⟩ [.addTable "tcp".toList [] 4] tcpMgr tcpMgr_run
    "|tcp|10.0.0.1|7|\n".toList).mpr
  left
  exact ⟨"tcp".toList, "|10.0.0.1|7|\n".toList, by decide, by decide, .inl (by decide)⟩

-- A first metric that is empty is skipped by ingress, and the others move forward.
theorem addRecord_disagree_first_empty :
    Run DataBaseOp.Step (dataBaseMgrCreate 1 ⟨[], []⟩) [.addTable "tcp".toList [] 4] tcpMgr ∧
      ((dataBaseMgrAddRecord tcpIngest tcpMgr "|tcp||7|9|\n".toList).bind Added.record).map
        (fun added => added.2.metrics.map Metric.val) = some [INVALID_METRIC_VALUE, "7".toList] ∧
      (ingressAddRecord tcpIngest tcpMgr "|tcp||7|9|\n".toList).record.map
        (fun added => added.2.metrics.map Metric.val) = some ["7".toList, "9".toList] ∧
      ¬ Agree tcpIngest tcpMgr "|tcp||7|9|\n".toList := by
  have hadd : ((dataBaseMgrAddRecord tcpIngest tcpMgr "|tcp||7|9|\n".toList).bind
      Added.record).map (fun added => added.2.metrics.map Metric.val) =
        some [INVALID_METRIC_VALUE, "7".toList] := by decide +kernel
  have hingress : (ingressAddRecord tcpIngest tcpMgr "|tcp||7|9|\n".toList).record.map
      (fun added => added.2.metrics.map Metric.val) = some ["7".toList, "9".toList] := by
    decide +kernel
  refine ⟨tcpMgr_run, hadd, hingress, ?_⟩
  rintro (⟨hrejected, -⟩ | ⟨tableName, record, after, hadded, hsame⟩)
  · rw [hrejected] at hadd
    cases hadd
  · rw [hadded] at hadd
    rw [hsame] at hingress
    have heq := hadd.symm.trans hingress
    revert heq
    decide

end Gopher.Imdb
