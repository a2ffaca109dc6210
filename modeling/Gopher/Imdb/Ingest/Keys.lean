import Gopher.Imdb.Ingest.Alignment
import Gopher.Lib.Cells
import Gopher.Lib.Format
import Mathlib.Data.Option.Basic

namespace Gopher.Imdb

open Gopher.Lib

def isKey (metricMeta : MetricMeta) : Bool := decide (metricMeta.type = METRIC_TYPE_KEY)

-- What `IMDBMgrTableLoad` leaves: room for a value of each metric, and for the part of each
-- key in the key of a record.
structure Schema.Loaded (schema : Schema) : Prop where
  capacity : schema.metricsCapacity.toNat = schema.metrics.length
  keySize : schema.recordKeySize.toNat =
    MAX_IMDB_METRIC_VAL_LEN * (schema.metrics.filter isKey).length

-- A line comes in through `IMDB_DataBaseMgrCreateRec` or `IMDB_DataBaseMgrAddRecord`.
inductive Path where
  | createRec
  | addRecord

-- The fields behind the name of the table.
structure Line where
  path : Path
  fields : List Text

-- The tokens that become values.
def Line.tokens (line : Line) : List Text :=
  match line.path with
  | .createRec => ingressValues line.fields
  | .addRecord => addedValues line.fields

def Line.record (ingest : Ingest) (schema : Schema) (line : Line) : Option Record := do
  let record ← recordCreateWithKey schema.metricsCapacity schema.recordKeySize
  match line.path with
  | .createRec => parseContent ingest schema true line.fields record 0 0
  | .addRecord => analyseRecord ingest schema line.fields record 0 0

-- The bytes of a C string are not NUL.
def Line.Bytes (line : Line) : Prop :=
  ∀ field ∈ line.fields, ∀ char ∈ field, 0 < char.toNat ∧ char.toNat < 256

-- The values of the key fields, as long as a slot.
def keyTuple (metrics : List MetricMeta) (tokens : List Text) : List Text :=
  ((metrics.zip tokens).filter fun one => isKey one.1).map fun one =>
    truncated MAX_IMDB_METRIC_VAL_LEN one.2

-- What is documented of `snprintf` for a format without arguments. What it does for a
-- conversion that has no argument is undefined.
def DocumentedFormat (format : Text → Option Text) : Prop :=
  ∀ text out, printedFormat text = some out → format text = some out

-- Two records of a table hold their tokens, and have one key for one tuple of key fields.
structure KeepsTokens (ingest : Ingest) (schema : Schema) (first second : Line) : Prop where
  values : ∀ line ∈ [first, second], ∀ record ∈ line.record ingest schema,
    record.metrics.map Metric.val =
      (line.tokens.take schema.metrics.length).map (truncated MAX_IMDB_METRIC_VAL_LEN)
  keys : ∀ record ∈ first.record ingest schema, ∀ other ∈ second.record ingest schema,
    (record.key = other.key ↔
      keyTuple schema.metrics first.tokens = keyTuple schema.metrics second.tokens)

-- The tokens with a metric are printed as they stand, as far as there is room for them.
def AllVerbatim (schema : Schema) (line : Line) : Prop :=
  ∀ token ∈ line.tokens.take schema.metrics.length, Verbatim (MAX_IMDB_METRIC_VAL_LEN - 1) token

section Fill

variable {ingest : Ingest} {schema : Schema}

theorem Line.record_eq (line : Line) :
    line.record ingest schema = recordOf ingest schema line.tokens := by
  unfold Line.record Line.tokens recordOf
  cases line.path with
  | createRec => simp only [parseContent_eq]
  | addRecord => simp only [analyseRecord_eq, List.drop_zero]

theorem Line.token_ne_nil {line : Line} {token : Text} (htoken : token ∈ line.tokens) :
    token ≠ [] := by
  have hvalue : ∀ field, valueOf field ≠ [] := by
    intro field
    unfold valueOf
    split_ifs with hempty
    · decide
    · exact hempty
  unfold Line.tokens at htoken
  cases hpath : line.path <;> rw [hpath] at htoken
  · obtain ⟨field, -, rfl⟩ := List.mem_map.mp htoken
    exact hvalue field
  · obtain ⟨field, -, rfl⟩ := List.mem_map.mp htoken
    exact hvalue field

theorem Line.token_bytes {line : Line} (hline : line.Bytes) {token : Text}
    (htoken : token ∈ line.tokens) : ∀ char ∈ token, 0 < char.toNat ∧ char.toNat < 256 := by
  have hvalue : ∀ field ∈ line.fields, ∀ char ∈ valueOf field,
      0 < char.toNat ∧ char.toNat < 256 := by
    intro field hfield
    unfold valueOf
    split_ifs
    · decide
    · exact hline field hfield
  unfold Line.tokens at htoken
  cases hpath : line.path <;> rw [hpath] at htoken
  · obtain ⟨field, hfield, rfl⟩ := List.mem_map.mp htoken
    exact hvalue field ((ingressFields_sublist _).subset hfield)
  · obtain ⟨field, hfield, rfl⟩ := List.mem_map.mp htoken
    exact hvalue field (List.mem_filter.mp hfield).1

theorem length_bytes (text : Text) : (bytes text).length = text.length := List.length_map _

theorem length_truncated_lt (text : Text) :
    (truncated MAX_IMDB_METRIC_VAL_LEN text).length < MAX_IMDB_METRIC_VAL_LEN := by
  have hlength := length_truncated_le MAX_IMDB_METRIC_VAL_LEN text
  have hsize : MAX_IMDB_METRIC_VAL_LEN = 128 := rfl
  omega

-- The offset of a part of the key is not reduced while the part lies inside the key.
theorem key_offset {keySize keyIdx : UInt32} {count : ℕ}
    (hkeySize : keySize.toNat = MAX_IMDB_METRIC_VAL_LEN * count) (hkeyIdx : keyIdx.toNat < count) :
    (keyIdx * UInt32.ofNat MAX_IMDB_METRIC_VAL_LEN).toNat =
        MAX_IMDB_METRIC_VAL_LEN * keyIdx.toNat ∧
      ¬ keyIdx * UInt32.ofNat MAX_IMDB_METRIC_VAL_LEN + UInt32.ofNat MAX_IMDB_METRIC_VAL_LEN >
        keySize := by
  have hsize : MAX_IMDB_METRIC_VAL_LEN = 128 := rfl
  have hbound := keySize.toNat_lt
  rw [hsize] at hkeySize
  have hoffset : (keyIdx * UInt32.ofNat MAX_IMDB_METRIC_VAL_LEN).toNat =
      MAX_IMDB_METRIC_VAL_LEN * keyIdx.toNat := by
    rw [UInt32.toNat_mul, hsize]
    simp
    omega
  refine ⟨hoffset, ?_⟩
  rw [gt_iff_lt, UInt32.lt_iff_toNat_lt, UInt32.toNat_add, hoffset, hsize]
  simp
  omega

-- A part that is stored fills the next cell of the key.
theorem recordAppendKey_key {keySize : UInt32} {count : ℕ} {value text : Text}
    {done : List Text} {record keyed : Record} {keyIdx : UInt32}
    (hkeySize : keySize.toNat = MAX_IMDB_METRIC_VAL_LEN * count)
    (hdone : ∀ text ∈ done, text.length < MAX_IMDB_METRIC_VAL_LEN)
    (hkeyIdx : keyIdx.toNat = done.length) (hcount : done.length < count)
    (hkey : record.key = cells 0 MAX_IMDB_METRIC_VAL_LEN count (done.map bytes))
    (hstored : storedValue ingest value = some text)
    (h : recordAppendKey ingest keySize record keyIdx value = some keyed) :
    keyed.key = cells 0 MAX_IMDB_METRIC_VAL_LEN count ((done ++ [text]).map bytes) := by
  obtain ⟨hoffset, hfits⟩ := key_offset hkeySize (hkeyIdx ▸ hcount)
  unfold recordAppendKey at h
  dsimp only at h
  rw [if_neg hfits] at h
  obtain ⟨printed, hprinted, heq⟩ := Option.bind_eq_some_iff.mp h
  cases heq
  rw [storedValue, hprinted, Option.map_some, Option.some.injEq] at hstored
  have hlength : text.length < MAX_IMDB_METRIC_VAL_LEN := by
    rw [← hstored]
    exact length_truncated_lt printed
  have hentries : ∀ entry ∈ done.map bytes, entry.length ≤ MAX_IMDB_METRIC_VAL_LEN := by
    intro entry hentry
    obtain ⟨stored, hmem, rfl⟩ := List.mem_map.mp hentry
    rw [length_bytes]
    exact (hdone stored hmem).le
  have hcells := cells_append 0 hentries
    (show (bytes text).length < MAX_IMDB_METRIC_VAL_LEN by rwa [length_bytes])
    (show (done.map bytes).length < count by rwa [List.length_map])
  dsimp only
  rw [hkey, hoffset, hstored, hkeyIdx, List.map_append, List.map_singleton, ← hcells,
    List.length_map, List.length_append, List.length_singleton]

-- A key field that is stored fills the next cell of the key, any other leaves the key alone.
theorem fillRecord_key {count : ℕ} {metricMeta : MetricMeta} {value text : Text}
    {done : List Text} {record after : Record} {keyIdx next : UInt32}
    (hkeySize : schema.recordKeySize.toNat = MAX_IMDB_METRIC_VAL_LEN * count)
    (hdone : ∀ text ∈ done, text.length < MAX_IMDB_METRIC_VAL_LEN)
    (hkeyIdx : keyIdx.toNat = done.length) (hcount : isKey metricMeta = true → done.length < count)
    (hkey : record.key = cells 0 MAX_IMDB_METRIC_VAL_LEN count (done.map bytes))
    (hstored : storedValue ingest value = some text)
    (h : fillRecord ingest schema true metricMeta value record keyIdx = some (after, next)) :
    let stored := if isKey metricMeta = true then done ++ [text] else done
    after.key = cells 0 MAX_IMDB_METRIC_VAL_LEN count (stored.map bytes) ∧
      next.toNat = stored.length := by
  simp only [fillRecord, Option.bind_eq_bind, Option.bind_eq_some_iff] at h
  obtain ⟨created, -, metric, -, added, hadd, hfill⟩ := h
  have hadded : added.key = record.key := by
    unfold recordAddMetric at hadd
    split_ifs at hadd
    rw [← Option.some.inj hadd]
  rw [← hadded] at hkey
  rw [Bool.true_and] at hfill
  by_cases hisKey : isKey metricMeta = true
  · have htype : decide (metricMeta.type = METRIC_TYPE_KEY) = true := hisKey
    have hplace := hcount hisKey
    rw [htype, if_pos rfl] at hfill
    obtain ⟨keyed, happend, heq⟩ := Option.bind_eq_some_iff.mp hfill
    cases heq
    dsimp only
    rw [if_pos hisKey]
    refine ⟨recordAppendKey_key hkeySize hdone hkeyIdx hplace hkey hstored happend, ?_⟩
    rw [UInt32.toNat_add, hkeyIdx, List.length_append, List.length_singleton]
    have hbound := schema.recordKeySize.toNat_lt
    have hsize : MAX_IMDB_METRIC_VAL_LEN = 128 := rfl
    rw [hsize] at hkeySize
    exact Nat.mod_eq_of_lt (by simp; omega)
  · have htype : decide (metricMeta.type = METRIC_TYPE_KEY) = false := by
      simpa [isKey] using hisKey
    rw [htype, if_neg Bool.false_ne_true] at hfill
    cases hfill
    dsimp only
    rw [if_neg hisKey]
    exact ⟨hkey, hkeyIdx⟩

theorem keyTuple_cons (metricMeta : MetricMeta) (metrics : List MetricMeta) (token : Text)
    (tokens : List Text) : keyTuple (metricMeta :: metrics) (token :: tokens) =
      if isKey metricMeta = true then
        truncated MAX_IMDB_METRIC_VAL_LEN token :: keyTuple metrics tokens
      else keyTuple metrics tokens := by
  rw [keyTuple, List.zip_cons_cons, List.filter_cons]
  split_ifs
  · rfl
  · rfl

-- The key of a record holds the stored values of its key fields, one in each cell.
theorem fillFields_key {count : ℕ} {metrics : List MetricMeta} {tokens : List Text}
    (done : List Text) {record after : Record} {keyIdx : UInt32}
    (hkeySize : schema.recordKeySize.toNat = MAX_IMDB_METRIC_VAL_LEN * count)
    (hdone : ∀ text ∈ done, text.length < MAX_IMDB_METRIC_VAL_LEN)
    (hkeyIdx : keyIdx.toNat = done.length)
    (hcount : done.length + (metrics.filter isKey).length ≤ count)
    (hkey : record.key = cells 0 MAX_IMDB_METRIC_VAL_LEN count (done.map bytes))
    (hstored : ∀ token ∈ tokens.take metrics.length,
      storedValue ingest token = some (truncated MAX_IMDB_METRIC_VAL_LEN token))
    (h : fillFields ingest schema metrics tokens keyIdx record = some after) :
    after.key = cells 0 MAX_IMDB_METRIC_VAL_LEN count
      ((done ++ keyTuple metrics tokens).map bytes) := by
  induction metrics generalizing tokens done keyIdx record with
  | nil =>
      rw [fillFields_metrics_nil, Option.some.injEq] at h
      rw [← h, hkey, keyTuple, List.zip_nil_left, List.filter_nil, List.map_nil, List.append_nil]
  | cons metricMeta metrics ih =>
      cases tokens with
      | nil =>
          rw [fillFields_values_nil, Option.some.injEq] at h
          rw [← h, hkey, keyTuple, List.zip_nil_right, List.filter_nil, List.map_nil,
            List.append_nil]
      | cons token tokens =>
          rw [List.length_cons, List.take_succ_cons, List.forall_mem_cons] at hstored
          rw [fillFields] at h
          obtain ⟨⟨filled, next⟩, hfill, hrest⟩ := Option.bind_eq_some_iff.mp h
          by_cases hisKey : isKey metricMeta = true
          · rw [List.filter_cons_of_pos hisKey, List.length_cons] at hcount
            obtain ⟨hfilled, hnext⟩ := fillRecord_key hkeySize hdone hkeyIdx
              (fun _ => by omega) hkey hstored.1 hfill
            rw [if_pos hisKey] at hfilled hnext
            have hcells : ∀ text ∈ done ++ [truncated MAX_IMDB_METRIC_VAL_LEN token],
                text.length < MAX_IMDB_METRIC_VAL_LEN := by
              intro text htext
              obtain hold | hnew := List.mem_append.mp htext
              · exact hdone text hold
              · rw [List.mem_singleton.mp hnew]
                exact length_truncated_lt token
            have hroom : (done ++ [truncated MAX_IMDB_METRIC_VAL_LEN token]).length +
                (metrics.filter isKey).length ≤ count := by
              rw [List.length_append, List.length_singleton]
              omega
            rw [ih _ hcells hnext hroom hfilled hstored.2 hrest, keyTuple_cons, if_pos hisKey,
              List.append_assoc, List.singleton_append]
          · rw [List.filter_cons_of_neg hisKey] at hcount
            obtain ⟨hfilled, hnext⟩ := fillRecord_key hkeySize hdone hkeyIdx
              (fun hyes => absurd hyes hisKey) hkey hstored.1 hfill
            rw [if_neg hisKey] at hfilled hnext
            rw [ih done hdone hnext hcount hfilled hstored.2 hrest, keyTuple_cons, if_neg hisKey]

section Total

variable (htotal : ∀ text, ∃ out, ingest.format text = some out)
include htotal

-- With a format that always prints something, a field with a metric is always taken.
theorem fillRecord_isSome {count : ℕ} (metricMeta : MetricMeta) (token : Text) (record : Record)
    (keyIdx : UInt32) (hkeySize : schema.recordKeySize.toNat = MAX_IMDB_METRIC_VAL_LEN * count)
    (hcapacity : record.metrics.length < schema.metricsCapacity.toNat)
    (hcount : isKey metricMeta = true → keyIdx.toNat < count) :
    ∃ after next, fillRecord ingest schema true metricMeta token record keyIdx =
        some (after, next) ∧
      next.toNat = keyIdx.toNat + if isKey metricMeta = true then 1 else 0 := by
  obtain ⟨name, hname⟩ := htotal metricMeta.name
  obtain ⟨description, hdescription⟩ := htotal metricMeta.description
  obtain ⟨type, htype⟩ := htotal metricMeta.type
  obtain ⟨val, hval⟩ := htotal token
  simp only [fillRecord, metricCreate, metricSetValue, hname, hdescription, htype, hval,
    recordAddMetric, if_neg hcapacity.ne, Option.bind_eq_bind, Option.bind_some, Bool.true_and,
    Option.pure_def]
  by_cases hisKey : isKey metricMeta = true
  · obtain ⟨-, hfits⟩ := key_offset hkeySize (hcount hisKey)
    have hkey : decide (metricMeta.type = METRIC_TYPE_KEY) = true := hisKey
    simp only [hkey, if_pos hisKey, ite_true, recordAppendKey, if_neg hfits, hval,
      Option.bind_eq_bind, Option.bind_some, Option.pure_def]
    refine ⟨_, _, rfl, ?_⟩
    have hbound := schema.recordKeySize.toNat_lt
    have hplace := hcount hisKey
    have hsize : MAX_IMDB_METRIC_VAL_LEN = 128 := rfl
    rw [hsize] at hkeySize
    rw [UInt32.toNat_add]
    exact Nat.mod_eq_of_lt (by simp; omega)
  · have hkey : decide (metricMeta.type = METRIC_TYPE_KEY) = false := by
      simpa [isKey] using hisKey
    simp only [hkey, if_neg hisKey, Bool.false_eq_true, ite_false]
    exact ⟨_, _, rfl, rfl⟩

theorem fillFields_isSome {count : ℕ} {metrics : List MetricMeta} (tokens : List Text)
    (record : Record) (keyIdx : UInt32)
    (hkeySize : schema.recordKeySize.toNat = MAX_IMDB_METRIC_VAL_LEN * count)
    (hcapacity : record.metrics.length + metrics.length ≤ schema.metricsCapacity.toNat)
    (hcount : keyIdx.toNat + (metrics.filter isKey).length ≤ count) :
    ∃ after, fillFields ingest schema metrics tokens keyIdx record = some after := by
  induction metrics generalizing tokens keyIdx record with
  | nil => exact ⟨record, fillFields_metrics_nil tokens keyIdx record⟩
  | cons metricMeta metrics ih =>
      cases tokens with
      | nil => exact ⟨record, fillFields_values_nil _ keyIdx record⟩
      | cons token tokens =>
          rw [List.length_cons] at hcapacity
          have hplace : isKey metricMeta = true → keyIdx.toNat < count := by
            intro hisKey
            rw [List.filter_cons_of_pos hisKey, List.length_cons] at hcount
            omega
          obtain ⟨filled, next, hfill, hnext⟩ :=
            fillRecord_isSome htotal metricMeta token record keyIdx hkeySize (by omega) hplace
          obtain ⟨metric, -, hmetrics⟩ := fillRecord_metrics hfill
          have hrest : next.toNat + (metrics.filter isKey).length ≤ count := by
            rw [List.filter_cons] at hcount
            split_ifs at hcount hnext with hisKey
            · rw [List.length_cons] at hcount
              omega
            · omega
          have hroom : filled.metrics.length + metrics.length ≤ schema.metricsCapacity.toNat := by
            rw [hmetrics, List.length_append, List.length_singleton]
            omega
          obtain ⟨after, hafter⟩ := ih tokens filled next hroom hrest
          refine ⟨after, ?_⟩
          rw [fillFields, hfill]
          exact hafter

theorem recordOf_isSome (hloaded : schema.Loaded) (hkey : schema.recordKeySize ≠ 0)
    (tokens : List Text) : ∃ record, recordOf ingest schema tokens = some record := by
  have hkeys : schema.recordKeySize.toNat ≠ 0 := fun hzero => hkey (UInt32.toNat_inj.mp hzero)
  have hcapacity : schema.metricsCapacity ≠ 0 := by
    intro hzero
    have hmetrics := hloaded.capacity
    rw [hzero] at hmetrics
    rw [hloaded.keySize, List.eq_nil_of_length_eq_zero hmetrics.symm] at hkeys
    exact hkeys rfl
  rw [recordOf, recordCreateWithKey, if_neg hkey, if_neg hcapacity]
  apply fillFields_isSome htotal tokens _ _ hloaded.keySize
  · rw [hloaded.capacity, List.length_nil, Nat.zero_add]
  · exact (Nat.zero_add _).le

end Total

-- What a record holds that was filled with values stored as they stand.
theorem Line.record_holds {line : Line} {record : Record} (hloaded : schema.Loaded)
    (hstored : ∀ token ∈ line.tokens.take schema.metrics.length,
      storedValue ingest token = some (truncated MAX_IMDB_METRIC_VAL_LEN token))
    (h : line.record ingest schema = some record) :
    record.key = cells 0 MAX_IMDB_METRIC_VAL_LEN (schema.metrics.filter isKey).length
      ((keyTuple schema.metrics line.tokens).map bytes) := by
  rw [Line.record_eq] at h
  obtain ⟨empty, hcreate, hfill⟩ := Option.bind_eq_some_iff.mp h
  have hempty : empty.key =
      cells 0 MAX_IMDB_METRIC_VAL_LEN (schema.metrics.filter isKey).length [] := by
    unfold recordCreateWithKey at hcreate
    split_ifs at hcreate
    cases hcreate
    rw [cells_nil, hloaded.keySize]
  apply fillFields_key [] hloaded.keySize _ rfl _ hempty hstored hfill
  · intro text htext
    cases htext
  · rw [List.length_nil, Nat.zero_add]

theorem Line.record_values {line : Line} {record : Record}
    (h : line.record ingest schema = some record) :
    (record.metrics.map Metric.val).map some =
      (line.tokens.take schema.metrics.length).map (storedValue ingest) := by
  rw [Line.record_eq] at h
  rw [List.map_take, ← recordOf_values h, List.map_map]
  rfl

end Fill

theorem bytes_injective {text other : Text} (htext : ∀ char ∈ text, char.toNat < 256)
    (hother : ∀ char ∈ other, char.toNat < 256) (h : bytes text = bytes other) : text = other := by
  induction text generalizing other with
  | nil =>
      cases other with
      | nil => rfl
      | cons char other => cases h
  | cons first text ih =>
      cases other with
      | nil => cases h
      | cons second other =>
          rw [bytes, bytes, List.map_cons, List.map_cons, List.cons.injEq] at h
          rw [List.forall_mem_cons] at htext hother
          have hbyte := congrArg UInt8.toNat h.1
          rw [UInt8.toNat_ofNat_of_lt' htext.1, UInt8.toNat_ofNat_of_lt' hother.1] at hbyte
          rw [Char.toNat_inj.mp hbyte, ih htext.2 hother.2 h.2]

theorem map_bytes_injective {texts others : List Text}
    (htexts : ∀ text ∈ texts, ∀ char ∈ text, char.toNat < 256)
    (hothers : ∀ text ∈ others, ∀ char ∈ text, char.toNat < 256)
    (h : texts.map bytes = others.map bytes) : texts = others := by
  induction texts generalizing others with
  | nil => exact (List.map_eq_nil_iff.mp h.symm).symm
  | cons text texts ih =>
      cases others with
      | nil => cases h
      | cons other others =>
          rw [List.map_cons, List.map_cons, List.cons.injEq] at h
          rw [List.forall_mem_cons] at htexts hothers
          rw [bytes_injective htexts.1 hothers.1 h.1, ih htexts.2 hothers.2 h.2]

section Keeps

variable {ingest : Ingest} {schema : Schema} {line : Line}

theorem mem_keyTuple {metrics : List MetricMeta} {tokens : List Text} {text : Text}
    (h : text ∈ keyTuple metrics tokens) :
    ∃ token ∈ tokens, text = truncated MAX_IMDB_METRIC_VAL_LEN token := by
  obtain ⟨one, hone, rfl⟩ := List.mem_map.mp h
  exact ⟨one.2, (List.of_mem_zip (List.mem_filter.mp hone).1).2, rfl⟩

theorem keyTuple_bytes (hline : line.Bytes) {text : Text}
    (h : text ∈ keyTuple schema.metrics line.tokens) :
    ∀ char ∈ text, 0 < char.toNat ∧ char.toNat < 256 := by
  obtain ⟨token, htoken, rfl⟩ := mem_keyTuple h
  intro char hchar
  exact Line.token_bytes hline htoken char (List.mem_of_mem_take hchar)

theorem isEntry_of_mem_keyTuple (hline : line.Bytes) {entry : List UInt8}
    (h : entry ∈ (keyTuple schema.metrics line.tokens).map bytes) :
    IsEntry 0 MAX_IMDB_METRIC_VAL_LEN entry := by
  obtain ⟨text, htext, rfl⟩ := List.mem_map.mp h
  have hchars := keyTuple_bytes hline htext
  obtain ⟨token, htoken, rfl⟩ := mem_keyTuple htext
  constructor
  · intro hnil
    have hempty : truncated MAX_IMDB_METRIC_VAL_LEN token = [] := List.map_eq_nil_iff.mp hnil
    obtain hzero | htokenNil := List.take_eq_nil_iff.mp hempty
    · cases hzero
    · exact Line.token_ne_nil htoken htokenNil
  · rw [length_bytes]
    exact (length_truncated_lt token).le
  · intro hzero
    obtain ⟨char, hchar, hbyte⟩ := List.mem_map.mp hzero
    have hnat := congrArg UInt8.toNat hbyte
    rw [UInt8.toNat_ofNat_of_lt' (hchars char hchar).2] at hnat
    have hpos := (hchars char hchar).1
    rw [hnat] at hpos
    cases hpos

theorem storedValue_of_verbatim (hformat : DocumentedFormat ingest.format) {token : Text}
    (h : Verbatim (MAX_IMDB_METRIC_VAL_LEN - 1) token) :
    storedValue ingest token = some (truncated MAX_IMDB_METRIC_VAL_LEN token) := by
  obtain ⟨out, hprinted, htake⟩ := h.exists_printed
  rw [storedValue, hformat token out hprinted, Option.map_some, truncated, htake, truncated]

theorem keepsTokens_of_verbatim {first second : Line} (hformat : DocumentedFormat ingest.format)
    (hloaded : schema.Loaded) (hfirstBytes : first.Bytes) (hsecondBytes : second.Bytes)
    (hfirst : AllVerbatim schema first) (hsecond : AllVerbatim schema second) :
    KeepsTokens ingest schema first second := by
  have hstored : ∀ line, AllVerbatim schema line →
      ∀ token ∈ line.tokens.take schema.metrics.length,
        storedValue ingest token = some (truncated MAX_IMDB_METRIC_VAL_LEN token) :=
    fun line hline token htoken => storedValue_of_verbatim hformat (hline token htoken)
  constructor
  · intro line hline record hrecord
    have hverbatim : AllVerbatim schema line := by
      rw [List.mem_pair] at hline
      obtain rfl | rfl := hline
      · exact hfirst
      · exact hsecond
    have hvalues := Line.record_values hrecord
    rw [List.map_congr_left (hstored line hverbatim)] at hvalues
    apply List.map_injective_iff.mpr (Option.some_injective _)
    rw [hvalues, List.map_map]
    rfl
  · intro record hrecord other hother
    rw [Line.record_holds hloaded (hstored first hfirst) hrecord,
      Line.record_holds hloaded (hstored second hsecond) hother]
    constructor
    · intro hkeys
      have hentries := cells_injective (fun entry => isEntry_of_mem_keyTuple hfirstBytes)
        (fun entry => isEntry_of_mem_keyTuple hsecondBytes) hkeys
      exact map_bytes_injective
        (fun text htext char hchar => (keyTuple_bytes hfirstBytes htext char hchar).2)
        (fun text htext char hchar => (keyTuple_bytes hsecondBytes htext char hchar).2) hentries
    · intro htuples
      rw [htuples]

-- One documented `snprintf`: nothing is printed for what is not defined.
def silentFormat (text : Text) : Option Text := some ((printedFormat text).getD [])

theorem documented_silentFormat : DocumentedFormat silentFormat := by
  intro text out hprinted
  rw [silentFormat, hprinted, Option.getD_some]

theorem allVerbatim_of_keeps (hloaded : schema.Loaded) (hkey : schema.recordKeySize ≠ 0)
    (hvalues : ∀ record ∈ line.record { ingest with format := silentFormat } schema,
      record.metrics.map Metric.val =
        (line.tokens.take schema.metrics.length).map (truncated MAX_IMDB_METRIC_VAL_LEN)) :
    AllVerbatim schema line := by
  have htotal : ∀ text, ∃ out, { ingest with format := silentFormat }.format text = some out :=
    fun text => ⟨_, rfl⟩
  obtain ⟨record, hrecord⟩ := recordOf_isSome htotal hloaded hkey line.tokens
  rw [← Line.record_eq] at hrecord
  have hstored := Line.record_values hrecord
  rw [hvalues record hrecord, List.map_map, List.map_inj_left] at hstored
  intro token htoken
  have htrunc := hstored token htoken
  rw [storedValue, Function.comp_apply] at htrunc
  exact (take_getD_eq_iff_verbatim (by decide)
    (Line.token_ne_nil (List.mem_of_mem_take htoken))).mp (Option.some.inj htrunc).symm

end Keeps

-- Whatever `snprintf` does where its result is not defined, two records hold their tokens and
-- are told apart by their keys exactly when each token that is stored is printed as it stands.
theorem keepsTokens_iff (ingest : Ingest) (schema : Schema) (hloaded : schema.Loaded)
    (hkey : schema.recordKeySize ≠ 0) (first second : Line) (hfirst : first.Bytes)
    (hsecond : second.Bytes) :
    (∀ format, DocumentedFormat format →
        KeepsTokens { ingest with format := format } schema first second) ↔
      AllVerbatim schema first ∧ AllVerbatim schema second := by
  constructor
  · intro hkeeps
    have hsilent := hkeeps silentFormat documented_silentFormat
    exact ⟨allVerbatim_of_keeps hloaded hkey (hsilent.values first (by simp)),
      allVerbatim_of_keeps hloaded hkey (hsilent.values second (by simp))⟩
  · rintro ⟨hfirstVerbatim, hsecondVerbatim⟩ format hformat
    exact keepsTokens_of_verbatim hformat hloaded hfirst hsecond hfirstVerbatim hsecondVerbatim

def tcpSchema : Schema := tcpIngest.schema []

theorem tcpSchema_loaded : tcpSchema.Loaded := ⟨by decide, by decide⟩

-- 125 letters and a pair fill a slot, so the letter behind them does not belong to the value.
def pairedKey (last : Char) : Text := List.replicate 125 'a' ++ ['%', '%', last]

def pairedLine (last : Char) : Line := ⟨.createRec, [pairedKey last, "7".toList]⟩

-- The pair of a value is stored as one character, and two keys with equal values as long as
-- a slot differ, since their pairs take one place only.
theorem percent_pair_lost :
    (Line.record { tcpIngest with format := silentFormat } tcpSchema
        ⟨.createRec, ["10.0.0.1".toList, "100%%".toList]⟩).map
      (fun record => record.metrics.map Metric.val) =
        some ["10.0.0.1".toList, "100%".toList] ∧
    keyTuple tcpSchema.metrics (pairedLine 'b').tokens =
      keyTuple tcpSchema.metrics (pairedLine 'c').tokens ∧
    ((pairedLine 'b').record { tcpIngest with format := silentFormat } tcpSchema).map
        Record.key ≠
      ((pairedLine 'c').record { tcpIngest with format := silentFormat } tcpSchema).map
        Record.key ∧
    ¬∀ (ingest : Ingest) (schema : Schema), DocumentedFormat ingest.format → schema.Loaded →
      schema.recordKeySize ≠ 0 → ∀ first second : Line, first.Bytes → second.Bytes →
        KeepsTokens ingest schema first second := by
  have hvals : (Line.record { tcpIngest with format := silentFormat } tcpSchema
      ⟨.createRec, ["10.0.0.1".toList, "100%%".toList]⟩).map
        (fun record => record.metrics.map Metric.val) =
          some ["10.0.0.1".toList, "100%".toList] := by decide +kernel
  refine ⟨hvals, by decide +kernel, by decide +kernel, fun h => ?_⟩
  obtain ⟨record, hrecord, hstored⟩ := Option.map_eq_some_iff.mp hvals
  have hkeeps := h { tcpIngest with format := silentFormat } tcpSchema documented_silentFormat
    tcpSchema_loaded (by decide) ⟨.createRec, ["10.0.0.1".toList, "100%%".toList]⟩
    ⟨.createRec, []⟩ (by unfold Line.Bytes; decide) (by unfold Line.Bytes; decide)
  have hvalues := hkeeps.values _ (by simp) record hrecord
  rw [hstored] at hvalues
  revert hvalues
  decide

theorem keepsTokens_iff_tcp :
    KeepsTokens { tcpIngest with format := silentFormat } tcpSchema
      ⟨.createRec, ["10.0.0.1".toList, "7".toList]⟩ ⟨.addRecord, ["10.0.0.2".toList, []]⟩ := by
  have hverbatim : AllVerbatim tcpSchema ⟨.createRec, ["10.0.0.1".toList, "7".toList]⟩ ∧
      AllVerbatim tcpSchema ⟨.addRecord, ["10.0.0.2".toList, []]⟩ := by
    unfold AllVerbatim
    decide
  have hkeeps := (keepsTokens_iff tcpIngest tcpSchema tcpSchema_loaded (by decide) _ _
    (by unfold Line.Bytes; decide) (by unfold Line.Bytes; decide)).mpr hverbatim
  exact hkeeps silentFormat documented_silentFormat

end Gopher.Imdb
