import Gopher.Imdb

namespace Gopher.Imdb

open Gopher.Lib

def MAX_IMDB_METRIC_TYPE_LEN : ℕ := 32
def MAX_IMDB_METRIC_NAME_LEN : ℕ := 32
def MAX_IMDB_METRIC_VAL_LEN : ℕ := 128
def MAX_IMDB_TABLE_NAME_LEN : ℕ := 32

structure MetricMeta where
  name : Text
  description : Text
  type : Text
  deriving DecidableEq, Repr

-- The `meta` of a table, with its `recordKeySize`.
structure Schema where
  metricsCapacity : UInt32
  metrics : List MetricMeta
  recordKeySize : UInt32
  deriving DecidableEq, Repr

-- The clock, what `snprintf` prints for a format without arguments (`none` where it
-- fails), and the meta of a table by its name.
structure Ingest where
  now : ℤ
  format : Text → Option Text
  schema : Text → Schema

variable (ingest : Ingest)

-- The description is printed, but no one reads it from a record.
def metricCreate (metricMeta : MetricMeta) : Option Metric := do
  let name ← ingest.format metricMeta.name
  let _ ← ingest.format metricMeta.description
  let type ← ingest.format metricMeta.type
  return ⟨truncated MAX_IMDB_METRIC_TYPE_LEN type, truncated MAX_IMDB_METRIC_NAME_LEN name, []⟩

def metricSetValue (metric : Metric) (val : Text) : Option Metric := do
  let val ← ingest.format val
  return { metric with val := truncated MAX_IMDB_METRIC_VAL_LEN val }

def recordCreateWithKey (capacity keySize : UInt32) : Option Record :=
  if keySize = 0 then none
  else if capacity = 0 then none
  else some ⟨List.replicate keySize.toNat 0, 0, []⟩

def recordAddMetric (capacity : UInt32) (record : Record) (metric : Metric) : Option Record :=
  if record.metrics.length = capacity.toNat then none
  else some { record with metrics := record.metrics ++ [metric] }

def bytes (text : Text) : List UInt8 := text.map fun char => UInt8.ofNat char.toNat

def recordAppendKey (keySize : UInt32) (record : Record) (keyIdx : UInt32) (val : Text) :
    Option Record := do
  let offset := keyIdx * UInt32.ofNat MAX_IMDB_METRIC_VAL_LEN
  if offset + UInt32.ofNat MAX_IMDB_METRIC_VAL_LEN > keySize then none
  else
    let val ← ingest.format val
    let cell := bytes (truncated MAX_IMDB_METRIC_VAL_LEN val) ++ [0]
    return { record with
      key := record.key.take offset.toNat ++ cell ++ record.key.drop (offset.toNat + cell.length) }

-- One field of a line becomes a metric, and a part of the key if it is one.
def fillRecord (schema : Schema) (needKey : Bool) (metricMeta : MetricMeta) (token : Text)
    (record : Record) (keyIdx : UInt32) : Option (Record × UInt32) := do
  let metric ← metricCreate ingest metricMeta
  let metric ← metricSetValue ingest metric token
  let record ← recordAddMetric schema.metricsCapacity record metric
  if needKey && decide (metricMeta.type = METRIC_TYPE_KEY) then
    let record ← recordAppendKey ingest schema.recordKeySize record keyIdx token
    return (record, keyIdx + 1)
  return (record, keyIdx)

-- An empty field has no value.
def valueOf (token : Text) : Text := if token = [] then INVALID_METRIC_VALUE else token

-- A field beyond the metrics of the table ends the loop.
def parseContent (schema : Schema) (needKey : Bool) :
    List Text → Record → (keyIdx : UInt32) → (index : ℕ) → Option Record
  | [], record, _, _ => some record
  | token :: tokens, record, keyIdx, index =>
      if token = ['\n'] then some record
      else if token = [] ∧ index = 0 then parseContent schema needKey tokens record keyIdx index
      else
        match schema.metrics[index]? with
        | none => some record
        | some metricMeta => do
            let (record, keyIdx) ←
              fillRecord ingest schema needKey metricMeta (valueOf token) record keyIdx
            parseContent schema needKey tokens record keyIdx (index + 1)

-- The fields behind the name of the table.
def analyseRecord (schema : Schema) :
    List Text → Record → (keyIdx : UInt32) → (index : ℕ) → Option Record
  | [], record, _, _ => some record
  | token :: tokens, record, keyIdx, index =>
      if valueOf token = ['\n'] then analyseRecord schema tokens record keyIdx index
      else
        match schema.metrics[index]? with
        | none => some record
        | some metricMeta => do
            let (record, keyIdx) ←
              fillRecord ingest schema true metricMeta (valueOf token) record keyIdx
            analyseRecord schema tokens record keyIdx (index + 1)

-- The name of the table, and the tokens behind it.
def analyseName : List Text → Option (Text × List Text)
  | [] => none
  | token :: tokens =>
      if token = [] then analyseName tokens
      else if token = ['\n'] then analyseName tokens
      else some (token, tokens)

def findTable (mgr : DataBaseMgr) (tableName : Text) : Option Table :=
  mgr.tables.find? fun table => table.name = tableName

-- The database after a call, and the record it added with the name of its table.
structure Added where
  mgr : DataBaseMgr
  record : Option (Text × Record)
  deriving DecidableEq, Repr

def rejected (mgr : DataBaseMgr) : Added := ⟨mgr, none⟩

def addToTable (mgr : DataBaseMgr) (tableName : Text) (record : Record) : Added :=
  let (tables, ret) := addRecordTo ingest.now tableName record mgr.tables
  if ret ≠ 0 then ⟨{ mgr with tables := tables }, none⟩
  else ⟨{ mgr with tables := tables }, some (tableName, recordUpdateTime record ingest.now)⟩

-- `none` is the use of a table that is NULL, as the line has no name.
def dataBaseMgrAddRecord (mgr : DataBaseMgr) (recordStr : Text) : Option Added := do
  let (tableName, tokens) ← analyseName (recordStr.splitOn '|')
  let some _ := findTable mgr tableName | return rejected mgr
  let schema := ingest.schema tableName
  if schema.recordKeySize = 0 then return rejected mgr
  let some record := recordCreateWithKey schema.metricsCapacity schema.recordKeySize
    | return rejected mgr
  let some record := analyseRecord ingest schema tokens record 0 0 | return rejected mgr
  return addToTable ingest mgr tableName record

def dataBaseMgrCreateRec (mgr : DataBaseMgr) (tableName content : Text) : Added :=
  let schema := ingest.schema tableName
  match recordCreateWithKey schema.metricsCapacity schema.recordKeySize with
  | none => rejected mgr
  | some record =>
      match parseContent ingest schema true (content.splitOn '|') record 0 0 with
      | none => rejected mgr
      | some record => addToTable ingest mgr tableName record

def getTableNameAndContent (buf : Text) (size : ℕ) : Option (Text × Text) :=
  if buf.head? ≠ some '|' then none
  else
    let tblName := buf.tail.takeWhile (· ≠ '|')
    let content := buf.tail.dropWhile (· ≠ '|')
    if content = [] then none
    else if tblName = [] then none
    else if tblName.length ≥ size then none
    else some (tblName, content)

def processMetricData (mgr : DataBaseMgr) (content tblName : Text) : Added :=
  match findTable mgr tblName with
  | none => rejected mgr
  | some _ =>
      if (ingest.schema tblName).recordKeySize = 0 then rejected mgr
      else dataBaseMgrCreateRec ingest mgr tblName content

def ingressAddRecord (mgr : DataBaseMgr) (dataStr : Text) : Added :=
  match getTableNameAndContent dataStr MAX_IMDB_TABLE_NAME_LEN with
  | none => rejected mgr
  | some (tblName, content) => processMetricData ingest mgr content tblName

end Gopher.Imdb
