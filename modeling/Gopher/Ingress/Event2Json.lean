import Gopher.Imdb
import Gopher.Lib.Fill

namespace Gopher.Ingress

open Gopher.Lib

section Data

def ENTITY_ID_LEN : ℕ := 256
def TIMESTAMP_LEN_MAX : ℕ := 128
def EVENT_ID_LEN : ℕ := ENTITY_ID_LEN + TIMESTAMP_LEN_MAX
def METRIC_ID_LEN : ℕ := 64
def LINE_BUF_LEN : ℕ := 512
def MAX_IMDB_SYSTEM_UUID_LEN : ℕ := 40
def MAX_IMDB_HOSTNAME_LEN : ℕ := 64
def MAX_IMDB_HOSTIP_LEN : ℕ := 64

structure NodeInfo where
  systemUuid : CString MAX_IMDB_SYSTEM_UUID_LEN
  hostName : CString MAX_IMDB_HOSTNAME_LEN
  hostIP : CString MAX_IMDB_HOSTIP_LEN
  noNul : '\x00' ∉ systemUuid.text ++ hostName.text ++ hostIP.text

-- A string that is short enough for an `int` to count two of its fields and what is put around
-- them. The strings in the fifos of the probes have less than `MAX_DATA_STR_LEN` characters.
structure Line where
  text : Text
  noNul : '\x00' ∉ text
  fits : text.length < 2 ^ 29

-- The arrays on the stack, with what stood there before.
structure Locals where
  entityId : CharBuffer
  eventId : CharBuffer
  metricId : CharBuffer
  length_entityId : entityId.length = ENTITY_ID_LEN
  length_eventId : eventId.length = EVENT_ID_LEN
  length_metricId : metricId.length = METRIC_ID_LEN

def COMM_FIELD_TIMESTAMP : Text := "Timestamp".toList
def COMM_FIELD_SEVER_TXT : Text := "SeverityText".toList
def COMM_FIELD_SEVER_NO : Text := "SeverityNumber".toList
def COMM_FIELD_RESOURCE : Text := "Resource".toList
def COMM_FIELD_ATTRS : Text := "Attributes".toList
def COMM_FIELD_BODY : Text := "Body".toList

inductive LogField where
  | timestamp
  | severityText
  | severityNumber
  | resource
  | attributes
  | body
  deriving DecidableEq

def gLogField : LogField → Text
  | .timestamp => COMM_FIELD_TIMESTAMP
  | .severityText => COMM_FIELD_SEVER_TXT
  | .severityNumber => COMM_FIELD_SEVER_NO
  | .resource => COMM_FIELD_RESOURCE
  | .attributes => COMM_FIELD_ATTRS
  | .body => COMM_FIELD_BODY

inductive EvtField where
  | timestamp
  | eventId
  | attributes
  | resource
  | severTxt
  | severNo
  | body
  deriving DecidableEq

def gEvtField : EvtField → Text
  | .timestamp => COMM_FIELD_TIMESTAMP
  | .eventId => "event_id".toList
  | .attributes => COMM_FIELD_ATTRS
  | .resource => COMM_FIELD_RESOURCE
  | .severTxt => COMM_FIELD_SEVER_TXT
  | .severNo => COMM_FIELD_SEVER_NO
  | .body => COMM_FIELD_BODY

-- The fields of an event line, in their order.
structure EvtFields where
  entityName : Text
  entityId : Text
  metric : Text
  pid : Text
  comm : Text
  ip : Text
  containerId : Text
  pod : Text
  device : Text
  severTxt : Text
  severNo : Text
  body : Text
  deriving DecidableEq

end Data

section Strbuf

def strbufUpdateOffset (offset : ℤ) : Fill := Fill.move offset

def strbufAppendChr (c : Char) : Fill := Fill.store [c]

def strbufAppendStr (str : Text) : Fill := Fill.store str

def strbufAppendChrWithCheck (c : Char) : Fill := fun dest =>
  if dest.size ≤ 0 then Fill.fail dest else strbufAppendChr c dest

def strbufAppendStrWithCheck (str : Text) : Fill := fun dest =>
  if dest.size < str.length then Fill.fail dest else strbufAppendStr str dest

end Strbuf

section Log

-- A sum of lengths; `none` is an overflow of an `int`.
def toInt (n : ℕ) : Option ℤ := if n < 2 ^ 31 then some n else none

def fillLogFieldSimple (fieldVal fieldName : Text) (fillQuote : Bool) : Fill := fun dest => do
  let requiredSize ← toInt (fieldName.length + fieldVal.length + 3 + if fillQuote then 2 else 0)
  if dest.size ≤ requiredSize then Fill.fail dest
  else
    ((strbufAppendChr '"').andThen <| (strbufAppendStr fieldName).andThen <|
      (strbufAppendChr '"').andThen <| (strbufAppendChr ':').andThen <|
      (if fillQuote then strbufAppendChr '"' else Fill.done).andThen <|
      (strbufAppendStr fieldVal).andThen <|
      if fillQuote then strbufAppendChr '"' else Fill.done) dest

def enrichResourceWithHostInfo (nodeInfo : NodeInfo) : Fill :=
  Fill.snprintf (",\"host.id\":\"".toList ++ nodeInfo.systemUuid.text ++
    "\",\"host.name\":\"".toList ++ nodeInfo.hostName.text ++ "\"".toList)

-- The closing brace of the field is printed, taken back and printed again.
def fillLogFieldResource (nodeInfo : NodeInfo) (field : Text) : Fill := fun dest =>
  if field.length < 2 ∨ field.head? ≠ some '\x7b' ∨ field.getLast? ≠ some '\x7d' then
    Fill.fail dest
  else
    ((fillLogFieldSimple field (gLogField .resource) false).andThen <|
      (strbufUpdateOffset (-1)).andThen <| (enrichResourceWithHostInfo nodeInfo).andThen <|
      strbufAppendChrWithCheck '\x7d') dest

def fillLogField (nodeInfo : NodeInfo) (field : Text) (fieldNumber : LogField) : Fill :=
  match fieldNumber with
  | .resource => fillLogFieldResource nodeInfo field
  | _ => fillLogFieldSimple field (gLogField fieldNumber) false

-- From a bar on: the field behind it, and the line from the next bar on.
def nextField (barNow : Text) : Option (Text × Text) :=
  if '|' ∈ barNow.tail then
    some (barNow.tail.takeWhile (· ≠ '|'), barNow.tail.dropWhile (· ≠ '|'))
  else none

def fillLogFields (nodeInfo : NodeInfo) : List LogField → (barNow : Text) → Fill
  | [], _ => Fill.done
  | fieldNo :: fieldNos, barNow =>
      match nextField barNow with
      | none => Fill.fail
      | some (field, barNext) =>
          (fillLogField nodeInfo field fieldNo).andThen <|
          (if fieldNo = .body then Fill.done else strbufAppendChrWithCheck ',').andThen <|
          fillLogFields nodeInfo fieldNos barNext

-- What a converter returns with the buffer.
def result (run : Option (Dest × Bool)) : Option (CharBuffer × ℤ) :=
  run.map fun (dest, isDone) => (dest.buffer, if isDone then 0 else -1)

-- `none` is a write outside the buffer or an `int` that overflows.
def logData2Json (nodeInfo : NodeInfo) (logData : Line) (jsonFmt : CharBuffer) (jsonSize : ℤ) :
    Option (CharBuffer × ℤ) :=
  if logData.text.head? ≠ some '|' then some (jsonFmt, -1)
  else
    result <| ((strbufAppendChrWithCheck '\x7b').andThen <|
      (fillLogFields nodeInfo
        [.timestamp, .severityText, .severityNumber, .resource, .attributes, .body]
        logData.text).andThen <|
      strbufAppendStrWithCheck "\x7d\x00".toList) ⟨jsonFmt, 0, jsonSize⟩

end Log

section Event

def readFields : (num : ℕ) → (barNow : Text) → Option (List Text)
  | 0, _ => some []
  | num + 1, barNow => do
      let (field, barNext) ← nextField barNow
      let fields ← readFields num barNext
      return field :: fields

def getEventFields (evtData : Text) : Option EvtFields := do
  if evtData.head? ≠ some '|' then none
  match ← readFields 12 evtData with
  | [entityName, entityId, metric, pid, comm, ip, containerId, pod, device, severTxt, severNo,
      body] =>
      if entityName.length = 0 ∨ entityId.length = 0 ∨ metric.length = 0 then none
      else some ⟨entityName, entityId, metric, pid, comm, ip, containerId, pod, device, severTxt,
        severNo, body⟩
  | _ => none

-- Up to the terminator; `none` if there is none.
def transferEntityId : (entityId : CharBuffer) → Option CharBuffer
  | [] => none
  | c :: entityId =>
      if c = '\x00' then some (c :: entityId)
      else (transferEntityId entityId).map ((if c = '/' then ':' else c) :: ·)

def getCurrTimestampMs (now : ℤ) : ℤ := now * Imdb.THOUSAND

def getEntityId (machineId entityName origEntityId : Text) : Fill := fun dest => do
  let requiredSize ← toInt (machineId.length + entityName.length + origEntityId.length + 3)
  if dest.size < requiredSize then Fill.fail dest
  else do
    let (dest, _) ← ((strbufAppendStr machineId).andThen <| (strbufAppendChr '_').andThen <|
      (strbufAppendStr entityName).andThen <| strbufAppendChr '_') dest
    let entityIdPos := dest.place
    let (dest, isDone) ← ((strbufAppendStr origEntityId).andThen <| strbufAppendChr '\x00') dest
    let transferred ← transferEntityId (dest.buffer.drop entityIdPos)
    return ({ dest with buffer := dest.buffer.take entityIdPos ++ transferred }, isDone)

def getEventId (timestamp : ℤ) (entityId : Text) : Fill :=
  (Fill.snprintf (Imdb.formatInt timestamp ++ "_".toList ++ entityId)).andThen <|
    strbufAppendChr '\x00'

def METRIC_ID_FRONT : Text := "gala_gopher".toList

def getMetricId (entityName metricName : Text) : Fill := fun dest => do
  let requiredSize ← toInt (METRIC_ID_FRONT.length + entityName.length + metricName.length + 3)
  if dest.size < requiredSize then Fill.fail dest
  else
    ((strbufAppendStr METRIC_ID_FRONT).andThen <| (strbufAppendChr '_').andThen <|
      (strbufAppendStr entityName).andThen <| (strbufAppendChr '_').andThen <|
      (strbufAppendStr metricName).andThen <| strbufAppendChr '\x00') dest

-- The string that is built in an array, if it fits.
def buildId (fill : Fill) (array : CharBuffer) : Option (Option Text) := do
  let (dest, isDone) ← fill ⟨array, 0, array.length⟩
  if isDone then (dest.buffer.cString 0).map some else return none

def fillEvtFieldTimestamp (timestamp : ℤ) : Fill :=
  fillLogFieldSimple (truncated 16 (Imdb.formatInt timestamp)) (gEvtField .timestamp) false

def fillEvtFieldEventId (eventId : Text) : Fill :=
  fillLogFieldSimple eventId (gEvtField .eventId) true

def fillEvtFieldAttrs (entityId eventId : Text) : Fill :=
  Fill.snprintf ("\"".toList ++ gEvtField .attributes ++ "\":\x7b\"entity_id\":\"".toList ++
    entityId ++ "\",\"event_id\":\"".toList ++ eventId ++ "\",\"event_type\":\"sys\"\x7d".toList)

def fillLabels : List (Text × Text) → Fill
  | [] => Fill.done
  | (labelName, field) :: labels =>
      (strbufAppendChrWithCheck ',').andThen <|
      (fillLogFieldSimple field labelName true).andThen <| fillLabels labels

def evtLabels (evtFields : EvtFields) : List (Text × Text) :=
  [("PID".toList, evtFields.pid), ("COMM".toList, evtFields.comm), ("IP".toList, evtFields.ip),
    ("ContainerID".toList, evtFields.containerId), ("POD".toList, evtFields.pod),
    ("Device".toList, evtFields.device)]

def fillEvtFieldLabels (evtFields : EvtFields) (nodeInfo : NodeInfo) : Fill :=
  let hostVal := truncated LINE_BUF_LEN
    (nodeInfo.systemUuid.text ++ "-".toList ++ nodeInfo.hostIP.text)
  (strbufAppendStrWithCheck "\"labels\":\x7b".toList).andThen <|
    (fillLogFieldSimple hostVal "Host".toList true).andThen <|
    (fillLabels (evtLabels evtFields)).andThen <| strbufAppendChrWithCheck '\x7d'

def fillEvtFieldResource (metricId : Text) (evtFields : EvtFields) (nodeInfo : NodeInfo) : Fill :=
  (Fill.snprintf ("\"".toList ++ gEvtField .resource ++ "\":\x7b\"metric\":\"".toList ++ metricId ++
      "\",".toList)).andThen <|
    (fillEvtFieldLabels evtFields nodeInfo).andThen <| strbufAppendChrWithCheck '\x7d'

variable (nodeInfo : NodeInfo) (timestamp : ℤ) (entityId eventId metricId : Text)
  (evtFields : EvtFields)

def fillEvtField : EvtField → Fill
  | .timestamp => fillEvtFieldTimestamp timestamp
  | .eventId => fillEvtFieldEventId eventId
  | .attributes => fillEvtFieldAttrs entityId eventId
  | .resource => fillEvtFieldResource metricId evtFields nodeInfo
  | .severTxt => fillLogFieldSimple evtFields.severTxt (gEvtField .severTxt) true
  | .severNo => fillLogFieldSimple evtFields.severNo (gEvtField .severNo) false
  | .body => fillLogFieldSimple evtFields.body (gEvtField .body) true

def fillEvtFields : List EvtField → Fill
  | [] => Fill.done
  | fieldNo :: fieldNos =>
      (fillEvtField nodeInfo timestamp entityId eventId metricId evtFields fieldNo).andThen <|
      (if fieldNo = .body then Fill.done else strbufAppendChrWithCheck ',').andThen <|
      fillEvtFields fieldNos

-- `none` is a write outside a buffer or an `int` that overflows.
def eventData2Json (now : ℤ) (nodeInfo : NodeInfo) (locals : Locals) (evtData : Line)
    (jsonFmt : CharBuffer) (jsonSize : ℤ) : Option (CharBuffer × ℤ) := do
  let some evtFields := getEventFields evtData.text | return (jsonFmt, -1)
  let timestamp := getCurrTimestampMs now
  let some entityId ← buildId (getEntityId nodeInfo.systemUuid.text evtFields.entityName
    evtFields.entityId) locals.entityId | return (jsonFmt, -1)
  let some eventId ← buildId (getEventId timestamp entityId) locals.eventId
    | return (jsonFmt, -1)
  let some metricId ← buildId (getMetricId evtFields.entityName evtFields.metric) locals.metricId
    | return (jsonFmt, -1)
  result <| ((strbufAppendChrWithCheck '\x7b').andThen <|
    (fillEvtFields nodeInfo timestamp entityId eventId metricId evtFields
      [.timestamp, .eventId, .attributes, .resource, .severTxt, .severNo, .body]).andThen <|
    strbufAppendStrWithCheck "\x7d\x00".toList) ⟨jsonFmt, 0, jsonSize⟩

end Event

end Gopher.Ingress
