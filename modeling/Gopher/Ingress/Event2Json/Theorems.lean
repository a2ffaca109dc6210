import Gopher.Imdb.Json.Theorems
import Gopher.Ingress.Event2Json.Event
import Gopher.Ingress.Event2Json.Log
import Gopher.Lib.Json.Verbatim

namespace Gopher.Ingress

open Gopher.Lib
open Gopher.Imdb (Plain jsonQuoting plain_append plain_cons)

section Bounds

-- Nothing is written behind the buffer, and a document that is done ends inside it.
def Contained (jsonFmt : CharBuffer) (jsonSize : ℤ) (run : Option (CharBuffer × ℤ)) : Prop :=
  ∃ buffer ret, run = some (buffer, ret) ∧ buffer.length = jsonFmt.length ∧
    (ret = 0 ∨ ret = -1) ∧
    (ret = 0 → ∃ text, buffer.cString 0 = some text ∧ text.length < jsonSize)

variable {jsonFmt : CharBuffer} {jsonSize : ℤ} {text : Text} {run : Option (CharBuffer × ℤ)}

theorem contained_of_outcome (h : Outcome text jsonFmt jsonSize run) :
    Contained jsonFmt jsonSize run := by
  cases h with
  | done hlength hfits htext => exact ⟨_, 0, rfl, hlength, .inl rfl, fun _ => ⟨text, htext, hfits⟩⟩
  | cut hlength _ => exact ⟨_, -1, rfl, hlength, .inr rfl, fun hret => by cases hret⟩

theorem contained_of_refused (h : Refused jsonFmt run) : Contained jsonFmt jsonSize run := by
  cases h with
  | refused hlength => exact ⟨_, -1, rfl, hlength, .inr rfl, fun hret => by cases hret⟩

variable (now : ℤ) (nodeInfo : NodeInfo) (locals : Locals)

theorem contained_eventData2Json (evtData : Line) (hroom : jsonFmt.length = jsonSize.toNat) :
    Contained jsonFmt jsonSize (eventData2Json now nodeInfo locals evtData jsonFmt jsonSize) := by
  by_cases hgiven : ∃ evtFields, eventFields evtData.text = some evtFields ∧
      Accepted now nodeInfo evtFields
  · obtain ⟨evtFields, hfields, haccepted⟩ := hgiven
    exact contained_of_outcome (eventData2Json_outcome hfields haccepted hroom)
  · apply contained_of_refused
    apply eventData2Json_refused
    intro evtFields hfields haccepted
    exact hgiven ⟨evtFields, hfields, haccepted⟩

theorem contained_logData2Json (logData : Line) (hroom : jsonFmt.length = jsonSize.toNat) :
    Contained jsonFmt jsonSize (logData2Json nodeInfo logData jsonFmt jsonSize) := by
  by_cases hgiven : ∃ parts, logParts logData.text = some parts ∧ Braced parts.resource
  · obtain ⟨parts, hparts, hbraced⟩ := hgiven
    exact contained_of_outcome (logData2Json_outcome hparts hbraced hroom)
  · apply contained_of_refused
    refine logData2Json_refused ?_ hroom
    intro parts hparts hbraced
    exact hgiven ⟨parts, hparts, hbraced⟩

-- Whatever the line and the size are, the converters keep to the buffer.
theorem converters_contained (line : Line) (hroom : jsonFmt.length = jsonSize.toNat) :
    Contained jsonFmt jsonSize (eventData2Json now nodeInfo locals line jsonFmt jsonSize) ∧
      Contained jsonFmt jsonSize (logData2Json nodeInfo line jsonFmt jsonSize) :=
  ⟨contained_eventData2Json now nodeInfo locals line hroom,
    contained_logData2Json nodeInfo line hroom⟩

def shownNode : NodeInfo where
  systemUuid := ⟨"u".toList, by decide⟩
  hostName := ⟨"h".toList, by decide⟩
  hostIP := ⟨"i".toList, by decide⟩
  noNul := by decide

def shownLocals : Locals where
  entityId := List.replicate ENTITY_ID_LEN '?'
  eventId := List.replicate EVENT_ID_LEN '?'
  metricId := List.replicate METRIC_ID_LEN '?'
  length_entityId := List.length_replicate
  length_eventId := List.length_replicate
  length_metricId := List.length_replicate

-- A line whose other parts are documents.
def logLine (resource : Text) (hnul : '\x00' ∉ resource) (hfits : resource.length < 64) : Line where
  text := "|1|\"s\"|2|".toList ++ resource ++ "|\x7b\x7d|\"b\"|".toList
  noNul := by simp [hnul]
  fits := by
    simp only [List.length_append]
    have hlength : "|1|\"s\"|2|".toList.length = 9 ∧ "|\x7b\x7d|\"b\"|".toList.length = 8 := by
      decide
    omega

def memberLine : Line := logLine "\x7b\"a\":1\x7d".toList (by decide) (by decide)

def eventLine (body : Text) (hnul : '\x00' ∉ body) (hfits : body.length < 64) : Line where
  text := "|e|i|m|1|c|0|d|p|v|INFO|9|".toList ++ body ++ "|".toList
  noNul := by simp [hnul]
  fits := by
    simp only [List.length_append]
    have hlength : "|e|i|m|1|c|0|d|p|v|INFO|9|".toList.length = 26 ∧ "|".toList.length = 1 := by
      decide
    omega

def plainLine : Line := eventLine "a".toList (by decide) (by decide)

-- The document of the event has 307 characters, the one of the log 129: it ends in the last
-- byte of a buffer that has one more, and is cut in one that has not.
theorem converters_contained_full :
    ((eventData2Json 1 shownNode shownLocals plainLine (List.replicate 308 '?') 308).map
        Prod.snd = some 0 ∧
      (eventData2Json 1 shownNode shownLocals plainLine (List.replicate 307 '?') 307).map
        Prod.snd = some (-1)) ∧
    ((logData2Json shownNode memberLine (List.replicate 130 '?') 130).map Prod.snd = some 0 ∧
      (logData2Json shownNode memberLine (List.replicate 129 '?') 129).map Prod.snd =
        some (-1)) ∧
    (∀ size ∈ [308, 307], Contained (List.replicate size '?') size
      (eventData2Json 1 shownNode shownLocals plainLine (List.replicate size '?') size)) ∧
    ∀ size ∈ [130, 129], Contained (List.replicate size '?') size
      (logData2Json shownNode memberLine (List.replicate size '?') size) := by
  refine ⟨by decide +kernel, by decide +kernel, fun size _ => ?_, fun size _ => ?_⟩
  · exact (converters_contained 1 shownNode shownLocals plainLine List.length_replicate).1
  · exact (converters_contained 1 shownNode shownLocals memberLine List.length_replicate).2

end Bounds

section Logs

variable {nodeInfo : NodeInfo} {logData : Line} {parts : LogParts} {jsonFmt : CharBuffer}
  {jsonSize : ℤ}

-- The members of a log's document, with the resource extended.
def logObject (nodeInfo : NodeInfo) (timestamp severityText severityNumber : JsonDoc)
    (resource : List (Text × JsonDoc)) (attributes body : JsonDoc) : JsonDoc :=
  .object [(gLogField .timestamp, timestamp), (gLogField .severityText, severityText),
    (gLogField .severityNumber, severityNumber),
    (gLogField .resource, .object (resource ++
      [("host.id".toList, .string nodeInfo.systemUuid.text),
        ("host.name".toList, .string nodeInfo.hostName.text)])),
    (gLogField .attributes, attributes), (gLogField .body, body)]

-- What is done is the document of the parts.
def TellsLog (nodeInfo : NodeInfo) (parts : LogParts) (run : Option (CharBuffer × ℤ)) : Prop :=
  ∃ buffer ret, run = some (buffer, ret) ∧ (ret = 0 →
    ∃ text timestamp severityText severityNumber resource attributes body,
      buffer.cString 0 = some text ∧
      JsonDoc.readDocument jsonQuoting parts.timestamp = some timestamp ∧
      JsonDoc.readDocument jsonQuoting parts.severityText = some severityText ∧
      JsonDoc.readDocument jsonQuoting parts.severityNumber = some severityNumber ∧
      JsonDoc.readDocument jsonQuoting parts.resource = some (.object resource) ∧
      JsonDoc.readDocument jsonQuoting parts.attributes = some attributes ∧
      JsonDoc.readDocument jsonQuoting parts.body = some body ∧
      JsonDoc.readDocument jsonQuoting text = some (logObject nodeInfo timestamp severityText
        severityNumber resource attributes body))

theorem tellsLog_failed (buffer : CharBuffer) : TellsLog nodeInfo parts (some (buffer, -1)) :=
  ⟨buffer, -1, rfl, fun hret => by cases hret⟩

def partSlot (name text : Text) (value : JsonDoc)
    (hread : JsonDoc.readDocument jsonQuoting text = some value) (hname : Plain name) :
    JsonDoc.Slot jsonQuoting where
  name := name
  text := text
  value := value
  good := True
  name_plain := hname
  reads := .of_takes (JsonDoc.takes_of_readDocument Imdb.local_unescapeJson hread)

def hostSlots (nodeInfo : NodeInfo) : List (JsonDoc.Slot jsonQuoting) :=
  [.quoted jsonQuoting "host.id".toList nodeInfo.systemUuid.text (by decide),
    .quoted jsonQuoting "host.name".toList nodeInfo.hostName.text (by decide)]

theorem plain_gLogField (fieldNumber : LogField) : Plain (gLogField fieldNumber) := by
  cases fieldNumber <;> decide

def PlainHost (nodeInfo : NodeInfo) : Prop :=
  Plain nodeInfo.systemUuid.text ∧ Plain nodeInfo.hostName.text

theorem reads_resourceText {resource : Text} {members : List (Text × JsonDoc)}
    (hbraced : Braced resource)
    (hread : JsonDoc.readDocument jsonQuoting resource = some (.object members)) :
    JsonDoc.Reads jsonQuoting (resourceText nodeInfo resource)
      (.object (members ++ (hostSlots nodeInfo).map fun slot => (slot.name, slot.value)))
      (members ≠ [] ∧ ∀ slot ∈ hostSlots nodeInfo, slot.good) := by
  obtain ⟨front, rfl⟩ := hbraced
  have hhost := @JsonDoc.readsMembers_slots _ (hostSlots nodeInfo) (by simp [hostSlots])
  have h := JsonDoc.reads_extended Imdb.local_unescapeJson hread (by simp [hostSlots]) hhost
  have htext : resourceText nodeInfo ('\x7b' :: (front ++ ['\x7d'])) =
      '\x7b' :: (front ++ ',' :: JsonDoc.membersText (hostMembers nodeInfo)) := by
    rw [resourceText, ← List.cons_append, List.dropLast_concat, List.cons_append]
  rw [htext]
  exact h

-- The members that are printed as they stand.
theorem reads_logText {timestamp severityText severityNumber attributes body : JsonDoc}
    {members : List (Text × JsonDoc)} (hbraced : Braced parts.resource)
    (htimestamp : JsonDoc.readDocument jsonQuoting parts.timestamp = some timestamp)
    (hseverityText : JsonDoc.readDocument jsonQuoting parts.severityText = some severityText)
    (hseverityNumber : JsonDoc.readDocument jsonQuoting parts.severityNumber = some severityNumber)
    (hresource : JsonDoc.readDocument jsonQuoting parts.resource = some (.object members))
    (hattributes : JsonDoc.readDocument jsonQuoting parts.attributes = some attributes)
    (hbody : JsonDoc.readDocument jsonQuoting parts.body = some body) :
    JsonDoc.readDocument jsonQuoting (logText nodeInfo parts) = some (logObject nodeInfo timestamp
        severityText severityNumber members attributes body) ↔
      members ≠ [] ∧ PlainHost nodeInfo := by
  let resource : JsonDoc.Slot jsonQuoting := ⟨gLogField .resource,
    resourceText nodeInfo parts.resource,
    .object (members ++ (hostSlots nodeInfo).map fun slot => (slot.name, slot.value)), _,
    plain_gLogField .resource, reads_resourceText hbraced hresource⟩
  have hdocument := (@JsonDoc.reads_slots _ [
    partSlot (gLogField .timestamp) _ _ htimestamp (plain_gLogField .timestamp),
    partSlot (gLogField .severityText) _ _ hseverityText (plain_gLogField .severityText),
    partSlot (gLogField .severityNumber) _ _ hseverityNumber (plain_gLogField .severityNumber),
    resource,
    partSlot (gLogField .attributes) _ _ hattributes (plain_gLogField .attributes),
    partSlot (gLogField .body) _ _ hbody (plain_gLogField .body)] (by simp)).document
  refine Iff.trans hdocument ?_
  simp [partSlot, resource, hostSlots, JsonDoc.Slot.quoted, PlainHost, Plain]

def logLength (nodeInfo : NodeInfo) (parts : LogParts) : ℕ :=
  parts.timestamp.length + parts.severityText.length + parts.severityNumber.length +
    parts.resource.length + parts.attributes.length + parts.body.length +
    nodeInfo.systemUuid.text.length + nodeInfo.hostName.text.length + 110

theorem length_logText (hbraced : Braced parts.resource) :
    (logText nodeInfo parts).length = logLength nodeInfo parts := by
  have hresource : 0 < parts.resource.length := by
    obtain ⟨front, hfront⟩ := hbraced
    simp [hfront]
  have hname : COMM_FIELD_TIMESTAMP.length = 9 ∧ COMM_FIELD_SEVER_TXT.length = 12 ∧
      COMM_FIELD_SEVER_NO.length = 14 ∧ COMM_FIELD_RESOURCE.length = 8 ∧
      COMM_FIELD_ATTRS.length = 10 ∧ COMM_FIELD_BODY.length = 4 := by decide
  have hhost : "host.id".toList.length = 7 ∧ "host.name".toList.length = 9 := by decide
  obtain ⟨htimestamp, hseverTxt, hseverNo, hres, hattrs, hbody⟩ := hname
  rw [logText, JsonDoc.length_objectText (by simp), resourceText, hostMembers]
  simp only [List.map_cons, List.map_nil, List.sum_cons, List.sum_nil, JsonDoc.memberLength,
    List.length_append, List.length_cons, List.length_dropLast, JsonDoc.length_membersText,
    JsonDoc.length_quoted, logLength]
  omega

-- The resource has members already, the parts in front of it are documents too, and the names
-- of the host need no escapes: under this condition a line of documents becomes the document of
-- its parts.
theorem logData2Json_tells_iff {members : List (Text × JsonDoc)} {attributes body : JsonDoc}
    (hparts : logParts logData.text = some parts)
    (hresource : JsonDoc.readDocument jsonQuoting parts.resource = some (.object members))
    (hattributes : JsonDoc.readDocument jsonQuoting parts.attributes = some attributes)
    (hbody : JsonDoc.readDocument jsonQuoting parts.body = some body)
    (hroom : jsonFmt.length = jsonSize.toNat) :
    TellsLog nodeInfo parts (logData2Json nodeInfo logData jsonFmt jsonSize) ↔
      (Braced parts.resource → logLength nodeInfo parts < jsonSize →
        members ≠ [] ∧ PlainHost nodeInfo ∧
          (JsonDoc.readDocument jsonQuoting parts.timestamp).isSome ∧
          (JsonDoc.readDocument jsonQuoting parts.severityText).isSome ∧
          (JsonDoc.readDocument jsonQuoting parts.severityNumber).isSome) := by
  by_cases hbraced : Braced parts.resource
  · have houtcome := @logData2Json_outcome nodeInfo _ _ _ _ hparts hbraced hroom
    have hlength := @length_logText nodeInfo _ hbraced
    generalize logData2Json nodeInfo logData jsonFmt jsonSize = run at houtcome
    cases houtcome with
    | @done buffer _ hfits htext =>
        constructor
        · rintro ⟨_, _, hrun, htells⟩ - -
          cases hrun
          obtain ⟨text, timestamp, severityText, severityNumber, resource, _, _, hcString,
            htimestamp, hseverityText, hseverityNumber, hmembers, hattrs, hlast, hread⟩ :=
            htells rfl
          cases htext.symm.trans hcString
          cases hresource.symm.trans hmembers
          obtain ⟨hne, hplain⟩ := (reads_logText hbraced htimestamp hseverityText hseverityNumber
            hresource hattrs hlast).mp hread
          rw [htimestamp, hseverityText, hseverityNumber]
          exact ⟨hne, hplain, rfl, rfl, rfl⟩
        · intro h
          obtain ⟨hne, hplain, htimestamp, hseverityText, hseverityNumber⟩ :=
            h hbraced (by omega)
          obtain ⟨timestamp, htimestamp⟩ := Option.isSome_iff_exists.mp htimestamp
          obtain ⟨severityText, hseverityText⟩ := Option.isSome_iff_exists.mp hseverityText
          obtain ⟨severityNumber, hseverityNumber⟩ := Option.isSome_iff_exists.mp hseverityNumber
          refine ⟨buffer, 0, rfl, fun _ => ⟨_, timestamp, severityText, severityNumber, members,
            attributes, body, htext, htimestamp, hseverityText, hseverityNumber, hresource,
            hattributes, hbody, ?_⟩⟩
          exact (reads_logText hbraced htimestamp hseverityText hseverityNumber hresource
            hattributes hbody).mpr ⟨hne, hplain⟩
    | cut _ hcut =>
        apply iff_of_true
        · exact tellsLog_failed _
        · intro _ hfits
          omega
  · have hrefused := @logData2Json_refused nodeInfo logData jsonFmt jsonSize (by
      intro one hone
      cases hparts.symm.trans hone
      exact hbraced) hroom
    generalize logData2Json nodeInfo logData jsonFmt jsonSize = run at hrefused
    cases hrefused
    apply iff_of_true
    · exact tellsLog_failed _
    · intro h
      exact absurd h hbraced

def logLineParts (resource : Text) : LogParts :=
  ⟨"1".toList, "\"s\"".toList, "2".toList, resource, "\x7b\x7d".toList, "\"b\"".toList⟩

theorem logData2Json_tells_member :
    TellsLog shownNode (logLineParts "\x7b\"a\":1\x7d".toList)
      (logData2Json shownNode memberLine (List.replicate 200 '?') 200) := by
  apply (@logData2Json_tells_iff shownNode memberLine _ _ _ _ _ _ (by rfl) (by rfl) (by rfl)
    (by rfl) List.length_replicate).mpr
  intro _ _
  exact ⟨by simp, by unfold PlainHost; decide, by rfl, by rfl, by rfl⟩

def emptyResourceLine : Line := logLine "\x7b\x7d".toList (by decide) (by decide)

-- The comma that the members of the host are put behind stands at the front.
theorem logData2Json_empty_resource :
    logParts emptyResourceLine.text = some (logLineParts "\x7b\x7d".toList) ∧
      JsonDoc.readDocument jsonQuoting "\x7b\x7d".toList = some (.object []) ∧
      ∃ buffer text, logData2Json shownNode emptyResourceLine (List.replicate 200 '?') 200 =
          some (buffer, 0) ∧
        buffer.cString 0 = some text ∧ JsonDoc.readDocument jsonQuoting text = none ∧
        ¬ TellsLog shownNode (logLineParts "\x7b\x7d".toList)
          (logData2Json shownNode emptyResourceLine (List.replicate 200 '?') 200) := by
  have hparts : logParts emptyResourceLine.text = some (logLineParts "\x7b\x7d".toList) := by rfl
  have hread : JsonDoc.readDocument jsonQuoting (logText shownNode
      (logLineParts "\x7b\x7d".toList)) = none := by
    rw [← Option.isNone_iff_eq_none]
    decide +kernel
  have hbraced : Braced (logLineParts "\x7b\x7d".toList).resource := ⟨[], rfl⟩
  have hlength := @length_logText shownNode _ hbraced
  have hshort : logLength shownNode (logLineParts "\x7b\x7d".toList) < 200 := by decide
  have hroom : (List.replicate 200 '?').length = (200 : ℤ).toNat := List.length_replicate
  have houtcome := @logData2Json_outcome shownNode emptyResourceLine _ _ 200 hparts hbraced hroom
  refine ⟨hparts, by rfl, ?_⟩
  generalize logData2Json shownNode emptyResourceLine (List.replicate 200 '?') 200 = run at *
  cases houtcome with
  | @done buffer _ _ htext =>
      refine ⟨buffer, _, rfl, htext, hread, ?_⟩
      rintro ⟨_, _, hrun, htells⟩
      cases hrun
      obtain ⟨text, _, _, _, _, _, _, hcString, -, -, -, -, -, -, hdocument⟩ := htells rfl
      cases htext.symm.trans hcString
      cases hread.symm.trans hdocument
  | cut _ hcut => omega

end Logs

section Events

variable {now : ℤ} {nodeInfo : NodeInfo} {locals : Locals} {evtData : Line}
  {evtFields : EvtFields} {jsonFmt : CharBuffer} {jsonSize : ℤ}

-- What the document of an event should say.
def eventObject (now : ℤ) (nodeInfo : NodeInfo) (evtFields : EvtFields) : JsonDoc :=
  .object [(gEvtField .timestamp, .number (Imdb.formatInt (getCurrTimestampMs now))),
    (gEvtField .eventId, .string (eventIdOf now nodeInfo evtFields)),
    (gEvtField .attributes, .object [
      ("entity_id".toList, .string (entityIdOf nodeInfo evtFields)),
      ("event_id".toList, .string (eventIdOf now nodeInfo evtFields)),
      ("event_type".toList, .string "sys".toList)]),
    (gEvtField .resource, .object [
      ("metric".toList, .string (metricIdOf evtFields)),
      ("labels".toList, .object [
        ("Host".toList, .string (hostText nodeInfo)), ("PID".toList, .string evtFields.pid),
        ("COMM".toList, .string evtFields.comm), ("IP".toList, .string evtFields.ip),
        ("ContainerID".toList, .string evtFields.containerId),
        ("POD".toList, .string evtFields.pod), ("Device".toList, .string evtFields.device)])]),
    (gEvtField .severTxt, .string evtFields.severTxt),
    (gEvtField .severNo, .number evtFields.severNo),
    (gEvtField .body, .string evtFields.body)]

-- What is done is the document of the fields of the line.
def TellsEvent (now : ℤ) (nodeInfo : NodeInfo) (line : Text)
    (run : Option (CharBuffer × ℤ)) : Prop :=
  ∃ buffer ret, run = some (buffer, ret) ∧ (ret = 0 →
    ∃ text evtFields, buffer.cString 0 = some text ∧ eventFields line = some evtFields ∧
      JsonDoc.readDocument jsonQuoting text = some (eventObject now nodeInfo evtFields))

theorem tellsEvent_failed (line : Text) (buffer : CharBuffer) :
    TellsEvent now nodeInfo line (some (buffer, -1)) :=
  ⟨buffer, -1, rfl, fun hret => by cases hret⟩

-- The texts that are printed between quotes.
def eventStrings (nodeInfo : NodeInfo) (evtFields : EvtFields) : List Text :=
  [nodeInfo.systemUuid.text, nodeInfo.hostIP.text, evtFields.entityName, evtFields.entityId,
    evtFields.metric, evtFields.pid, evtFields.comm, evtFields.ip, evtFields.containerId,
    evtFields.pod, evtFields.device, evtFields.severTxt, evtFields.body]

-- The time in milliseconds fits its array.
structure EventPlain (now : ℤ) (nodeInfo : NodeInfo) (evtFields : EvtFields) : Prop where
  timestamp : (Imdb.formatInt (getCurrTimestampMs now)).length < 16
  strings : ∀ text ∈ eventStrings nodeInfo evtFields, Plain text
  severNo : JsonDoc.isNumber evtFields.severNo = true

def labelSlots (nodeInfo : NodeInfo) (evtFields : EvtFields) : List (JsonDoc.Slot jsonQuoting) :=
  [.quoted jsonQuoting "Host".toList (hostText nodeInfo) (by decide),
    .quoted jsonQuoting "PID".toList evtFields.pid (by decide),
    .quoted jsonQuoting "COMM".toList evtFields.comm (by decide),
    .quoted jsonQuoting "IP".toList evtFields.ip (by decide),
    .quoted jsonQuoting "ContainerID".toList evtFields.containerId (by decide),
    .quoted jsonQuoting "POD".toList evtFields.pod (by decide),
    .quoted jsonQuoting "Device".toList evtFields.device (by decide)]

def resourceSlots (nodeInfo : NodeInfo) (evtFields : EvtFields) : List (JsonDoc.Slot jsonQuoting) :=
  [.quoted jsonQuoting "metric".toList (metricIdOf evtFields) (by decide),
    .object "labels".toList (labelSlots nodeInfo evtFields) (by simp [labelSlots]) (by decide)]

def attrsSlots (now : ℤ) (nodeInfo : NodeInfo) (evtFields : EvtFields) :
    List (JsonDoc.Slot jsonQuoting) :=
  [.quoted jsonQuoting "entity_id".toList (entityIdOf nodeInfo evtFields) (by decide),
    .quoted jsonQuoting "event_id".toList (eventIdOf now nodeInfo evtFields) (by decide),
    .quoted jsonQuoting "event_type".toList "sys".toList (by decide)]

theorem plain_gEvtField (fieldNo : EvtField) :
    ∀ char ∈ gEvtField fieldNo, jsonQuoting.plain char = true := by
  cases fieldNo <;> decide

theorem isScalarChar_timestamp (n : ℤ) :
    ∀ char ∈ truncated 16 (Imdb.formatInt n), JsonDoc.isScalarChar char = true := by
  intro char hchar
  exact JsonDoc.isScalarChar_of_isNumber (Imdb.isNumber_formatInt n) char
    (List.take_subset _ _ hchar)

theorem truncated_formatInt_ne_nil (n : ℤ) : truncated 16 (Imdb.formatInt n) ≠ [] := by
  rw [truncated, ne_eq, List.take_eq_nil_iff]
  simp [Imdb.formatInt_ne_nil]

def timestampSlot (n : ℤ) : JsonDoc.Slot jsonQuoting where
  name := gEvtField .timestamp
  text := truncated 16 (Imdb.formatInt n)
  value := .number (Imdb.formatInt n)
  good := truncated 16 (Imdb.formatInt n) = Imdb.formatInt n ∧
    JsonDoc.isNumber (Imdb.formatInt n) = true
  name_plain := plain_gEvtField .timestamp
  reads := JsonDoc.reads_token (truncated_formatInt_ne_nil n) (isScalarChar_timestamp n) _

def severNoSlot (severNo : Text) : JsonDoc.Slot jsonQuoting where
  name := gEvtField .severNo
  text := severNo
  value := .number severNo
  good := JsonDoc.isNumber severNo = true
  name_plain := plain_gEvtField .severNo
  reads := JsonDoc.reads_number severNo

def eventSlots (now : ℤ) (nodeInfo : NodeInfo) (evtFields : EvtFields) :
    List (JsonDoc.Slot jsonQuoting) :=
  [timestampSlot (getCurrTimestampMs now),
    .quoted jsonQuoting (gEvtField .eventId) (eventIdOf now nodeInfo evtFields)
      (plain_gEvtField .eventId),
    .object (gEvtField .attributes) (attrsSlots now nodeInfo evtFields) (by simp [attrsSlots])
      (plain_gEvtField .attributes),
    .object (gEvtField .resource) (resourceSlots nodeInfo evtFields) (by simp [resourceSlots])
      (plain_gEvtField .resource),
    .quoted jsonQuoting (gEvtField .severTxt) evtFields.severTxt (plain_gEvtField .severTxt),
    severNoSlot evtFields.severNo,
    .quoted jsonQuoting (gEvtField .body) evtFields.body (plain_gEvtField .body)]

theorem reads_eventText :
    JsonDoc.readDocument jsonQuoting (eventText now nodeInfo evtFields) =
        some (eventObject now nodeInfo evtFields) ↔
      ∀ slot ∈ eventSlots now nodeInfo evtFields, slot.good :=
  (@JsonDoc.reads_slots _ (eventSlots now nodeInfo evtFields) (by simp [eventSlots])).document

-- The bytes that are replaced in an id, and what they are replaced by, need no escape.
theorem plain_transferred {id : Text} : Plain (transferred id) ↔ Plain id := by
  have hchar : ∀ c : Char,
      jsonQuoting.plain (if c = '/' then ':' else c) = jsonQuoting.plain c := by
    intro c
    split
    case isTrue hslash =>
      rw [hslash]
      decide
    case isFalse => rfl
  rw [Plain, transferred, List.forall_mem_map, Plain]
  simp only [hchar]

theorem plain_entityIdOf : Plain (entityIdOf nodeInfo evtFields) ↔
    Plain nodeInfo.systemUuid.text ∧ Plain evtFields.entityName ∧ Plain evtFields.entityId := by
  have hunderline : jsonQuoting.plain '_' = true := by decide
  simp only [entityIdOf, entityIdText, plain_append, plain_cons, hunderline, true_and,
    plain_transferred]

theorem plain_eventIdOf : Plain (eventIdOf now nodeInfo evtFields) ↔
    Plain (entityIdOf nodeInfo evtFields) := by
  have hunderline : Plain "_".toList := by decide
  simp only [eventIdOf, plain_append, Imdb.plain_formatInt, hunderline, true_and]

theorem plain_metricIdOf : Plain (metricIdOf evtFields) ↔
    Plain evtFields.entityName ∧ Plain evtFields.metric := by
  have hunderline : jsonQuoting.plain '_' = true := by decide
  have hfront : Plain METRIC_ID_FRONT := by decide
  simp only [metricIdOf, metricIdText, plain_append, plain_cons, hunderline, hfront, true_and]

theorem plain_hostText : Plain (hostText nodeInfo) ↔
    Plain nodeInfo.systemUuid.text ∧ Plain nodeInfo.hostIP.text := by
  have hdash : jsonQuoting.plain '-' = true := by decide
  simp only [hostText, plain_append, plain_cons, hdash, true_and]

theorem good_timestampSlot {n : ℤ} : (timestampSlot n).good ↔ (Imdb.formatInt n).length < 16 := by
  have hgood : (timestampSlot n).good ↔ truncated 16 (Imdb.formatInt n) = Imdb.formatInt n ∧
      JsonDoc.isNumber (Imdb.formatInt n) = true := Iff.rfl
  have hcut : truncated 16 (Imdb.formatInt n) = Imdb.formatInt n ↔
      (Imdb.formatInt n).length < 16 := by
    rw [truncated]
    constructor
    · intro htake
      have hlength := congrArg List.length htake
      rw [List.length_take] at hlength
      omega
    · intro hlt
      exact List.take_of_length_le (by omega)
  rw [hgood, hcut, and_iff_left (Imdb.isNumber_formatInt n)]

theorem good_quoted {name text : Text} (hname : ∀ char ∈ name, jsonQuoting.plain char = true) :
    (JsonDoc.Slot.quoted jsonQuoting name text hname).good ↔ Plain text := Iff.rfl

theorem good_eventSlots : (∀ slot ∈ eventSlots now nodeInfo evtFields, slot.good) ↔
    EventPlain now nodeInfo evtFields := by
  have hlabels : (∀ slot ∈ labelSlots nodeInfo evtFields, slot.good) ↔
      (Plain nodeInfo.systemUuid.text ∧ Plain nodeInfo.hostIP.text) ∧ Plain evtFields.pid ∧
        Plain evtFields.comm ∧ Plain evtFields.ip ∧ Plain evtFields.containerId ∧
        Plain evtFields.pod ∧ Plain evtFields.device := by
    simp only [labelSlots, List.forall_mem_cons, good_quoted, plain_hostText, List.not_mem_nil,
      false_implies, implies_true, and_true]
  have hresource : (∀ slot ∈ resourceSlots nodeInfo evtFields, slot.good) ↔
      (Plain evtFields.entityName ∧ Plain evtFields.metric) ∧
        ∀ slot ∈ labelSlots nodeInfo evtFields, slot.good := by
    simp only [resourceSlots, List.forall_mem_cons, good_quoted, plain_metricIdOf, List.not_mem_nil,
      false_implies, implies_true, and_true]
    exact Iff.rfl
  have hattrs : (∀ slot ∈ attrsSlots now nodeInfo evtFields, slot.good) ↔
      Plain (entityIdOf nodeInfo evtFields) := by
    have hsys : Plain "sys".toList := by decide
    simp only [attrsSlots, List.forall_mem_cons, good_quoted, plain_eventIdOf, hsys,
      List.not_mem_nil, false_implies, implies_true, and_true, and_self]
  have hwhole : (∀ slot ∈ eventSlots now nodeInfo evtFields, slot.good) ↔
      (Imdb.formatInt (getCurrTimestampMs now)).length < 16 ∧
        Plain (entityIdOf nodeInfo evtFields) ∧
        (∀ slot ∈ attrsSlots now nodeInfo evtFields, slot.good) ∧
        (∀ slot ∈ resourceSlots nodeInfo evtFields, slot.good) ∧
        Plain evtFields.severTxt ∧ JsonDoc.isNumber evtFields.severNo = true ∧
        Plain evtFields.body := by
    simp only [eventSlots, List.forall_mem_cons, good_quoted, good_timestampSlot, plain_eventIdOf,
      List.not_mem_nil, false_implies, implies_true, and_true]
    exact Iff.rfl
  rw [hwhole, hattrs, hresource, hlabels, plain_entityIdOf]
  constructor
  · rintro ⟨htimestamp, ⟨huuid, hentityName, hentityId⟩, -, ⟨⟨-, hmetric⟩, ⟨-, hhostIP⟩, hpid, hcomm,
      hip, hcontainerId, hpod, hdevice⟩, hseverTxt, hseverNo, hbody⟩
    refine ⟨htimestamp, ?_, hseverNo⟩
    simp only [eventStrings, List.forall_mem_cons]
    exact ⟨huuid, hhostIP, hentityName, hentityId, hmetric, hpid, hcomm, hip, hcontainerId, hpod,
      hdevice, hseverTxt, hbody, by simp⟩
  · rintro ⟨htimestamp, hstrings, hseverNo⟩
    simp only [eventStrings, List.forall_mem_cons] at hstrings
    obtain ⟨huuid, hhostIP, hentityName, hentityId, hmetric, hpid, hcomm, hip, hcontainerId, hpod,
      hdevice, hseverTxt, hbody, -⟩ := hstrings
    exact ⟨htimestamp, ⟨huuid, hentityName, hentityId⟩, ⟨huuid, hentityName, hentityId⟩,
      ⟨⟨hentityName, hmetric⟩, ⟨huuid, hhostIP⟩, hpid, hcomm, hip, hcontainerId, hpod, hdevice⟩,
      hseverTxt, hseverNo, hbody⟩

def entityIdLength (nodeInfo : NodeInfo) (evtFields : EvtFields) : ℕ :=
  nodeInfo.systemUuid.text.length + evtFields.entityName.length + evtFields.entityId.length + 2

def eventIdLength (now : ℤ) (nodeInfo : NodeInfo) (evtFields : EvtFields) : ℕ :=
  (Imdb.formatInt (getCurrTimestampMs now)).length + entityIdLength nodeInfo evtFields + 1

def metricIdLength (evtFields : EvtFields) : ℕ :=
  evtFields.entityName.length + evtFields.metric.length + 13

def labelsLength (nodeInfo : NodeInfo) (evtFields : EvtFields) : ℕ :=
  nodeInfo.systemUuid.text.length + nodeInfo.hostIP.text.length + evtFields.pid.length +
    evtFields.comm.length + evtFields.ip.length + evtFields.containerId.length +
    evtFields.pod.length + evtFields.device.length + 77

def eventLength (now : ℤ) (nodeInfo : NodeInfo) (evtFields : EvtFields) : ℕ :=
  min 15 (Imdb.formatInt (getCurrTimestampMs now)).length +
    2 * eventIdLength now nodeInfo evtFields + entityIdLength nodeInfo evtFields +
    metricIdLength evtFields + labelsLength nodeInfo evtFields + evtFields.severTxt.length +
    evtFields.severNo.length + evtFields.body.length + 172

-- The ids have names to be built from and fit their arrays, and the document fits the buffer.
structure Fitting (now : ℤ) (nodeInfo : NodeInfo) (evtFields : EvtFields) (jsonSize : ℤ) :
    Prop where
  names : NamesGiven evtFields
  entityId : entityIdLength nodeInfo evtFields < ENTITY_ID_LEN
  eventId : eventIdLength now nodeInfo evtFields < EVENT_ID_LEN
  metricId : metricIdLength evtFields < METRIC_ID_LEN
  document : eventLength now nodeInfo evtFields < jsonSize

theorem length_entityIdOf :
    (entityIdOf nodeInfo evtFields).length = entityIdLength nodeInfo evtFields := by
  simp only [entityIdOf, entityIdText, entityIdLength, transferred, List.length_append,
    List.length_cons, List.length_map]
  omega

theorem length_eventIdOf :
    (eventIdOf now nodeInfo evtFields).length = eventIdLength now nodeInfo evtFields := by
  have hunderline : "_".toList.length = 1 := rfl
  simp only [eventIdOf, eventIdLength, List.length_append, length_entityIdOf, hunderline]
  omega

theorem length_metricIdOf : (metricIdOf evtFields).length = metricIdLength evtFields := by
  have hfront : METRIC_ID_FRONT.length = 11 := rfl
  simp only [metricIdOf, metricIdText, metricIdLength, List.length_append, List.length_cons, hfront]
  omega

theorem length_labels : (JsonDoc.objectText (labelMembers evtFields nodeInfo)).length =
    labelsLength nodeInfo evtFields := by
  have hname : "Host".toList.length = 4 ∧ "PID".toList.length = 3 ∧ "COMM".toList.length = 4 ∧
      "IP".toList.length = 2 ∧ "ContainerID".toList.length = 11 ∧ "POD".toList.length = 3 ∧
      "Device".toList.length = 6 := by decide
  obtain ⟨hhost, hpid, hcomm, hip, hcontainerId, hpod, hdevice⟩ := hname
  rw [JsonDoc.length_objectText (by simp [labelMembers, quotedMembers])]
  simp only [labelMembers, quotedMembers, evtLabels, List.map_cons, List.map_nil, List.sum_cons,
    List.sum_nil, JsonDoc.memberLength, JsonDoc.length_quoted, hostText, List.length_append,
    List.length_cons, labelsLength]
  omega

theorem length_attrs :
    (JsonDoc.objectText (attrsMembers (entityIdOf nodeInfo evtFields)
      (eventIdOf now nodeInfo evtFields))).length =
        entityIdLength nodeInfo evtFields + eventIdLength now nodeInfo evtFields + 49 := by
  have hname : "entity_id".toList.length = 9 ∧ "event_id".toList.length = 8 ∧
      "event_type".toList.length = 10 ∧ "sys".toList.length = 3 := by decide
  obtain ⟨hentityId, heventId, heventType, hsys⟩ := hname
  rw [JsonDoc.length_objectText (by simp [attrsMembers])]
  simp only [attrsMembers, List.map_cons, List.map_nil, List.sum_cons, List.sum_nil,
    JsonDoc.memberLength, JsonDoc.length_quoted, length_entityIdOf, length_eventIdOf]
  omega

theorem length_resource :
    (JsonDoc.objectText (resourceMembers (metricIdOf evtFields) evtFields nodeInfo)).length =
      metricIdLength evtFields + labelsLength nodeInfo evtFields + 23 := by
  have hname : "metric".toList.length = 6 ∧ "labels".toList.length = 6 := by decide
  obtain ⟨hmetric, hlabels⟩ := hname
  rw [JsonDoc.length_objectText (by simp [resourceMembers])]
  simp only [resourceMembers, List.map_cons, List.map_nil, List.sum_cons, List.sum_nil,
    JsonDoc.memberLength, JsonDoc.length_quoted, length_metricIdOf, length_labels]
  omega

theorem length_eventText :
    (eventText now nodeInfo evtFields).length = eventLength now nodeInfo evtFields := by
  have hname : (gEvtField .timestamp).length = 9 ∧ (gEvtField .eventId).length = 8 ∧
      (gEvtField .attributes).length = 10 ∧ (gEvtField .resource).length = 8 ∧
      (gEvtField .severTxt).length = 12 ∧ (gEvtField .severNo).length = 14 ∧
      (gEvtField .body).length = 4 := by decide
  obtain ⟨htimestamp, heventId, hattrs, hresource, hseverTxt, hseverNo, hbody⟩ := hname
  rw [eventText, JsonDoc.length_objectText (by simp [eventMembers])]
  simp only [eventMembers, List.map_cons, List.map_nil, List.sum_cons, List.sum_nil,
    JsonDoc.memberLength, JsonDoc.length_quoted, length_eventIdOf, length_attrs, length_resource,
    truncated, List.length_take, eventLength]
  omega

theorem fitting_iff : Fitting now nodeInfo evtFields jsonSize ↔
    Accepted now nodeInfo evtFields ∧ (eventText now nodeInfo evtFields).length < jsonSize := by
  rw [length_eventText]
  constructor
  · rintro ⟨hnames, hentityId, heventId, hmetricId, hdocument⟩
    refine ⟨⟨hnames, ?_, ?_, ?_⟩, hdocument⟩
    · rwa [length_entityIdOf]
    · rwa [length_eventIdOf]
    · rwa [length_metricIdOf]
  · rintro ⟨⟨hnames, hentityId, heventId, hmetricId⟩, hdocument⟩
    rw [length_entityIdOf] at hentityId
    rw [length_eventIdOf] at heventId
    rw [length_metricIdOf] at hmetricId
    exact ⟨hnames, hentityId, heventId, hmetricId, hdocument⟩

-- The fields between the quotes need no escapes, the severity number is one, and the time fits
-- its array: under this condition a line becomes the document of its fields.
theorem eventData2Json_tells_iff (hroom : jsonFmt.length = jsonSize.toNat) :
    TellsEvent now nodeInfo evtData.text
        (eventData2Json now nodeInfo locals evtData jsonFmt jsonSize) ↔
      ∀ evtFields, eventFields evtData.text = some evtFields →
        Fitting now nodeInfo evtFields jsonSize → EventPlain now nodeInfo evtFields := by
  by_cases hgiven : ∃ evtFields, eventFields evtData.text = some evtFields ∧
      Accepted now nodeInfo evtFields
  · obtain ⟨evtFields, hfields, haccepted⟩ := hgiven
    have houtcome := @eventData2Json_outcome now nodeInfo locals evtData evtFields jsonFmt jsonSize
      hfields haccepted hroom
    generalize eventData2Json now nodeInfo locals evtData jsonFmt jsonSize = run at houtcome
    cases houtcome with
    | @done buffer _ hfits htext =>
        constructor
        · rintro ⟨_, _, hrun, htells⟩ one hone -
          cases hrun
          cases hfields.symm.trans hone
          obtain ⟨text, _, hcString, hother, hread⟩ := htells rfl
          cases htext.symm.trans hcString
          cases hfields.symm.trans hother
          exact good_eventSlots.mp (reads_eventText.mp hread)
        · intro h
          have hplain := h evtFields hfields (fitting_iff.mpr ⟨haccepted, hfits⟩)
          refine ⟨buffer, 0, rfl, fun _ => ⟨_, evtFields, htext, hfields, ?_⟩⟩
          exact reads_eventText.mpr (good_eventSlots.mpr hplain)
    | cut _ hcut =>
        apply iff_of_true
        · exact tellsEvent_failed _ _
        · intro one hone hfitting
          cases hfields.symm.trans hone
          have hfits := (fitting_iff.mp hfitting).2
          omega
  · have hnone : ∀ evtFields, eventFields evtData.text = some evtFields →
        ¬ Accepted now nodeInfo evtFields := by
      intro evtFields hfields haccepted
      exact hgiven ⟨evtFields, hfields, haccepted⟩
    have hrefused := @eventData2Json_refused now nodeInfo locals evtData jsonFmt jsonSize hnone
    generalize eventData2Json now nodeInfo locals evtData jsonFmt jsonSize = run at hrefused
    cases hrefused
    apply iff_of_true
    · exact tellsEvent_failed _ _
    · intro evtFields hfields hfitting
      exact absurd (fitting_iff.mp hfitting).1 (hnone evtFields hfields)

def eventLineFields (body : Text) : EvtFields where
  entityName := "e".toList
  entityId := "i".toList
  metric := "m".toList
  pid := "1".toList
  comm := "c".toList
  ip := "0".toList
  containerId := "d".toList
  pod := "p".toList
  device := "v".toList
  severTxt := "INFO".toList
  severNo := "9".toList
  body := body

theorem eventData2Json_tells_plain :
    TellsEvent 1 shownNode plainLine.text
      (eventData2Json 1 shownNode shownLocals plainLine (List.replicate 400 '?') 400) := by
  have hfields : eventFields plainLine.text = some (eventLineFields "a".toList) := by rfl
  apply (eventData2Json_tells_iff List.length_replicate).mpr
  intro evtFields hone _
  cases hfields.symm.trans hone
  exact ⟨by decide +kernel, by decide, by decide⟩

def quoteLine : Line := eventLine "a\"b".toList (by decide) (by decide)

-- A quote in the body ends its string too early.
theorem eventData2Json_quote_in_body :
    ∃ buffer text, eventData2Json 1 shownNode shownLocals quoteLine (List.replicate 400 '?') 400 =
        some (buffer, 0) ∧
      buffer.cString 0 = some text ∧ JsonDoc.readDocument jsonQuoting text = none ∧
      ¬ TellsEvent 1 shownNode quoteLine.text
        (eventData2Json 1 shownNode shownLocals quoteLine (List.replicate 400 '?') 400) := by
  have hfields : eventFields quoteLine.text = some (eventLineFields "a\"b".toList) := by rfl
  have hfitting : Fitting 1 shownNode (eventLineFields "a\"b".toList) 400 :=
    ⟨by decide, by decide +kernel, by decide +kernel, by decide +kernel, by decide +kernel⟩
  have hread : JsonDoc.readDocument jsonQuoting (eventText 1 shownNode
      (eventLineFields "a\"b".toList)) = none := by
    rw [← Option.isNone_iff_eq_none]
    decide +kernel
  obtain ⟨haccepted, hfits⟩ := fitting_iff.mp hfitting
  have hroom : (List.replicate 400 '?').length = (400 : ℤ).toNat := List.length_replicate
  have houtcome := @eventData2Json_outcome 1 shownNode shownLocals quoteLine _ _ 400 hfields
    haccepted hroom
  generalize eventData2Json 1 shownNode shownLocals quoteLine (List.replicate 400 '?') 400 = run at *
  cases houtcome with
  | @done buffer _ _ htext =>
      refine ⟨buffer, _, rfl, htext, hread, ?_⟩
      rintro ⟨_, _, hrun, htells⟩
      cases hrun
      obtain ⟨text, evtFields, hcString, -, hdocument⟩ := htells rfl
      cases htext.symm.trans hcString
      cases hread.symm.trans hdocument
  | cut _ hcut => exact absurd hfits (by omega)

end Events

end Gopher.Ingress
