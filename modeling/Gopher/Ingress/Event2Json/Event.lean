import Gopher.Imdb.Json.Theorems
import Gopher.Ingress.Event2Json.Printing

-- What the converter of events prints, and when it is done.

namespace Gopher.Ingress

open Gopher.Lib Gopher.Lib.Fill

section Ids

variable {fill : Fill} {text : Text}

theorem buildId_of_prints (h : Prints fill (text ++ ['\x00']) [] 0) (hnul : '\x00' ∉ text)
    (array : CharBuffer) :
    buildId fill array = some (if text.length < array.length then some text else none) := by
  have hroom : Dest.HasRoom ⟨array, 0, array.length⟩ :=
    ⟨by dsimp only; omega, by dsimp only; omega⟩
  by_cases hlt : text.length < array.length
  · obtain ⟨after, hrun, hmoved⟩ := h.fits hroom (by simp; omega)
    have hprinted := hmoved.printed
    rw [List.append_nil] at hprinted
    rw [buildId, hrun, if_pos hlt, Option.bind_eq_bind, Option.bind_some]
    dsimp only
    rw [if_pos rfl, hprinted.cString (Nat.zero_le _) hnul]
    rfl
  · obtain ⟨after, hrun, -⟩ := h.cut hroom (by simp; omega)
    rw [buildId, hrun, if_neg hlt]
    rfl

-- The bytes of an id that are replaced.
def transferred (id : Text) : Text := id.map fun c => if c = '/' then ':' else c

theorem transferEntityId_append {id : Text} (hnul : '\x00' ∉ id) (behind : Text) :
    transferEntityId (id ++ '\x00' :: behind) = some (transferred id ++ '\x00' :: behind) := by
  induction id with
  | nil => rfl
  | cons c id ih =>
      rw [List.mem_cons, not_or] at hnul
      rw [List.cons_append, transferEntityId, if_neg (Ne.symm hnul.1), ih hnul.2]
      rfl

def entityIdText (machineId entityName origEntityId : Text) : Text :=
  machineId ++ '_' :: (entityName ++ '_' :: transferred origEntityId)

theorem prints_getEntityId {machineId entityName origEntityId : Text}
    (hcount : machineId.length + entityName.length + origEntityId.length + 3 < 2 ^ 31)
    (hnul : '\x00' ∉ origEntityId) :
    Prints (getEntityId machineId entityName origEntityId)
      (entityIdText machineId entityName origEntityId ++ ['\x00']) [] 0 := by
  have hfront := stores_andThen (stores_store machineId) <| stores_andThen (stores_store ['_']) <|
    stores_andThen (stores_store entityName) (stores_store ['_'])
  have hback := stores_andThen (stores_store origEntityId) (stores_store ['\x00'])
  have htransferred : (transferred origEntityId).length = origEntityId.length := List.length_map ..
  have hlength : (entityIdText machineId entityName origEntityId ++ ['\x00']).length =
      machineId.length + entityName.length + origEntityId.length + 3 := by
    simp [entityIdText, htransferred]
    omega
  constructor
  · constructor
    intro dest hroom hle
    rw [hlength] at hle
    have hsize := hroom.size_nonneg
    have hinside := hroom.inside
    obtain ⟨middle, hrun, hmiddle⟩ := hfront.fits hroom (by simp; omega)
    have hplace := hmiddle.place_eq
    have hleft := hmiddle.size_eq
    obtain ⟨last, hrun', hlast⟩ := hback.fits (hmiddle.hasRoom hroom (by simp; omega))
      (by rw [hleft]; simp; omega)
    -- behind the place that was recorded stands the id with its terminator
    have hwhole := hmiddle.trans hroom hlast
    have hsplit := hwhole.printed.eq_append
    rw [List.append_nil] at hsplit
    generalize hfrontText : machineId ++ (['_'] ++ (entityName ++ ['_'])) = front at *
    generalize last.buffer.drop _ = tail at hsplit
    have hfrontLength : (dest.buffer.take dest.place ++ front).length = middle.place := by
      rw [List.length_append, List.length_take, hplace]
      omega
    have hbuffer : last.buffer =
        dest.buffer.take dest.place ++ front ++ (origEntityId ++ '\x00' :: tail) := by
      rw [hsplit]
      simp
    have hresult : getEntityId machineId entityName origEntityId dest = some ({ last with
        buffer := dest.buffer.take dest.place ++ front ++
          (transferred origEntityId ++ '\x00' :: tail) }, true) := by
      rw [getEntityId, toInt_of_lt hcount, Option.bind_eq_bind, Option.bind_some,
        if_neg (by omega)]
      simp only [strbufAppendStr, strbufAppendChr, hrun, hrun', Option.bind_eq_bind,
        Option.bind_some]
      rw [hbuffer, List.drop_left' hfrontLength, List.take_left' hfrontLength,
        transferEntityId_append hnul]
      rfl
    have htext : dest.buffer.take dest.place ++ front ++
        (transferred origEntityId ++ '\x00' :: tail) = dest.buffer.take dest.place ++
          (entityIdText machineId entityName origEntityId ++ ['\x00'] ++ []) ++ tail := by
      simp [entityIdText, ← hfrontText]
    have hmoved : (front ++ (origEntityId ++ ['\x00'])).length =
        (entityIdText machineId entityName origEntityId ++ ['\x00']).length := by
      rw [hlength, ← hfrontText]
      simp
      omega
    refine ⟨_, hresult, CharBuffer.Printed.of_eq_append (by omega) ?_ htext, ?_, ?_⟩
    · have hsame := hwhole.printed.length_eq
      rw [hbuffer] at hsame
      simpa [htransferred] using hsame
    · rw [← hmoved]
      exact hwhole.place_eq
    · rw [← hmoved]
      exact hwhole.size_eq
  · intro dest hroom hlt
    rw [hlength] at hlt
    refine ⟨dest, ?_, rfl⟩
    rw [getEntityId, toInt_of_lt hcount, Option.bind_eq_bind, Option.bind_some, if_pos (by omega)]
    rfl

theorem prints_getEventId (timestamp : ℤ) (entityId : Text) :
    Prints (getEventId timestamp entityId)
      (Imdb.formatInt timestamp ++ "_".toList ++ entityId ++ ['\x00']) [] 0 :=
  (prints_snprintf _).andThen_stores (stores_store ['\x00']) (Nat.le_refl 0)

def metricIdText (entityName metricName : Text) : Text :=
  METRIC_ID_FRONT ++ '_' :: (entityName ++ '_' :: metricName)

theorem prints_getMetricId {entityName metricName : Text}
    (hcount : entityName.length + metricName.length + 14 < 2 ^ 31) :
    Prints (getMetricId entityName metricName)
      (metricIdText entityName metricName ++ ['\x00']) [] 0 := by
  have hstores := stores_andThen (stores_store METRIC_ID_FRONT) <|
    stores_andThen (stores_store ['_']) <| stores_andThen (stores_store entityName) <|
    stores_andThen (stores_store ['_']) <| stores_andThen (stores_store metricName)
    (stores_store ['\x00'])
  have hfront : METRIC_ID_FRONT.length = 11 := rfl
  have hlength : (metricIdText entityName metricName ++ ['\x00']).length =
      METRIC_ID_FRONT.length + entityName.length + metricName.length + 3 := by
    simp [metricIdText]
    omega
  have htext : metricIdText entityName metricName ++ ['\x00'] = METRIC_ID_FRONT ++ (['_'] ++
      (entityName ++ (['_'] ++ (metricName ++ ['\x00'])))) := by
    simp [metricIdText]
  rw [← htext] at hstores
  have hprints := hstores.prints_of_check (fun dest => show dest.size <
    ((metricIdText entityName metricName ++ ['\x00']).length : ℕ) ↔ _ by rw [Nat.add_zero])
  apply hprints.congr
  intro dest
  rw [getMetricId, toInt_of_lt (show METRIC_ID_FRONT.length + entityName.length +
    metricName.length + 3 < 2 ^ 31 by omega), ← hlength]
  rfl

end Ids

section EventText

variable {nodeInfo : NodeInfo} {evtFields : EvtFields} {timestamp : ℤ}
  {entityId eventId metricId : Text}

def quotedMembers (members : List (Text × Text)) : List (Text × Text) :=
  members.map fun (name, field) => (name, JsonDoc.quoted field)

-- The members of an object behind its first one.
def behindCommas (members : List (Text × Text)) : Text :=
  (members.map fun (name, text) => ',' :: JsonDoc.memberText name text).flatten

theorem prints_fillLabels {label : Text × Text} {labels : List (Text × Text)}
    (hcount : ∀ one ∈ label :: labels, one.1.length + one.2.length + 5 < 2 ^ 31) :
    Prints (fillLabels (label :: labels)) (behindCommas (quotedMembers (label :: labels))) [] 1 := by
  induction labels generalizing label with
  | nil =>
      have hfirst := (prints_appendChr ',').andThen
        (prints_fillLogFieldSimple _ _ true (hcount label (by simp))) (Nat.zero_le _)
      rw [fillLabels, fillLabels, andThen_done]
      simpa [behindCommas, quotedMembers, valueText] using hfirst
  | cons next labels ih =>
      have hfirst := (prints_appendChr ',').andThen
        (prints_fillLogFieldSimple _ _ true (hcount label (by simp))) (Nat.zero_le _)
      have hnext := ih fun one hone => hcount one (List.mem_cons_of_mem _ hone)
      have hwhole := hfirst.andThen hnext (by simp [behindCommas, quotedMembers])
      rw [fillLabels, ← andThen_assoc]
      simpa [behindCommas, quotedMembers, valueText] using hwhole

def hostText (nodeInfo : NodeInfo) : Text :=
  nodeInfo.systemUuid.text ++ '-' :: nodeInfo.hostIP.text

-- Both parts of it are short, so that nothing is cut off.
theorem truncated_hostText (nodeInfo : NodeInfo) :
    truncated LINE_BUF_LEN (nodeInfo.systemUuid.text ++ "-".toList ++ nodeInfo.hostIP.text) =
      hostText nodeInfo := by
  have huuid := nodeInfo.systemUuid.fits
  have hip := nodeInfo.hostIP.fits
  have hlength : (hostText nodeInfo).length ≤ LINE_BUF_LEN - 1 := by
    simp only [hostText, List.length_append, List.length_cons, LINE_BUF_LEN]
    unfold MAX_IMDB_SYSTEM_UUID_LEN at huuid
    unfold MAX_IMDB_HOSTIP_LEN at hip
    omega
  have htext : nodeInfo.systemUuid.text ++ "-".toList ++ nodeInfo.hostIP.text =
      hostText nodeInfo := by
    simp [hostText]
  rw [htext, truncated, List.take_of_length_le hlength]

theorem length_hostText_lt (nodeInfo : NodeInfo) : (hostText nodeInfo).length < 104 := by
  have huuid := nodeInfo.systemUuid.fits
  have hip := nodeInfo.hostIP.fits
  simp only [hostText, List.length_append, List.length_cons]
  unfold MAX_IMDB_SYSTEM_UUID_LEN at huuid
  unfold MAX_IMDB_HOSTIP_LEN at hip
  omega

def labelMembers (evtFields : EvtFields) (nodeInfo : NodeInfo) : List (Text × Text) :=
  quotedMembers (("Host".toList, hostText nodeInfo) :: evtLabels evtFields)

theorem prints_fillEvtFieldLabels
    (hcount : ∀ label ∈ evtLabels evtFields, label.1.length + label.2.length + 5 < 2 ^ 31) :
    Prints (fillEvtFieldLabels evtFields nodeInfo)
      (JsonDoc.memberText "labels".toList (JsonDoc.objectText (labelMembers evtFields nodeInfo)))
      [] 0 := by
  have hlength := length_hostText_lt nodeInfo
  have hname : "Host".toList.length = 4 := rfl
  have hhost := prints_fillLogFieldSimple (hostText nodeInfo) "Host".toList true
    (by rw [hname]; omega)
  have hlabels : Prints (fillLabels (evtLabels evtFields)) _ [] 1 := prints_fillLabels hcount
  have hwhole := (prints_appendStr "\"labels\":\x7b".toList).andThen
    (hhost.andThen (hlabels.andThen (prints_appendChr '\x7d') (by simp))
      (by simp [behindCommas, quotedMembers])) (Nat.zero_le _)
  have htext : JsonDoc.memberText "labels".toList
      (JsonDoc.objectText (labelMembers evtFields nodeInfo)) =
      "\"labels\":\x7b".toList ++ (JsonDoc.memberText "Host".toList
        (valueText (hostText nodeInfo) true) ++
          (behindCommas (quotedMembers (evtLabels evtFields)) ++ ['\x7d'])) := by
    simp [JsonDoc.memberText, JsonDoc.objectText, labelMembers, quotedMembers,
      JsonDoc.membersText_cons, behindCommas, valueText]
  rw [htext, fillEvtFieldLabels, truncated_hostText]
  exact hwhole

def resourceMembers (metricId : Text) (evtFields : EvtFields) (nodeInfo : NodeInfo) :
    List (Text × Text) :=
  [("metric".toList, JsonDoc.quoted metricId),
    ("labels".toList, JsonDoc.objectText (labelMembers evtFields nodeInfo))]

theorem prints_fillEvtFieldResource
    (hcount : ∀ label ∈ evtLabels evtFields, label.1.length + label.2.length + 5 < 2 ^ 31) :
    Prints (fillEvtFieldResource metricId evtFields nodeInfo)
      (JsonDoc.memberText (gEvtField .resource)
        (JsonDoc.objectText (resourceMembers metricId evtFields nodeInfo))) [] 0 := by
  have hfront := prints_snprintf ("\"".toList ++ gEvtField .resource ++
    "\":\x7b\"metric\":\"".toList ++ metricId ++ "\",".toList)
  have hlabels : Prints (fillEvtFieldLabels evtFields nodeInfo) _ [] 0 :=
    prints_fillEvtFieldLabels hcount
  have hwhole := hfront.andThen (hlabels.andThen (prints_appendChr '\x7d') (Nat.zero_le _))
    (by simp [JsonDoc.memberText])
  have htext : JsonDoc.memberText (gEvtField .resource)
      (JsonDoc.objectText (resourceMembers metricId evtFields nodeInfo)) =
      "\"".toList ++ gEvtField .resource ++ "\":\x7b\"metric\":\"".toList ++ metricId ++
        "\",".toList ++ (JsonDoc.memberText "labels".toList
          (JsonDoc.objectText (labelMembers evtFields nodeInfo)) ++ ['\x7d']) := by
    rw [resourceMembers]
    generalize JsonDoc.objectText (labelMembers evtFields nodeInfo) = labels
    simp [JsonDoc.memberText, JsonDoc.objectText, JsonDoc.membersText, JsonDoc.quoted]
  rw [htext]
  exact hwhole

def attrsMembers (entityId eventId : Text) : List (Text × Text) :=
  [("entity_id".toList, JsonDoc.quoted entityId), ("event_id".toList, JsonDoc.quoted eventId),
    ("event_type".toList, JsonDoc.quoted "sys".toList)]

theorem prints_fillEvtFieldAttrs :
    Prints (fillEvtFieldAttrs entityId eventId)
      (JsonDoc.memberText (gEvtField .attributes)
        (JsonDoc.objectText (attrsMembers entityId eventId)))
      ['\x00'] 1 := by
  have hprints := prints_snprintf ("\"".toList ++ gEvtField .attributes ++
    "\":\x7b\"entity_id\":\"".toList ++ entityId ++ "\",\"event_id\":\"".toList ++ eventId ++
      "\",\"event_type\":\"sys\"\x7d".toList)
  have htext : JsonDoc.memberText (gEvtField .attributes)
      (JsonDoc.objectText (attrsMembers entityId eventId)) = "\"".toList ++ gEvtField .attributes ++
        "\":\x7b\"entity_id\":\"".toList ++ entityId ++ "\",\"event_id\":\"".toList ++ eventId ++
          "\",\"event_type\":\"sys\"\x7d".toList := by
    simp [JsonDoc.memberText, JsonDoc.objectText, attrsMembers, JsonDoc.membersText, JsonDoc.quoted]
  rw [htext]
  exact hprints

def eventMembers (nodeInfo : NodeInfo) (timestamp : ℤ) (entityId eventId metricId : Text)
    (evtFields : EvtFields) : List (Text × Text) :=
  [(gEvtField .timestamp, truncated 16 (Imdb.formatInt timestamp)),
    (gEvtField .eventId, JsonDoc.quoted eventId),
    (gEvtField .attributes, JsonDoc.objectText (attrsMembers entityId eventId)),
    (gEvtField .resource, JsonDoc.objectText (resourceMembers metricId evtFields nodeInfo)),
    (gEvtField .severTxt, JsonDoc.quoted evtFields.severTxt),
    (gEvtField .severNo, evtFields.severNo),
    (gEvtField .body, JsonDoc.quoted evtFields.body)]

-- The fields are parts of a line.
structure EvtFields.Short (evtFields : EvtFields) : Prop where
  labels : ∀ label ∈ evtLabels evtFields, label.1.length + label.2.length + 5 < 2 ^ 31
  severTxt : evtFields.severTxt.length < 2 ^ 29
  severNo : evtFields.severNo.length < 2 ^ 29
  body : evtFields.body.length < 2 ^ 29

theorem prints_fillEvtFields_cons {fieldNo : EvtField} {fieldNos : List EvtField}
    {text rest mark : Text} {slack slackRest : ℕ} (hbody : fieldNo ≠ .body)
    (hfield : Prints (fillEvtField nodeInfo timestamp entityId eventId metricId evtFields fieldNo)
      text mark slack) (hslack : slack ≤ 1)
    (hrest : Prints (fillEvtFields nodeInfo timestamp entityId eventId metricId evtFields fieldNos)
      rest [] slackRest) :
    Prints (fillEvtFields nodeInfo timestamp entityId eventId metricId evtFields
      (fieldNo :: fieldNos)) (text ++ ',' :: rest) [] slackRest := by
  rw [fillEvtFields, if_neg hbody]
  apply hfield.andThen ((prints_appendChr ',').andThen hrest (Nat.zero_le _))
  rw [List.length_append, List.length_singleton]
  omega

def fillEvent (nodeInfo : NodeInfo) (timestamp : ℤ) (entityId eventId metricId : Text)
    (evtFields : EvtFields) : Fill :=
  (strbufAppendChrWithCheck '\x7b').andThen <|
    (fillEvtFields nodeInfo timestamp entityId eventId metricId evtFields
      [.timestamp, .eventId, .attributes, .resource, .severTxt, .severNo, .body]).andThen <|
    strbufAppendStrWithCheck "\x7d\x00".toList

theorem prints_eventMembers (hshort : evtFields.Short) (heventId : eventId.length < 2 ^ 29) :
    ∃ text, Prints (fillEvtFields nodeInfo timestamp entityId eventId metricId evtFields
        [.timestamp, .eventId, .attributes, .resource, .severTxt, .severNo, .body]) text [] 1 ∧
      JsonDoc.objectText (eventMembers nodeInfo timestamp entityId eventId metricId evtFields) =
        '\x7b' :: (text ++ ['\x7d']) := by
  have hname : ∀ fieldNo, (gEvtField fieldNo).length ≤ 14 := by
    intro fieldNo
    cases fieldNo <;> decide
  have hsimple : ∀ (fieldNo : EvtField) {field : Text} (fillQuote : Bool), field.length < 2 ^ 29 →
      Prints (fillLogFieldSimple field (gEvtField fieldNo) fillQuote)
        (JsonDoc.memberText (gEvtField fieldNo) (valueText field fillQuote)) [] 1 := by
    intro fieldNo field fillQuote hlength
    have hle := hname fieldNo
    exact prints_fillLogFieldSimple field (gEvtField fieldNo) fillQuote (by omega)
  have hstamp := length_truncated_le 16 (Imdb.formatInt timestamp)
  have hlast : Prints (fillEvtFields nodeInfo timestamp entityId eventId metricId evtFields [.body])
      (JsonDoc.memberText (gEvtField .body) (JsonDoc.quoted evtFields.body)) [] 1 := by
    rw [fillEvtFields, if_pos rfl, fillEvtFields, andThen_done, andThen_done]
    exact hsimple .body true hshort.body
  have hgroup := prints_fillEvtFields_cons (by decide)
      (show Prints (fillEvtField nodeInfo timestamp entityId eventId metricId evtFields .timestamp)
        _ [] 1 from hsimple .timestamp false (by omega)) (Nat.le_refl 1) <|
    prints_fillEvtFields_cons (by decide)
      (show Prints (fillEvtField nodeInfo timestamp entityId eventId metricId evtFields .eventId)
        _ [] 1 from hsimple .eventId true heventId) (Nat.le_refl 1) <|
    prints_fillEvtFields_cons (by decide)
      (show Prints (fillEvtField nodeInfo timestamp entityId eventId metricId evtFields .attributes)
        _ ['\x00'] 1 from prints_fillEvtFieldAttrs) (Nat.le_refl 1) <|
    prints_fillEvtFields_cons (by decide)
      (show Prints (fillEvtField nodeInfo timestamp entityId eventId metricId evtFields .resource)
        _ [] 0 from prints_fillEvtFieldResource hshort.labels) (Nat.zero_le 1) <|
    prints_fillEvtFields_cons (by decide)
      (show Prints (fillEvtField nodeInfo timestamp entityId eventId metricId evtFields .severTxt)
        _ [] 1 from hsimple .severTxt true hshort.severTxt) (Nat.le_refl 1) <|
    prints_fillEvtFields_cons (by decide)
      (show Prints (fillEvtField nodeInfo timestamp entityId eventId metricId evtFields .severNo)
        _ [] 1 from hsimple .severNo false hshort.severNo) (Nat.le_refl 1) hlast
  refine ⟨_, hgroup, ?_⟩
  rw [eventMembers]
  generalize JsonDoc.objectText (attrsMembers entityId eventId) = attrs
  generalize JsonDoc.objectText (resourceMembers metricId evtFields nodeInfo) = resource
  simp only [JsonDoc.objectText, JsonDoc.membersText, valueText, if_true, Bool.false_eq_true,
    if_false, List.append_assoc, List.cons_append]

theorem prints_fillEvent (hshort : evtFields.Short) (heventId : eventId.length < 2 ^ 29) :
    Prints (fillEvent nodeInfo timestamp entityId eventId metricId evtFields)
      (JsonDoc.objectText (eventMembers nodeInfo timestamp entityId eventId metricId evtFields) ++
        ['\x00']) [] 0 := by
  obtain ⟨text, hprints, htext⟩ := @prints_eventMembers nodeInfo evtFields timestamp entityId
    eventId metricId hshort heventId
  have hwhole := (prints_appendChr '\x7b').andThen
    (hprints.andThen (prints_appendStr "\x7d\x00".toList) (by decide)) (Nat.zero_le _)
  rw [fillEvent, htext]
  simpa using hwhole

end EventText

section Outcome

variable {now : ℤ} {nodeInfo : NodeInfo} {locals : Locals} {evtData : Line}
  {evtFields : EvtFields} {jsonFmt : CharBuffer} {jsonSize : ℤ}

def EvtFields.all (evtFields : EvtFields) : List Text :=
  [evtFields.entityName, evtFields.entityId, evtFields.metric, evtFields.pid, evtFields.comm,
    evtFields.ip, evtFields.containerId, evtFields.pod, evtFields.device, evtFields.severTxt,
    evtFields.severNo, evtFields.body]

-- The fields of an event line.
def eventFields (line : Text) : Option EvtFields :=
  if line.head? ≠ some '|' then none
  else
    match fieldsOf line with
    | entityName :: entityId :: metric :: pid :: comm :: ip :: containerId :: pod :: device ::
        severTxt :: severNo :: body :: _ =>
        some ⟨entityName, entityId, metric, pid, comm, ip, containerId, pod, device, severTxt,
          severNo, body⟩
    | _ => none

def NamesGiven (evtFields : EvtFields) : Prop :=
  evtFields.entityName ≠ [] ∧ evtFields.entityId ≠ [] ∧ evtFields.metric ≠ []

instance (evtFields : EvtFields) : Decidable (NamesGiven evtFields) :=
  inferInstanceAs (Decidable (_ ∧ _))

theorem getEventFields_eq (line : Text) :
    getEventFields line = (eventFields line).filter fun evtFields => NamesGiven evtFields := by
  cases line with
  | nil => rfl
  | cons bar rest =>
      by_cases hbar : bar = '|'
      · subst hbar
        rw [getEventFields, eventFields, if_neg (by simp), if_neg (by simp), readFields_eq]
        generalize fieldsOf ('|' :: rest) = fields
        by_cases hmany : 12 ≤ fields.length
        · rw [if_pos hmany]
          match fields, hmany with
          | entityName :: entityId :: metric :: pid :: comm :: ip :: containerId :: pod :: device ::
              severTxt :: severNo :: body :: more, _ =>
              have hnames : (entityName.length = 0 ∨ entityId.length = 0 ∨ metric.length = 0) ↔
                  ¬ NamesGiven ⟨entityName, entityId, metric, pid, comm, ip, containerId, pod,
                    device, severTxt, severNo, body⟩ := by
                simp only [NamesGiven, List.length_eq_zero_iff]
                tauto
              simp only [List.take, Option.filter, hnames, Option.bind_eq_bind, Option.bind_some]
              split <;> simp_all
        · rw [if_neg hmany]
          split
          · simp at hmany
          · rfl
      · rw [getEventFields, eventFields, if_pos (by simpa using hbar),
          if_pos (by simpa using hbar)]
        rfl

theorem eventFields_eq_some {line : Text} (h : eventFields line = some evtFields) :
    ∃ rest more, line = '|' :: rest ∧ fieldsOf line = evtFields.all ++ more := by
  unfold eventFields at h
  split_ifs at h with hhead
  rw [ne_eq, not_not] at hhead
  obtain ⟨rest, hrest⟩ := List.head?_eq_some_iff.mp hhead
  split at h
  · rename_i more hfields
    cases h
    exact ⟨rest, more, hrest, hfields⟩
  · cases h

theorem infix_of_mem_all (h : eventFields evtData.text = some evtFields) :
    ∀ field ∈ evtFields.all, field <:+: evtData.text := by
  obtain ⟨rest, more, hline, hfields⟩ := eventFields_eq_some h
  intro field hfield
  have hmem : field ∈ fieldsOf ('|' :: rest) := by
    rw [← hline, hfields]
    exact List.mem_append_left _ hfield
  rw [hline]
  exact (infix_of_mem_fieldsOf hmem).trans (List.suffix_cons '|' rest).isInfix

theorem length_all_lt (h : eventFields evtData.text = some evtFields) :
    ∀ field ∈ evtFields.all, field.length < 2 ^ 29 := by
  intro field hfield
  have hle := (infix_of_mem_all h field hfield).length_le
  have hfits := evtData.fits
  omega

theorem nul_not_mem_all (h : eventFields evtData.text = some evtFields) :
    ∀ field ∈ evtFields.all, '\x00' ∉ field :=
  fun field hfield hnul => evtData.noNul ((infix_of_mem_all h field hfield).subset hnul)

theorem short_of_eventFields (h : eventFields evtData.text = some evtFields) :
    evtFields.Short := by
  have hshort := length_all_lt h
  simp only [EvtFields.all, List.forall_mem_cons] at hshort
  obtain ⟨-, -, -, hpid, hcomm, hip, hcontainerId, hpod, hdevice, hseverTxt, hseverNo, hbody, -⟩ :=
    hshort
  refine ⟨?_, hseverTxt, hseverNo, hbody⟩
  have hname : ∀ label ∈ evtLabels evtFields, label.1.length ≤ 11 := by
    simp only [evtLabels, List.forall_mem_cons]
    exact ⟨by decide, by decide, by decide, by decide, by decide, by decide, by simp⟩
  have hfield : ∀ label ∈ evtLabels evtFields, label.2.length < 2 ^ 29 := by
    simp only [evtLabels, List.forall_mem_cons]
    exact ⟨hpid, hcomm, hip, hcontainerId, hpod, hdevice, by simp⟩
  intro label hlabel
  have h1 := hname label hlabel
  have h2 := hfield label hlabel
  omega

def entityIdOf (nodeInfo : NodeInfo) (evtFields : EvtFields) : Text :=
  entityIdText nodeInfo.systemUuid.text evtFields.entityName evtFields.entityId

def eventIdOf (now : ℤ) (nodeInfo : NodeInfo) (evtFields : EvtFields) : Text :=
  Imdb.formatInt (getCurrTimestampMs now) ++ "_".toList ++ entityIdOf nodeInfo evtFields

def metricIdOf (evtFields : EvtFields) : Text :=
  metricIdText evtFields.entityName evtFields.metric

-- The ids have names to be built from, and fit their arrays.
structure Accepted (now : ℤ) (nodeInfo : NodeInfo) (evtFields : EvtFields) : Prop where
  names : NamesGiven evtFields
  entityId : (entityIdOf nodeInfo evtFields).length < ENTITY_ID_LEN
  eventId : (eventIdOf now nodeInfo evtFields).length < EVENT_ID_LEN
  metricId : (metricIdOf evtFields).length < METRIC_ID_LEN

-- The document of an event.
def eventText (now : ℤ) (nodeInfo : NodeInfo) (evtFields : EvtFields) : Text :=
  JsonDoc.objectText (eventMembers nodeInfo (getCurrTimestampMs now) (entityIdOf nodeInfo evtFields)
    (eventIdOf now nodeInfo evtFields) (metricIdOf evtFields) evtFields)

section Ids

variable (h : eventFields evtData.text = some evtFields)

include h

theorem nul_not_mem_entityIdOf : '\x00' ∉ entityIdOf nodeInfo evtFields := by
  have hfields := nul_not_mem_all h
  have hnode := nodeInfo.noNul
  simp only [EvtFields.all, List.forall_mem_cons] at hfields
  simp only [List.mem_append, not_or] at hnode
  have htransferred : '\x00' ∉ transferred evtFields.entityId := by
    intro hmem
    obtain ⟨c, hc, heq⟩ := List.mem_map.mp hmem
    split at heq
    · cases heq
    · exact hfields.2.1 (heq ▸ hc)
  simp [entityIdOf, entityIdText, hnode, hfields, htransferred]

theorem nul_not_mem_eventIdOf : '\x00' ∉ eventIdOf now nodeInfo evtFields := by
  have hentity := @nul_not_mem_entityIdOf nodeInfo _ _ h
  have hstamp := Imdb.noNul_formatInt (getCurrTimestampMs now)
  rw [Imdb.NoNul] at hstamp
  simp [eventIdOf, hentity, hstamp]

theorem nul_not_mem_metricIdOf : '\x00' ∉ metricIdOf evtFields := by
  have hfields := nul_not_mem_all h
  simp only [EvtFields.all, List.forall_mem_cons] at hfields
  have hfront : '\x00' ∉ METRIC_ID_FRONT := by decide
  simp [metricIdOf, metricIdText, hfront, hfields]

theorem buildId_entityId : buildId (getEntityId nodeInfo.systemUuid.text evtFields.entityName
    evtFields.entityId) locals.entityId =
      some (if (entityIdOf nodeInfo evtFields).length < ENTITY_ID_LEN then
        some (entityIdOf nodeInfo evtFields) else none) := by
  have hshort := length_all_lt h
  have hfields := nul_not_mem_all h
  have huuid := nodeInfo.systemUuid.fits
  simp only [EvtFields.all, List.forall_mem_cons] at hshort hfields
  unfold MAX_IMDB_SYSTEM_UUID_LEN at huuid
  rw [← locals.length_entityId]
  exact buildId_of_prints (prints_getEntityId (by omega) hfields.2.1) (nul_not_mem_entityIdOf h) _

theorem buildId_eventId : buildId (getEventId (getCurrTimestampMs now)
    (entityIdOf nodeInfo evtFields)) locals.eventId =
      some (if (eventIdOf now nodeInfo evtFields).length < EVENT_ID_LEN then
        some (eventIdOf now nodeInfo evtFields) else none) := by
  rw [← locals.length_eventId]
  exact buildId_of_prints (prints_getEventId _ _) (nul_not_mem_eventIdOf h) _

theorem buildId_metricId : buildId (getMetricId evtFields.entityName evtFields.metric)
    locals.metricId =
      some (if (metricIdOf evtFields).length < METRIC_ID_LEN then some (metricIdOf evtFields)
        else none) := by
  have hshort := length_all_lt h
  simp only [EvtFields.all, List.forall_mem_cons] at hshort
  rw [← locals.length_metricId]
  exact buildId_of_prints (prints_getMetricId (by omega)) (nul_not_mem_metricIdOf h) _

theorem nul_not_mem_eventText : '\x00' ∉ eventText now nodeInfo evtFields := by
  have hfields := nul_not_mem_all h
  have hnode := nodeInfo.noNul
  have hstamp := Imdb.noNul_formatInt (getCurrTimestampMs now)
  have hentityId := @nul_not_mem_entityIdOf nodeInfo _ _ h
  have heventId := @nul_not_mem_eventIdOf now nodeInfo _ _ h
  have hmetricId := nul_not_mem_metricIdOf h
  simp only [EvtFields.all, List.forall_mem_cons] at hfields
  obtain ⟨-, -, -, hpid, hcomm, hip, hcontainerId, hpod, hdevice, hseverTxt, hseverNo, hbody, -⟩ :=
    hfields
  simp only [List.mem_append, not_or] at hnode
  have hquoted : ∀ {name text : Text}, '\x00' ∉ name → '\x00' ∉ text →
      '\x00' ∉ name ∧ '\x00' ∉ JsonDoc.quoted text := by
    intro name text hname htext
    simp [JsonDoc.quoted, hname, htext]
  have hhost : '\x00' ∉ hostText nodeInfo := by simp [hostText, hnode]
  have hlabels : '\x00' ∉ JsonDoc.objectText (labelMembers evtFields nodeInfo) := by
    apply nul_not_mem_objectText
    simp only [labelMembers, quotedMembers, evtLabels, List.map_cons, List.map_nil,
      List.forall_mem_cons]
    exact ⟨hquoted (by decide) hhost, hquoted (by decide) hpid, hquoted (by decide) hcomm,
      hquoted (by decide) hip, hquoted (by decide) hcontainerId, hquoted (by decide) hpod,
      hquoted (by decide) hdevice, by simp⟩
  have hattrs : '\x00' ∉ JsonDoc.objectText (attrsMembers (entityIdOf nodeInfo evtFields)
      (eventIdOf now nodeInfo evtFields)) := by
    apply nul_not_mem_objectText
    simp only [attrsMembers, List.forall_mem_cons]
    exact ⟨hquoted (by decide) hentityId, hquoted (by decide) heventId,
      hquoted (by decide) (by decide), by simp⟩
  have hresource : '\x00' ∉ JsonDoc.objectText
      (resourceMembers (metricIdOf evtFields) evtFields nodeInfo) := by
    apply nul_not_mem_objectText
    simp only [resourceMembers, List.forall_mem_cons]
    exact ⟨hquoted (by decide) hmetricId, ⟨by decide, hlabels⟩, by simp⟩
  apply nul_not_mem_objectText
  simp only [eventMembers, List.forall_mem_cons]
  exact ⟨⟨by decide, fun hmem => hstamp (List.take_subset _ _ hmem)⟩,
    hquoted (by decide) heventId, ⟨by decide, hattrs⟩, ⟨by decide, hresource⟩,
    hquoted (by decide) hseverTxt, ⟨by decide, hseverNo⟩, hquoted (by decide) hbody, by simp⟩

-- Behind the ids, the converter prints the document.
theorem eventData2Json_eq (hnames : NamesGiven evtFields) :
    eventData2Json now nodeInfo locals evtData jsonFmt jsonSize =
      if (entityIdOf nodeInfo evtFields).length < ENTITY_ID_LEN ∧
          (eventIdOf now nodeInfo evtFields).length < EVENT_ID_LEN ∧
          (metricIdOf evtFields).length < METRIC_ID_LEN then
        result (fillEvent nodeInfo (getCurrTimestampMs now) (entityIdOf nodeInfo evtFields)
          (eventIdOf now nodeInfo evtFields) (metricIdOf evtFields) evtFields
          ⟨jsonFmt, 0, jsonSize⟩)
      else some (jsonFmt, -1) := by
  have hfields : getEventFields evtData.text = some evtFields := by
    rw [getEventFields_eq, h]
    simp [Option.filter, hnames]
  rw [eventData2Json, hfields]
  dsimp only
  rw [buildId_entityId h]
  by_cases hentityId : (entityIdOf nodeInfo evtFields).length < ENTITY_ID_LEN
  · rw [if_pos hentityId, Option.bind_eq_bind, Option.bind_some]
    dsimp only
    rw [buildId_eventId h]
    by_cases heventId : (eventIdOf now nodeInfo evtFields).length < EVENT_ID_LEN
    · rw [if_pos heventId, Option.bind_some]
      dsimp only
      rw [buildId_metricId h]
      by_cases hmetricId : (metricIdOf evtFields).length < METRIC_ID_LEN
      · rw [if_pos hmetricId, if_pos ⟨hentityId, heventId, hmetricId⟩]
        rfl
      · rw [if_neg hmetricId, if_neg (by simp [hmetricId])]
        rfl
    · rw [if_neg heventId, if_neg (by simp [heventId])]
      rfl
  · rw [if_neg hentityId, if_neg (by simp [hentityId])]
    rfl

theorem eventData2Json_outcome (haccepted : Accepted now nodeInfo evtFields)
    (hroom : jsonFmt.length = jsonSize.toNat) :
    Outcome (eventText now nodeInfo evtFields) jsonFmt jsonSize
      (eventData2Json now nodeInfo locals evtData jsonFmt jsonSize) := by
  have hlength := haccepted.eventId
  have hprints := @prints_fillEvent nodeInfo evtFields (getCurrTimestampMs now)
    (entityIdOf nodeInfo evtFields) (eventIdOf now nodeInfo evtFields) (metricIdOf evtFields)
    (short_of_eventFields h) (Nat.lt_trans hlength (by decide))
  rw [eventData2Json_eq h haccepted.names,
    if_pos ⟨haccepted.entityId, haccepted.eventId, haccepted.metricId⟩]
  exact outcome_of_prints '\x7b' hprints (nul_not_mem_eventText h) hroom

end Ids

-- The line has the twelve fields, and ids can be built from them.
theorem eventData2Json_refused
    (h : ∀ evtFields, eventFields evtData.text = some evtFields →
      ¬ Accepted now nodeInfo evtFields) :
    Refused jsonFmt (eventData2Json now nodeInfo locals evtData jsonFmt jsonSize) := by
  by_cases hgiven : ∃ evtFields, eventFields evtData.text = some evtFields ∧ NamesGiven evtFields
  · obtain ⟨evtFields, hfields, hnames⟩ := hgiven
    have hrefused := h evtFields hfields
    rw [eventData2Json_eq hfields hnames, if_neg]
    · exact .refused rfl
    · rintro ⟨hentityId, heventId, hmetricId⟩
      exact hrefused ⟨hnames, hentityId, heventId, hmetricId⟩
  · have hnone : getEventFields evtData.text = none := by
      rw [getEventFields_eq, Option.filter_eq_none_iff]
      intro evtFields hfields hnames
      exact hgiven ⟨evtFields, hfields, by simpa using hnames⟩
    rw [eventData2Json, hnone]
    exact .refused rfl

end Outcome

end Gopher.Ingress
