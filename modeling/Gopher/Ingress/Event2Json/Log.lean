import Gopher.Ingress.Event2Json.Printing

-- What the converter of logs prints, and when it is done.

namespace Gopher.Ingress

open Gopher.Lib Gopher.Lib.Fill

section Log

variable {nodeInfo : NodeInfo}

-- The members that are added to the resource of a log.
def hostMembers (nodeInfo : NodeInfo) : List (Text × Text) :=
  [("host.id".toList, JsonDoc.quoted nodeInfo.systemUuid.text),
    ("host.name".toList, JsonDoc.quoted nodeInfo.hostName.text)]

-- The closing brace of the resource stands behind them.
def resourceText (nodeInfo : NodeInfo) (resource : Text) : Text :=
  resource.dropLast ++ ',' :: JsonDoc.membersText (hostMembers nodeInfo)

-- What the code takes for an object.
def Braced (field : Text) : Prop := ∃ front, field = '\x7b' :: (front ++ ['\x7d'])

theorem braced_iff (field : Text) : Braced field ↔
    ¬(field.length < 2 ∨ field.head? ≠ some '\x7b' ∨ field.getLast? ≠ some '\x7d') := by
  constructor
  · rintro ⟨front, rfl⟩
    simp [List.getLast?_cons]
  · intro h
    rw [not_or, not_or, not_not, not_not] at h
    obtain ⟨hlength, hhead, hlast⟩ := h
    cases field with
    | nil => cases hhead
    | cons first tail =>
        cases hhead
        obtain rfl | ⟨front, last, rfl⟩ := tail.eq_nil_or_concat'
        · simp at hlength
        · rw [← List.cons_append, List.getLast?_concat] at hlast
          cases hlast
          exact ⟨front, rfl⟩

theorem fails_fillLogFieldResource {field : Text} (h : ¬ Braced field) :
    Fails (fillLogFieldResource nodeInfo field) := by
  rw [braced_iff, not_not] at h
  intro dest hroom
  rw [fillLogFieldResource, if_pos h]
  exact fails_fail dest hroom

theorem prints_fillLogFieldResource {field : Text} (hbraced : Braced field)
    (hcount : field.length + 32 < 2 ^ 31) :
    Prints (fillLogFieldResource nodeInfo field)
      (JsonDoc.memberText (gLogField .resource) (resourceText nodeInfo field)) [] 0 := by
  have hchecked := (braced_iff field).mp hbraced
  obtain ⟨front, rfl⟩ := hbraced
  have hlength : (gLogField .resource).length = 8 := rfl
  have hsimple : Prints (fillLogFieldSimple ('\x7b' :: (front ++ ['\x7d']))
      (gLogField .resource) false) _ [] 1 := prints_fillLogFieldSimple _ _ false (by omega)
  have hsplit : JsonDoc.memberText (gLogField .resource)
      (valueText ('\x7b' :: (front ++ ['\x7d'])) false) =
      JsonDoc.memberText (gLogField .resource) ('\x7b' :: front) ++ ['\x7d'] := by
    simp [JsonDoc.memberText, valueText]
  rw [hsplit] at hsimple
  have hhost := prints_snprintf (",\"host.id\":\"".toList ++ nodeInfo.systemUuid.text ++
    "\",\"host.name\":\"".toList ++ nodeInfo.hostName.text ++ "\"".toList)
  have hwhole := hsimple.take_back.andThen
    (hhost.andThen (prints_appendChr '\x7d') (by simp)) (by simp)
  have htext : JsonDoc.memberText (gLogField .resource) ('\x7b' :: front) ++
      (",\"host.id\":\"".toList ++ nodeInfo.systemUuid.text ++ "\",\"host.name\":\"".toList ++
        nodeInfo.hostName.text ++ "\"".toList ++ ['\x7d']) =
      JsonDoc.memberText (gLogField .resource)
        (resourceText nodeInfo ('\x7b' :: (front ++ ['\x7d']))) := by
    have hfront : ('\x7b' :: (front ++ ['\x7d'])).dropLast = '\x7b' :: front := by
      rw [← List.cons_append, List.dropLast_concat]
    rw [resourceText, hfront]
    simp [JsonDoc.memberText, JsonDoc.membersText, hostMembers, JsonDoc.quoted]
  rw [htext] at hwhole
  apply hwhole.congr
  intro dest
  rw [fillLogFieldResource, if_neg hchecked, andThen_assoc]
  rfl

end Log

section LogText

variable {nodeInfo : NodeInfo}

structure LogParts where
  timestamp : Text
  severityText : Text
  severityNumber : Text
  resource : Text
  attributes : Text
  body : Text

-- The parts of a log line.
def logParts (line : Text) : Option LogParts :=
  if line.head? ≠ some '|' then none
  else
    match fieldsOf line with
    | timestamp :: severityText :: severityNumber :: resource :: attributes :: body :: _ =>
        some ⟨timestamp, severityText, severityNumber, resource, attributes, body⟩
    | _ => none

-- The document of a log.
def logText (nodeInfo : NodeInfo) (parts : LogParts) : Text :=
  JsonDoc.objectText [(COMM_FIELD_TIMESTAMP, parts.timestamp),
    (COMM_FIELD_SEVER_TXT, parts.severityText), (COMM_FIELD_SEVER_NO, parts.severityNumber),
    (COMM_FIELD_RESOURCE, resourceText nodeInfo parts.resource),
    (COMM_FIELD_ATTRS, parts.attributes), (COMM_FIELD_BODY, parts.body)]

def fillLog (nodeInfo : NodeInfo) (line : Text) : Fill :=
  (strbufAppendChrWithCheck '\x7b').andThen <|
    (fillLogFields nodeInfo
      [.timestamp, .severityText, .severityNumber, .resource, .attributes, .body] line).andThen <|
    strbufAppendStrWithCheck "\x7d\x00".toList

theorem prints_or_fails_fillLogField {field : Text} (hcount : field.length < 2 ^ 29)
    (fieldNo : LogField) :
    (∃ text slack, slack ≤ 1 ∧ Prints (fillLogField nodeInfo field fieldNo) text [] slack) ∨
      Fails (fillLogField nodeInfo field fieldNo) := by
  have hname : (gLogField fieldNo).length ≤ 14 := by cases fieldNo <;> decide
  have hsimple := prints_fillLogFieldSimple field (gLogField fieldNo) false (by omega)
  cases fieldNo with
  | resource =>
      by_cases hbraced : Braced field
      · exact .inl ⟨_, 0, by decide, prints_fillLogFieldResource hbraced (by omega)⟩
      · exact .inr (fails_fillLogFieldResource hbraced)
  | _ => exact .inl ⟨_, 1, by decide, hsimple⟩

theorem fails_fillLogField_andThen {field : Text} (hcount : field.length < 2 ^ 29)
    (fieldNo : LogField) {fill : Fill} (hrest : Fails fill) :
    Fails ((fillLogField nodeInfo field fieldNo).andThen <|
      (if fieldNo = .body then done else strbufAppendChrWithCheck ',').andThen fill) := by
  obtain ⟨text, slack, -, hprints⟩ | hfails :=
    @prints_or_fails_fillLogField nodeInfo field hcount fieldNo
  · apply hprints.andThen_fails
    split
    · exact prints_done.andThen_fails hrest
    · exact (prints_appendChr ',').andThen_fails hrest
  · exact hfails.andThen

-- A field that is missing or a resource without braces stops the loop.
theorem fails_fillLogFields {rest : Text} (hcount : rest.length < 2 ^ 29) {fieldNos : List LogField}
    (h : (fieldsOf ('|' :: rest)).length < fieldNos.length) :
    Fails (fillLogFields nodeInfo fieldNos ('|' :: rest)) := by
  induction fieldNos generalizing rest with
  | nil => simp at h
  | cons fieldNo fieldNos ih =>
      by_cases hmem : '|' ∈ rest
      · obtain ⟨field, tail, hfield, rfl, hnext⟩ := nextField_of_mem hmem
        rw [fieldsOf_append hfield, List.length_cons, List.length_cons] at h
        rw [List.length_append, List.length_cons] at hcount
        rw [fillLogFields, hnext]
        dsimp only
        exact fails_fillLogField_andThen (by omega) fieldNo (ih (by omega) (by omega))
      · rw [fillLogFields, nextField, List.tail_cons, if_neg hmem]
        exact fails_fail

-- The loop, once its fields are known.
def fillPieces (nodeInfo : NodeInfo) : List (LogField × Text) → Fill
  | [] => done
  | (fieldNo, field) :: pieces =>
      (fillLogField nodeInfo field fieldNo).andThen <|
      (if fieldNo = .body then done else strbufAppendChrWithCheck ',').andThen <|
      fillPieces nodeInfo pieces

theorem fillLogFields_eq {fieldNos : List LogField} {fields more : List Text} {rest : Text}
    (hfields : fieldsOf ('|' :: rest) = fields ++ more) (hlength : fields.length = fieldNos.length) :
    fillLogFields nodeInfo fieldNos ('|' :: rest) = fillPieces nodeInfo (fieldNos.zip fields) := by
  induction fieldNos generalizing fields rest with
  | nil => rfl
  | cons fieldNo fieldNos ih =>
      cases fields with
      | nil => cases hlength
      | cons field fields =>
          obtain ⟨tail, hnext, htail⟩ := nextField_of_fieldsOf hfields
          rw [fillLogFields, hnext]
          dsimp only
          rw [ih htail (Nat.succ.inj hlength)]
          rfl

theorem prints_fillPieces_cons {fieldNo : LogField} {field text rest : Text}
    {pieces : List (LogField × Text)} {slack slackRest : ℕ} (hbody : fieldNo ≠ .body)
    (hfield : Prints (fillLogField nodeInfo field fieldNo) text [] slack) (hslack : slack ≤ 1)
    (hrest : Prints (fillPieces nodeInfo pieces) rest [] slackRest) :
    Prints (fillPieces nodeInfo ((fieldNo, field) :: pieces)) (text ++ ',' :: rest) [] slackRest := by
  rw [fillPieces, if_neg hbody]
  apply hfield.andThen ((prints_appendChr ',').andThen hrest (by omega))
  rw [List.length_append, List.length_singleton]
  omega

theorem prints_fillLogField_simple (fieldNo : LogField) (hresource : fieldNo ≠ .resource)
    {field : Text} (hcount : field.length < 2 ^ 29) :
    Prints (fillLogField nodeInfo field fieldNo) (JsonDoc.memberText (gLogField fieldNo) field) []
      1 := by
  have hname : (gLogField fieldNo).length ≤ 14 := by cases fieldNo <;> decide
  have h := prints_fillLogFieldSimple field (gLogField fieldNo) false (by omega)
  cases fieldNo with
  | resource => exact absurd rfl hresource
  | _ => exact h

def LogParts.pieces (parts : LogParts) : List (LogField × Text) :=
  [(.timestamp, parts.timestamp), (.severityText, parts.severityText),
    (.severityNumber, parts.severityNumber), (.resource, parts.resource),
    (.attributes, parts.attributes), (.body, parts.body)]

theorem prints_logParts {parts : LogParts} (hbraced : Braced parts.resource)
    (hcount : ∀ piece ∈ parts.pieces, piece.2.length < 2 ^ 29) :
    ∃ text, Prints (fillPieces nodeInfo parts.pieces) text [] 1 ∧
      logText nodeInfo parts = '\x7b' :: (text ++ ['\x7d']) := by
  simp only [LogParts.pieces, List.forall_mem_cons] at hcount
  obtain ⟨htimestamp, hseverityText, hseverityNumber, hresource, hattributes, hbody, -⟩ := hcount
  have hlast : Prints (fillPieces nodeInfo [(.body, parts.body)])
      (JsonDoc.memberText (gLogField .body) parts.body) [] 1 := by
    rw [fillPieces, if_pos rfl, fillPieces, andThen_done, andThen_done]
    exact prints_fillLogField_simple .body (by decide) hbody
  have hprints := prints_fillPieces_cons (by decide)
      (prints_fillLogField_simple .timestamp (by decide) htimestamp) (Nat.le_refl 1) <|
    prints_fillPieces_cons (by decide)
      (prints_fillLogField_simple .severityText (by decide) hseverityText) (Nat.le_refl 1) <|
    prints_fillPieces_cons (by decide)
      (prints_fillLogField_simple .severityNumber (by decide) hseverityNumber) (Nat.le_refl 1) <|
    prints_fillPieces_cons (by decide)
      (show Prints (fillLogField nodeInfo parts.resource .resource) _ [] 0 from
        prints_fillLogFieldResource hbraced (by omega)) (Nat.zero_le 1) <|
    prints_fillPieces_cons (by decide)
      (prints_fillLogField_simple .attributes (by decide) hattributes) (Nat.le_refl 1) hlast
  refine ⟨_, hprints, ?_⟩
  simp [logText, JsonDoc.objectText, JsonDoc.membersText, gLogField]

theorem logParts_eq_some {line : Text} {parts : LogParts} (h : logParts line = some parts) :
    ∃ rest more, line = '|' :: rest ∧
      fieldsOf line = parts.pieces.map Prod.snd ++ more := by
  unfold logParts at h
  split_ifs at h with hhead
  rw [ne_eq, not_not] at hhead
  obtain ⟨rest, hrest⟩ := List.head?_eq_some_iff.mp hhead
  split at h
  · rename_i more hfields
    cases h
    exact ⟨rest, more, hrest, hfields⟩
  · cases h

theorem fillLogFields_pieces {rest : Text} {parts : LogParts} {more : List Text}
    (h : fieldsOf ('|' :: rest) = parts.pieces.map Prod.snd ++ more) :
    fillLogFields nodeInfo
      [.timestamp, .severityText, .severityNumber, .resource, .attributes, .body] ('|' :: rest) =
        fillPieces nodeInfo parts.pieces :=
  fillLogFields_eq h rfl

theorem length_pieces_lt {rest : Text} (hcount : ('|' :: rest).length < 2 ^ 29) {parts : LogParts}
    {more : List Text} (h : fieldsOf ('|' :: rest) = parts.pieces.map Prod.snd ++ more) :
    ∀ piece ∈ parts.pieces, piece.2.length < 2 ^ 29 := by
  intro piece hpiece
  have hfield : piece.2 ∈ fieldsOf ('|' :: rest) := by
    rw [h]
    exact List.mem_append_left _ (List.mem_map_of_mem hpiece)
  have hle := (infix_of_mem_fieldsOf hfield).length_le
  rw [List.length_cons] at hcount
  omega

theorem prints_fillLog {line : Text} (hcount : line.length < 2 ^ 29) {parts : LogParts}
    (hparts : logParts line = some parts) (hbraced : Braced parts.resource) :
    Prints (fillLog nodeInfo line) (logText nodeInfo parts ++ ['\x00']) [] 0 := by
  obtain ⟨rest, more, rfl, hfields⟩ := logParts_eq_some hparts
  obtain ⟨text, hprints, htext⟩ := @prints_logParts nodeInfo parts hbraced
    (length_pieces_lt hcount hfields)
  have hwhole := (prints_appendChr '\x7b').andThen
    (hprints.andThen (prints_appendStr "\x7d\x00".toList) (by decide)) (by omega)
  rw [fillLog, fillLogFields_pieces hfields, htext]
  simpa using hwhole

-- Without the six fields, or without the braces, the converter gives up.
theorem fails_fillLog {line : Text} (hcount : line.length < 2 ^ 29) (hhead : line.head? = some '|')
    (h : ∀ parts, logParts line = some parts → ¬ Braced parts.resource) :
    Fails (fillLog nodeInfo line) := by
  obtain ⟨rest, rfl⟩ := List.head?_eq_some_iff.mp hhead
  apply (prints_appendChr '\x7b').andThen_fails
  apply Fails.andThen
  cases hparts : logParts ('|' :: rest) with
  | some parts =>
      obtain ⟨_, more, -, hfields⟩ := logParts_eq_some hparts
      have hshort := length_pieces_lt hcount hfields
      rw [fillLogFields_pieces hfields]
      simp only [LogParts.pieces, List.forall_mem_cons] at hshort
      obtain ⟨htimestamp, hseverityText, hseverityNumber, -⟩ := hshort
      apply fails_fillLogField_andThen htimestamp
      apply fails_fillLogField_andThen hseverityText
      apply fails_fillLogField_andThen hseverityNumber
      exact (fails_fillLogFieldResource (h parts hparts)).andThen
  | none =>
      apply fails_fillLogFields (by rw [List.length_cons] at hcount; omega)
      unfold logParts at hparts
      rw [if_neg (by simp)] at hparts
      split at hparts
      · cases hparts
      · rename_i hfew
        by_contra hmany
        rw [not_lt] at hmany
        generalize fieldsOf ('|' :: rest) = fields at hfew hmany
        match fields, hmany with
        | timestamp :: severityText :: severityNumber :: resource :: attributes :: body :: more, _ =>
            exact hfew _ _ _ _ _ _ _ rfl

end LogText

section Outcome

variable {nodeInfo : NodeInfo} {logData : Line} {parts : LogParts} {jsonFmt : CharBuffer}
  {jsonSize : ℤ}

theorem nul_not_mem_pieces (hparts : logParts logData.text = some parts) :
    ∀ piece ∈ parts.pieces, '\x00' ∉ piece.2 := by
  obtain ⟨rest, more, hline, hfields⟩ := logParts_eq_some hparts
  intro piece hpiece hnul
  have hfield : piece.2 ∈ fieldsOf ('|' :: rest) := by
    rw [← hline, hfields]
    exact List.mem_append_left _ (List.mem_map_of_mem hpiece)
  apply logData.noNul
  rw [hline]
  exact List.mem_cons_of_mem _ ((infix_of_mem_fieldsOf hfield).subset hnul)

theorem nul_not_mem_logText (hparts : logParts logData.text = some parts) :
    '\x00' ∉ logText nodeInfo parts := by
  have hpieces := nul_not_mem_pieces hparts
  have hnode := nodeInfo.noNul
  simp only [LogParts.pieces, List.forall_mem_cons] at hpieces
  obtain ⟨htimestamp, hseverityText, hseverityNumber, hresource, hattributes, hbody, -⟩ := hpieces
  simp only [List.mem_append, not_or] at hnode
  have hhost : '\x00' ∉ JsonDoc.objectText (hostMembers nodeInfo) :=
    nul_not_mem_objectText (by simp [hostMembers, JsonDoc.quoted, hnode])
  rw [JsonDoc.objectText, List.mem_cons, not_or] at hhost
  have hextended : '\x00' ∉ resourceText nodeInfo parts.resource := by
    rw [resourceText, List.mem_append, List.mem_cons, not_or, not_or]
    exact ⟨fun hmem => hresource (List.dropLast_subset _ hmem), by decide, hhost.2⟩
  apply nul_not_mem_objectText
  simp only [List.forall_mem_cons]
  exact ⟨⟨by decide, htimestamp⟩, ⟨by decide, hseverityText⟩, ⟨by decide, hseverityNumber⟩,
    ⟨by decide, hextended⟩, ⟨by decide, hattributes⟩, ⟨by decide, hbody⟩, by simp⟩

theorem head?_of_logParts (hparts : logParts logData.text = some parts) :
    logData.text.head? = some '|' := by
  obtain ⟨rest, more, hline, -⟩ := logParts_eq_some hparts
  rw [hline]
  rfl

theorem logData2Json_outcome (hparts : logParts logData.text = some parts)
    (hbraced : Braced parts.resource) (hroom : jsonFmt.length = jsonSize.toNat) :
    Outcome (logText nodeInfo parts) jsonFmt jsonSize
      (logData2Json nodeInfo logData jsonFmt jsonSize) := by
  have hprints := @prints_fillLog nodeInfo _ logData.fits _ hparts hbraced
  have h := outcome_of_prints '\x7b' hprints (nul_not_mem_logText hparts) hroom
  rw [logData2Json, if_neg (by rw [head?_of_logParts hparts]; simp)]
  exact h

theorem logData2Json_refused
    (h : ∀ parts, logParts logData.text = some parts → ¬ Braced parts.resource)
    (hroom : jsonFmt.length = jsonSize.toNat) :
    Refused jsonFmt (logData2Json nodeInfo logData jsonFmt jsonSize) := by
  rw [logData2Json]
  split
  case isTrue => exact .refused rfl
  case isFalse hhead =>
    rw [not_not] at hhead
    exact refused_of_fails '\x7b' (fails_fillLog logData.fits hhead h) hroom

end Outcome

end Gopher.Ingress
