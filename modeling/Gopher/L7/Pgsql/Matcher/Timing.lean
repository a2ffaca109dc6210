import Gopher.L7.Pgsql.Matcher.Loop

namespace Gopher.L7.Pgsql

open Gopher.L7

-- The responses that end the answer to a query, and those it consists of before.
def queryEnds : List UInt8 := [PGSQL_EMPTY_QUERY_RESP, PGSQL_CMD_COMPLETE, PGSQL_ERR_RETURN]

def queryRows : List UInt8 := [PGSQL_ROW_DESCRIPTION, PGSQL_DATA_ROW]

def executeEnds : List UInt8 := [PGSQL_CMD_COMPLETE, PGSQL_ERR_RETURN]

def executeRows : List UInt8 := [PGSQL_ROW_DESCRIPTION]

def describeTags : List UInt8 := [PGSQL_PARAMETER_DESCRIPTION, PGSQL_ERR_RETURN]

-- The messages of the responses that can be followed.
def msgs (slots : List (Slot PgsqlFrame)) : List PgsqlRegularMsg :=
  slots.filterMap fun slot => slot.map fun response => response.2.msg

def firstOf (tags : List UInt8) (responses : List PgsqlRegularMsg) : Option PgsqlRegularMsg :=
  responses.find? fun msg => msg.tag ∈ tags

def lastOf (tags : List UInt8) (responses : List PgsqlRegularMsg) : Option PgsqlRegularMsg :=
  firstOf tags responses.reverse

def timeOf (msg : PgsqlRegularMsg) : UInt64 := msg.timestampNs

-- An answer of several responses has the time of its end, or of the last of its rows
-- while no end has come.
def CollectedAt (ends rows : List UInt8) (responses : List PgsqlRegularMsg)
    (timestampNs : Option UInt64) : Prop :=
  match firstOf ends responses with
  | some last => parseReply last = .ok () ∧ timestampNs = some last.timestampNs
  | none => timestampNs.isSome ∧ timestampNs = (lastOf rows responses).map timeOf

def CompletedAt (complete : UInt8) (responses : List PgsqlRegularMsg)
    (timestampNs : Option UInt64) : Prop :=
  ∃ msg, firstOf [complete, PGSQL_ERR_RETURN] responses = some msg ∧ parseReply msg = .ok () ∧
    timestampNs = some msg.timestampNs

-- What has to stand behind the description of the parameters of a statement.
def RowsDescribed : List PgsqlRegularMsg → Prop
  | [] => False
  | msg :: _ =>
      if msg.tag = PGSQL_ROW_DESCRIPTION then pgsqlParseRowDesc msg = some (.ok ())
      else msg.tag = PGSQL_NO_DATA

def StatementAt (responses : List PgsqlRegularMsg) (timestampNs : Option UInt64) : Prop :=
  ∃ msg rest, responses.dropWhile (fun msg => msg.tag ∉ describeTags) = msg :: rest ∧
    (if msg.tag = PGSQL_ERR_RETURN then pgsqlParseErrResp msg = .ok ()
      else pgsqlParseParamDesc msg = .ok () ∧ RowsDescribed rest) ∧
    timestampNs = some msg.timestampNs

-- The description of a portal is given no time.
def PortalAt (responses : List PgsqlRegularMsg) (timestampNs : Option UInt64) : Prop :=
  ∃ msg, firstOf describeTags responses = some msg ∧ parsePortalDesc msg = some (.ok ()) ∧
    timestampNs = none

-- The time an answered request gets out of the responses that are left.
def TimedBy (msg : PgsqlRegularMsg) (responses : List PgsqlRegularMsg)
    (timestampNs : Option UInt64) : Prop :=
  if msg.tag = PGSQL_SIMPLE_QUERY then CollectedAt queryEnds queryRows responses timestampNs
  else if msg.tag = PGSQL_EXTENDED_QUERY_PARSE then
    pgsqlParseParseMsg msg = .ok () ∧ CompletedAt PGSQL_PARSE_COMPLETE responses timestampNs
  else if msg.tag = PGSQL_EXTENDED_QUERY_BIND then
    pgsqlParseBindReq msg = .ok () ∧ CompletedAt PGSQL_BIND_COMPLETE responses timestampNs
  else if msg.tag = PGSQL_EXTENDED_QUERY_DESCRIBE then
    pgsqlParseDescribe msg = .ok PGSQL_DESCRIBE_TYPE_STATEMENT ∧ StatementAt responses timestampNs ∨
      pgsqlParseDescribe msg = .ok PGSQL_DESCRIBE_TYPE_PORTAL ∧ PortalAt responses timestampNs
  else if msg.tag = PGSQL_EXTENDED_QUERY_EXECUTE then
    CollectedAt executeEnds executeRows responses timestampNs
  else False

-- The request is answered with that time.
def Handled.TimedAt (handled : Handled) (timestampNs : Option UInt64) : Prop :=
  ∃ reply, handled.result = .ok reply ∧ reply.timestampNs = timestampNs

section Handlers

variable {slots : List (Slot PgsqlFrame)} {tags : List UInt8} {handled : Handled}
  {timestampNs : Option UInt64}

theorem not_timedAt_failed (state : ParseState) (advanced : ℕ) :
    ¬(Handled.failed state advanced).TimedAt timestampNs := by
  rintro ⟨reply, hreply, -⟩
  cases hreply

theorem timedAt_replied_iff (taken : List ℕ) (time : Option UInt64) (advanced : ℕ) :
    (Handled.replied taken time advanced).TimedAt timestampNs ↔ timestampNs = time := by
  constructor
  · rintro ⟨reply, hreply, rfl⟩
    cases hreply
    rfl
  · rintro rfl
    exact ⟨_, rfl, rfl⟩

theorem msgs_cons (ptr : ℕ) (frame : PgsqlFrame) :
    msgs (some (ptr, frame) :: slots) = frame.msg :: msgs slots := rfl

theorem firstOf_cons (msg : PgsqlRegularMsg) (rest : List PgsqlRegularMsg) :
    firstOf tags (msg :: rest) = if msg.tag ∈ tags then some msg else firstOf tags rest := by
  unfold firstOf
  rw [List.find?_cons]
  by_cases htag : msg.tag ∈ tags
  · simp [htag]
  · simp [htag]

theorem lastOf_cons (msg : PgsqlRegularMsg) (rest : List PgsqlRegularMsg) :
    lastOf tags (msg :: rest) =
      (lastOf tags rest).or (if msg.tag ∈ tags then some msg else none) := by
  unfold lastOf
  rw [List.reverse_cons, firstOf, List.find?_append]
  exact congrArg _ (firstOf_cons msg [])

-- The loop with what it has found before.
theorem collectQueryResp_timedAt_iff {ends rows : List UInt8} {index : ℕ} {taken : List ℕ}
    {start : Option UInt64}
    (h : collectQueryResp ends rows slots index taken start = some handled) :
    handled.TimedAt timestampNs ↔
      match firstOf ends (msgs slots) with
      | some last => parseReply last = .ok () ∧ timestampNs = some last.timestampNs
      | none => timestampNs.isSome ∧
          timestampNs = ((lastOf rows (msgs slots)).map timeOf).or start := by
  induction slots generalizing index taken start with
  | nil =>
      rw [collectQueryResp] at h
      cases h
      change _ ↔ timestampNs.isSome ∧ timestampNs = start
      split_ifs with hfound
      · rw [timedAt_replied_iff]
        exact ⟨fun heq => ⟨heq ▸ hfound, heq⟩, fun heq => heq.2⟩
      · refine iff_of_false (not_timedAt_failed _ _) ?_
        rintro ⟨hsome, rfl⟩
        exact hfound hsome
  | cons slot rest ih =>
      rcases slot with _ | ⟨ptr, frame⟩
      · cases h
      · rw [msgs_cons, firstOf_cons, lastOf_cons]
        rw [collectQueryResp] at h
        by_cases hends : frame.msg.tag ∈ ends
        · rw [if_pos hends] at h ⊢
          cases hreply : parseReply frame.msg with
          | error state =>
              rw [hreply] at h
              cases h
              exact iff_of_false (not_timedAt_failed _ _) (by simp [hreply])
          | ok _ =>
              rw [hreply] at h
              cases h
              rw [timedAt_replied_iff]
              simp [hreply]
        · rw [if_neg hends] at h ⊢
          by_cases hrow : frame.msg.tag ∈ rows
          · rw [if_pos hrow] at h ⊢
            rw [ih h]
            cases lastOf rows (msgs rest) <;> rfl
          · rw [if_neg hrow] at h ⊢
            rw [Option.or_none]
            split_ifs at h
            · exact ih h
            · exact ih h

theorem collectedAt_iff {ends rows : List UInt8}
    (h : collectQueryResp ends rows slots 0 [] none = some handled) :
    handled.TimedAt timestampNs ↔ CollectedAt ends rows (msgs slots) timestampNs := by
  rw [collectQueryResp_timedAt_iff h, CollectedAt, Option.or_none]

-- The search gives the first of the tags with what stands behind it.
theorem pgsqlFindFirstTag_msgs {index : ℕ} {result : Option FoundTag}
    (h : pgsqlFindFirstTag tags slots index = some result) :
    result.map FoundTag.msg = firstOf tags (msgs slots) ∧
      ∀ found, result = some found → index ≤ found.index ∧
        (msgs slots).dropWhile (fun msg => msg.tag ∉ tags) =
          found.msg :: msgs (slots.drop (found.index + 1 - index)) := by
  induction slots generalizing index with
  | nil =>
      cases h
      exact ⟨rfl, by simp⟩
  | cons slot rest ih =>
      rcases slot with _ | ⟨ptr, frame⟩
      · cases h
      · rw [pgsqlFindFirstTag] at h
        rw [msgs_cons, firstOf_cons]
        split_ifs at h with htag
        · cases h
          rw [if_pos htag]
          refine ⟨rfl, ?_⟩
          rintro found ⟨⟩
          refine ⟨Nat.le_refl _, ?_⟩
          rw [List.dropWhile_cons_of_neg (by simpa using htag)]
          simp
        · rw [if_neg htag, List.dropWhile_cons_of_pos (by simpa using htag)]
          obtain ⟨hmap, hfound⟩ := ih h
          refine ⟨hmap, fun found hresult => ?_⟩
          obtain ⟨hle, hdrop⟩ := hfound found hresult
          refine ⟨by omega, ?_⟩
          have hindex : found.index + 1 - index = found.index + 1 - (index + 1) + 1 := by omega
          rw [hdrop, hindex, List.drop_succ_cons]

theorem handleComplete_timedAt_iff {parsed : Except ParseState Unit} {complete : UInt8}
    (h : handleComplete parsed complete slots = some handled) :
    handled.TimedAt timestampNs ↔
      parsed = .ok () ∧ CompletedAt complete (msgs slots) timestampNs := by
  cases parsed with
  | error state =>
      cases h
      exact iff_of_false (not_timedAt_failed _ _) (by simp)
  | ok _ =>
      obtain ⟨result, hfind, hresult⟩ := Option.map_eq_some_iff.mp h
      obtain ⟨hfirst, -⟩ := pgsqlFindFirstTag_msgs hfind
      unfold CompletedAt
      rw [← hfirst, ← hresult]
      cases result with
      | none => exact iff_of_false (not_timedAt_failed _ _) (by simp)
      | some found =>
          cases hreply : parseReply found.msg with
          | error state =>
              simp only [hreply, Option.map_some]
              exact iff_of_false (not_timedAt_failed _ _) (by simp [hreply])
          | ok _ =>
              simp only [hreply, Option.map_some]
              rw [timedAt_replied_iff]
              simp [hreply]

theorem fillRowDesc_timedAt_iff {param : FoundTag} {rest : List (Slot PgsqlFrame)}
    (h : fillRowDesc param rest = some handled) :
    handled.TimedAt timestampNs ↔
      RowsDescribed (msgs rest) ∧ timestampNs = some param.msg.timestampNs := by
  rcases rest with _ | ⟨_ | ⟨ptr, frame⟩, rest⟩
  · cases h
    exact iff_of_false (not_timedAt_failed _ _) (by simp [msgs, RowsDescribed])
  · cases h
  · rw [msgs_cons, RowsDescribed]
    simp only [fillRowDesc] at h
    split_ifs at h ⊢ with hrow hnodata
    · obtain ⟨parsed, hparsed, hhandled⟩ := Option.map_eq_some_iff.mp h
      subst hhandled
      rw [hparsed]
      cases parsed with
      | error state => exact iff_of_false (not_timedAt_failed _ _) (by simp)
      | ok _ =>
          rw [timedAt_replied_iff]
          simp
    · cases h
      rw [timedAt_replied_iff]
      simp [hnodata]
    · cases h
      exact iff_of_false (not_timedAt_failed _ _) (by simp [hnodata])

theorem pgsqlFillStmtDescResp_timedAt_iff (h : pgsqlFillStmtDescResp slots = some handled) :
    handled.TimedAt timestampNs ↔ StatementAt (msgs slots) timestampNs := by
  obtain ⟨result, hfind, hresult⟩ := Option.bind_eq_some_iff.mp h
  obtain ⟨hfirst, hdrop⟩ := pgsqlFindFirstTag_msgs hfind
  cases result with
  | none =>
      cases hresult
      refine iff_of_false (not_timedAt_failed _ _) ?_
      rintro ⟨msg, rest, hrest, -⟩
      have hnone := List.find?_eq_none.mp hfirst.symm
      have hmem := (List.dropWhile_sublist _).subset (hrest ▸ List.mem_cons_self)
      have htag := List.head?_dropWhile_not (fun msg => decide (msg.tag ∉ describeTags))
        (msgs slots)
      rw [hrest] at htag
      have hfound : msg.tag ∈ describeTags := by
        by_contra hnot
        simp [hnot] at htag
      exact hnone msg hmem (decide_eq_true hfound)
  | some found =>
      obtain ⟨-, hrest⟩ := hdrop found rfl
      have hstatement : StatementAt (msgs slots) timestampNs ↔
          (if found.msg.tag = PGSQL_ERR_RETURN then pgsqlParseErrResp found.msg = .ok ()
            else pgsqlParseParamDesc found.msg = .ok () ∧
              RowsDescribed (msgs (slots.drop (found.index + 1)))) ∧
            timestampNs = some found.msg.timestampNs := by
        constructor
        · rintro ⟨msg, rest, heq, hparsed⟩
          obtain ⟨rfl, rfl⟩ := List.cons_eq_cons.mp (heq.symm.trans hrest)
          exact hparsed
        · intro hparsed
          exact ⟨_, _, hrest, hparsed⟩
      rw [hstatement]
      dsimp only at hresult
      split_ifs at hresult ⊢ with herr
      · cases hparsed : pgsqlParseErrResp found.msg with
        | error state =>
            rw [hparsed] at hresult
            cases hresult
            exact iff_of_false (not_timedAt_failed _ _) (by simp)
        | ok _ =>
            rw [hparsed] at hresult
            cases hresult
            rw [timedAt_replied_iff]
            simp
      · cases hparsed : pgsqlParseParamDesc found.msg with
        | error state =>
            rw [hparsed] at hresult
            cases hresult
            exact iff_of_false (not_timedAt_failed _ _) (by simp)
        | ok _ =>
            rw [hparsed] at hresult
            rw [fillRowDesc_timedAt_iff hresult]
            simp

theorem pgsqlFillPortalDescResp_timedAt_iff (h : pgsqlFillPortalDescResp slots = some handled) :
    handled.TimedAt timestampNs ↔ PortalAt (msgs slots) timestampNs := by
  obtain ⟨result, hfind, hresult⟩ := Option.bind_eq_some_iff.mp h
  obtain ⟨hfirst, -⟩ := pgsqlFindFirstTag_msgs hfind
  unfold PortalAt
  rw [describeTags, ← hfirst]
  cases result with
  | none =>
      cases hresult
      exact iff_of_false (not_timedAt_failed _ _) (by simp)
  | some found =>
      obtain ⟨parsed, hparsed, hhandled⟩ := Option.bind_eq_some_iff.mp hresult
      cases parsed with
      | error state =>
          cases hhandled
          exact iff_of_false (not_timedAt_failed _ _) (by simp [hparsed])
      | ok _ =>
          cases hhandled
          rw [timedAt_replied_iff]
          simp [hparsed]

-- What a handler makes of a request is said by the tags alone and by what it parses.
theorem handler_timedAt_iff {msg : PgsqlRegularMsg}
    {handler : List (Slot PgsqlFrame) → Option Handled}
    (hhandler : handlerOf msg = some handler) (h : handler slots = some handled) :
    handled.TimedAt timestampNs ↔ TimedBy msg (msgs slots) timestampNs := by
  unfold handlerOf at hhandler
  unfold TimedBy
  split_ifs at hhandler ⊢ with hquery hparse hbind hdescribe hexecute
  · cases hhandler
    exact collectedAt_iff h
  · cases hhandler
    exact handleComplete_timedAt_iff h
  · cases hhandler
    exact handleComplete_timedAt_iff h
  · cases hhandler
    unfold pgsqlHandleDescribe at h
    cases htype : pgsqlParseDescribe msg with
    | error state =>
        rw [htype] at h
        cases h
        exact iff_of_false (not_timedAt_failed _ _) (by simp)
    | ok descType =>
        have hdistinct : PGSQL_DESCRIBE_TYPE_STATEMENT ≠ PGSQL_DESCRIBE_TYPE_PORTAL := by decide
        rw [htype] at h
        dsimp only at h
        split_ifs at h with hstatement hportal
        · rw [pgsqlFillStmtDescResp_timedAt_iff h, hstatement]
          simp [hdistinct]
        · rw [pgsqlFillPortalDescResp_timedAt_iff h, hportal]
          simp [hdistinct.symm]
        · cases h
          exact iff_of_false (not_timedAt_failed _ _) (by simp [hstatement, hportal])
  · cases hhandler
    exact collectedAt_iff h

theorem not_timedBy_of_skipped {msg : PgsqlRegularMsg} (hhandler : handlerOf msg = none)
    (responses : List PgsqlRegularMsg) : ¬TimedBy msg responses timestampNs := by
  unfold handlerOf at hhandler
  split_ifs at hhandler with hquery hparse hbind hdescribe hexecute
  simp [TimedBy, hquery, hparse, hbind, hdescribe, hexecute]

end Handlers

section Responses

variable {responses : List PgsqlRegularMsg} {tags : List UInt8} {time : UInt64}

theorem mem_of_firstOf {msg : PgsqlRegularMsg} (h : firstOf tags responses = some msg) :
    msg ∈ responses := List.mem_of_find?_eq_some h

-- The time comes from one of the responses.
theorem exists_of_collectedAt {ends rows : List UInt8}
    (h : CollectedAt ends rows responses (some time)) :
    ∃ response ∈ responses, response.timestampNs = time := by
  unfold CollectedAt at h
  split at h
  · rename_i last hlast
    exact ⟨last, mem_of_firstOf hlast, (Option.some.inj h.2).symm⟩
  · obtain ⟨last, hlast, htime⟩ := Option.map_eq_some_iff.mp h.2.symm
    exact ⟨last, List.mem_reverse.mp (mem_of_firstOf hlast), htime⟩

theorem exists_of_completedAt {complete : UInt8} (h : CompletedAt complete responses (some time)) :
    ∃ response ∈ responses, response.timestampNs = time := by
  obtain ⟨msg, hfirst, -, htime⟩ := h
  exact ⟨msg, mem_of_firstOf hfirst, (Option.some.inj htime).symm⟩

theorem TimedBy.exists_response {msg : PgsqlRegularMsg} (h : TimedBy msg responses (some time)) :
    ∃ response ∈ responses, response.timestampNs = time := by
  unfold TimedBy at h
  split_ifs at h
  · exact exists_of_collectedAt h
  · exact exists_of_completedAt h.2
  · exact exists_of_completedAt h.2
  · obtain ⟨-, described, rest, hrest, -, htime⟩ | ⟨-, _, -, -, htime⟩ := h
    · have hmem := (List.dropWhile_sublist _).subset (hrest ▸ List.mem_cons_self)
      exact ⟨described, hmem, (Option.some.inj htime).symm⟩
    · cases htime
  · exact exists_of_collectedAt h

end Responses

-- A frame without a payload.
def bareFrame (timestampNs : UInt64) (tag : UInt8) : PgsqlFrame :=
  { msg := { timestampNs := timestampNs, tag := tag, len := 4, payloadData := [] }
    consumed := false }

end Gopher.L7.Pgsql
