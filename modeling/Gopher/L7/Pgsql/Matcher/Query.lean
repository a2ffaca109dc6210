import Gopher.L7.Pgsql.Matcher.Timing

namespace Gopher.L7.Pgsql

open Gopher.L7

-- One of the responses has one of the tags.
def Seen (tags : List UInt8) (slots : List (Slot PgsqlFrame)) : Prop :=
  ∃ ptr frame, some (ptr, frame) ∈ slots ∧ frame.msg.tag ∈ tags

-- Nothing has come of the request.
structure StaysPending (matching next : Matching) : Prop where
  records : next.records.records = matching.records.records
  req : next.req = matching.req

-- A query becomes a record only once the end of its answer is seen.
structure EndsFirst (matching next : Matching) : Prop where
  recorded : next.records.records ≠ matching.records.records → Seen queryEnds matching.rsp.slots
  pending : ¬Seen queryEnds matching.rsp.slots → StaysPending matching next

section Rounds

variable {slots : List (Slot PgsqlFrame)} {handled : Handled}

theorem seen_iff (tags : List UInt8) :
    Seen tags slots ↔ ∃ msg ∈ msgs slots, msg.tag ∈ tags := by
  constructor
  · rintro ⟨ptr, frame, hmem, htag⟩
    exact ⟨frame.msg, List.mem_filterMap.mpr ⟨_, hmem, rfl⟩, htag⟩
  · rintro ⟨msg, hmem, htag⟩
    obtain ⟨slot, hslot, heq⟩ := List.mem_filterMap.mp hmem
    obtain ⟨⟨ptr, frame⟩, rfl, rfl⟩ := Option.map_eq_some_iff.mp heq
    exact ⟨ptr, frame, hslot, htag⟩

theorem firstOf_eq_none_iff {tags : List UInt8} {responses : List PgsqlRegularMsg} :
    firstOf tags responses = none ↔ ¬∃ msg ∈ responses, msg.tag ∈ tags := by
  rw [firstOf, List.find?_eq_none]
  simp

-- Without an end any of the rows gives a time, which is all that is asked for behind
-- the loop.
theorem pgsqlHandleQuery_of_not_ended (hends : ¬Seen queryEnds slots)
    (h : pgsqlHandleQuery slots = some handled) :
    (∃ reply, handled.result = .ok reply) ↔ Seen queryRows slots := by
  have hnone : firstOf queryEnds (msgs slots) = none :=
    firstOf_eq_none_iff.mpr fun hseen => hends ((seen_iff queryEnds).mpr hseen)
  have htimed (timestampNs : Option UInt64) : handled.TimedAt timestampNs ↔
      timestampNs.isSome ∧ timestampNs = (lastOf queryRows (msgs slots)).map timeOf := by
    have hcollect : collectQueryResp queryEnds queryRows slots 0 [] none = some handled := h
    rw [collectedAt_iff hcollect, CollectedAt, hnone]
  have hreply : (∃ reply, handled.result = .ok reply) ↔ ∃ timestampNs,
      handled.TimedAt timestampNs := by
    constructor
    · rintro ⟨reply, hok⟩
      exact ⟨reply.timestampNs, reply, hok, rfl⟩
    · rintro ⟨timestampNs, reply, hok, -⟩
      exact ⟨reply, hok⟩
  have hrows : Seen queryRows slots ↔ (lastOf queryRows (msgs slots)).isSome := by
    rw [seen_iff, Option.isSome_iff_ne_none, lastOf, Ne, firstOf_eq_none_iff, not_not]
    simp only [List.mem_reverse]
  rw [hreply, hrows]
  simp only [htimed, exists_eq_right, Option.isSome_map]

variable {unset : ℕ → UInt64} {matching next : Matching} {slot : Option ℕ} {ptr : ℕ}
  {frame : PgsqlFrame}

theorem matchRequest_query (hfollow : matching.req.follow slot = some (ptr, frame))
    (htag : frame.msg.tag = PGSQL_SIMPLE_QUERY)
    (h : matchRequest unset matching slot = some next) :
    ∃ handled, pgsqlHandleQuery matching.rsp.slots = some handled ∧
      next = match handled.result with
        | .ok reply => pgsqlMatcherAddRecord unset (matching.advance handled.advanced) ptr frame.msg
            reply (responseArrived frame.msg matching.rsp.slots)
        | .error _ => (matching.advance handled.advanced).countError ptr
            (responseArrived frame.msg matching.rsp.slots) := by
  have hhandler : handlerOf frame.msg = some pgsqlHandleQuery := by
    rw [handlerOf, if_pos htag]
  rw [matchRequest, hfollow, Option.bind_eq_bind, Option.bind_some] at h
  simp only [hhandler] at h
  obtain ⟨handled, hhandled, hnext⟩ := Option.bind_eq_some_iff.mp h
  refine ⟨handled, hhandled, ?_⟩
  cases hresult : handled.result with
  | ok reply =>
      rw [hresult] at hnext
      exact (Option.some.inj hnext).symm
  | error state =>
      rw [hresult] at hnext
      exact (Option.some.inj hnext).symm

theorem staysPending_countError (matching : Matching) (advanced : ℕ) (arrived : Bool) :
    StaysPending matching ((matching.advance advanced).countError ptr arrived) := ⟨rfl, rfl⟩

-- A record is made of a reply unless there is no room.
theorem staysPending_addRecord_iff (unset : ℕ → UInt64) (matching : Matching) (advanced : ℕ)
    (ptr : ℕ) (msg : PgsqlRegularMsg) (reply : Reply) (arrived : Bool) :
    StaysPending matching
        (pgsqlMatcherAddRecord unset (matching.advance advanced) ptr msg reply arrived) ↔
      RECORD_BUF_SIZE < matching.records.records.length := by
  have hsame : (matching.advance advanced).records = matching.records := rfl
  unfold pgsqlMatcherAddRecord
  rw [hsame]
  split_ifs with hfull
  · exact iff_of_true (staysPending_countError matching advanced arrived) hfull
  · refine iff_of_false (fun h => ?_) hfull
    have hlength := congrArg List.length h.records
    simp [Matching.addRecord, hsame] at hlength

-- What is done with a query depends on any of its rows as on the end of its answer.
theorem endsFirst_iff (unset : ℕ → UInt64) (hfollow : matching.req.follow slot = some (ptr, frame))
    (htag : frame.msg.tag = PGSQL_SIMPLE_QUERY)
    (hround : matchRequest unset matching slot = some next) :
    EndsFirst matching next ↔ Seen queryEnds matching.rsp.slots ∨
      ¬Seen queryRows matching.rsp.slots ∨ RECORD_BUF_SIZE < matching.records.records.length := by
  by_cases hends : Seen queryEnds matching.rsp.slots
  · exact iff_of_true ⟨fun _ => hends, fun hnot => absurd hends hnot⟩ (.inl hends)
  · have hpending : EndsFirst matching next ↔ StaysPending matching next :=
      ⟨fun h => h.pending hends, fun h => ⟨fun hne => absurd h.records hne, fun _ => h⟩⟩
    obtain ⟨handled, hhandled, hnext⟩ := matchRequest_query hfollow htag hround
    have hrows := pgsqlHandleQuery_of_not_ended hends hhandled
    rw [hpending, hnext, ← hrows]
    simp only [hends, false_or]
    cases hresult : handled.result with
    | ok reply =>
        dsimp only
        rw [staysPending_addRecord_iff]
        simp
    | error state => exact iff_of_true (staysPending_countError _ _ _) (.inl (by simp))

end Rounds

-- A query of which a row description has come back.
def describedQuery : Matching :=
  .start (FrameStream.init.pushFrame (bareFrame 1 PGSQL_SIMPLE_QUERY))
    (FrameStream.init.pushFrame (bareFrame 2 PGSQL_ROW_DESCRIPTION))

def describedQueryNext : Matching :=
  (describedQuery.advance 1).addRecord (fun _ => 0) 0 (bareFrame 1 PGSQL_SIMPLE_QUERY).msg
    ⟨[0], some 2⟩

theorem endsFirst_iff_describedQuery :
    EndsFirst describedQuery describedQueryNext ↔ Seen queryEnds describedQuery.rsp.slots ∨
      ¬Seen queryRows describedQuery.rsp.slots ∨
        RECORD_BUF_SIZE < describedQuery.records.records.length :=
  @endsFirst_iff describedQuery describedQueryNext (some 0) 0 (bareFrame 1 PGSQL_SIMPLE_QUERY)
    (fun _ => 0) rfl rfl rfl

theorem describedQuery_recorded :
    ¬∀ unset matching slot ptr frame next, matching.req.follow slot = some (ptr, frame) →
      frame.msg.tag = PGSQL_SIMPLE_QUERY → matchRequest unset matching slot = some next →
        EndsFirst matching next := by
  intro h
  have hends := h (fun _ => 0) describedQuery (some 0) 0 (bareFrame 1 PGSQL_SIMPLE_QUERY)
    describedQueryNext rfl rfl rfl
  obtain ⟨ptr, frame, hmem, htag⟩ := hends.recorded (by simp [describedQueryNext,
    Matching.addRecord, Matching.advance])
  have hslots : describedQuery.rsp.slots = [some (0, bareFrame 2 PGSQL_ROW_DESCRIPTION)] := rfl
  rw [hslots, List.mem_singleton] at hmem
  cases hmem
  exact absurd htag (by decide)

end Gopher.L7.Pgsql
