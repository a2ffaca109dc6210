import Gopher.L7.FrameStream
import Gopher.L7.ProtocolParser

namespace Gopher.L7

open Gopher.Lib

variable {φ ρ ι : Type*}

-- What the statistics rely on: neither stream gains or loses frames.
structure SameFrames (before after : FrameStream φ) : Prop where
  size : after.frameBufs.frameBufSize = before.frameBufs.frameBufSize
  created : after.created = before.created

theorem SameFrames.refl (stream : FrameStream φ) : SameFrames stream stream := ⟨rfl, rfl⟩

theorem SameFrames.trans {first middle last : FrameStream φ} (h : SameFrames first middle)
    (hnext : SameFrames middle last) : SameFrames first last :=
  ⟨hnext.size.trans h.size, hnext.created.trans h.created⟩

theorem SameFrames.full {before after : FrameStream φ} (h : SameFrames before after)
    (hfull : before.Full) : after.Full := by
  unfold FrameStream.Full
  rw [h.size, h.created]
  exact hfull

theorem sameFrames_pop {stream after : FrameStream φ}
    (h : stream.dataStreamPopFrames = some after) : SameFrames stream after := by
  obtain ⟨frames, -, rfl⟩ := Option.map_eq_some_iff.mp h
  exact ⟨(FrameBuf.doPopFrames_size stream.frameBufs).1, rfl⟩

-- A matcher that reports how many frames the buffers hold, whatever it matches.
structure Reports (matchFrames : FrameMatcher φ ρ) : Prop where
  counts : ∀ req rsp reqAfter rspAfter records,
    matchFrames req rsp = some (reqAfter, rspAfter, records) →
      records.reqCount = req.frameBufs.frameBufSize ∧
        records.respCount = rsp.frameBufs.frameBufSize
  same : ∀ req rsp reqAfter rspAfter records,
    matchFrames req rsp = some (reqAfter, rspAfter, records) →
      SameFrames req reqAfter ∧ SameFrames rsp rspAfter

-- The number of frames pushed to a stream and the counter that adds up what each round
-- reports.
structure Tally (created count : ℕ) (pushed : List (List φ)) : Prop where
  nothing : created = 0 ↔ ∀ frames ∈ pushed, frames = []
  counted : count = 0 ↔ created = 0

-- All frames are counted again in every round.
theorem Tally.round {created count next : ℕ} {pushed : List (List φ)} {frames : List φ}
    (h : Tally created count pushed) (hle : created ≤ next)
    (hnext : next = 0 ↔ created = 0 ∧ frames = []) :
    Tally next (count + next) (pushed ++ [frames]) where
  nothing := by
    rw [hnext, h.nothing, List.forall_mem_append, List.forall_mem_singleton]
  counted := by
    have hcounted := h.counted
    omega

-- The counter is right when nothing was counted before.
theorem Tally.eq_iff {created count : ℕ} {pushed : List (List φ)}
    (h : Tally created count pushed) (next : ℕ) :
    count + next = next ↔ ∀ frames ∈ pushed, frames = [] := by
  rw [← h.nothing, ← h.counted]
  omega

structure Tallied (conn : CountedConn φ) (rounds : List (MatchRound φ ι)) : Prop where
  reqFull : conn.req.Full
  rspFull : conn.rsp.Full
  requests : Tally conn.req.created (conn.stats .reqCount) (rounds.map MatchRound.requests)
  responses : Tally conn.rsp.created (conn.stats .rspCount) (rounds.map MatchRound.responses)

theorem tallied_init : Tallied (.init : CountedConn φ) ([] : List (MatchRound φ ι)) where
  reqFull := rfl
  rspFull := rfl
  requests := ⟨by simp [CountedConn.init, FrameStream.init], Iff.rfl⟩
  responses := ⟨by simp [CountedConn.init, FrameStream.init], Iff.rfl⟩

-- What one round does to both counters.
theorem matchStep_counts {matchFrames : ι → FrameMatcher φ ρ}
    (hreports : ∀ unset, Reports (matchFrames unset)) {conn next : CountedConn φ}
    {round : MatchRound φ ι} (hreq : conn.req.Full) (hrsp : conn.rsp.Full)
    (h : matchStep matchFrames conn round next) :
    SameFrames (conn.push round).req next.req ∧ SameFrames (conn.push round).rsp next.rsp ∧
      next.stats .reqCount = conn.stats .reqCount + next.req.created ∧
      next.stats .rspCount = conn.stats .rspCount + next.rsp.created := by
  obtain ⟨⟨req, rsp, records⟩, hmatch, hrest⟩ := Option.bind_eq_some_iff.mp h
  obtain ⟨reqAfter, hreqPop, hrest⟩ := Option.bind_eq_some_iff.mp hrest
  obtain ⟨rspAfter, hrspPop, hlast⟩ := Option.bind_eq_some_iff.mp hrest
  cases hlast
  obtain ⟨hreqSame, hrspSame⟩ := (hreports round.unset).same _ _ _ _ _ hmatch
  obtain ⟨hreqCount, hrspCount⟩ := (hreports round.unset).counts _ _ _ _ _ hmatch
  have hreqAll := hreqSame.trans (sameFrames_pop hreqPop)
  have hrspAll := hrspSame.trans (sameFrames_pop hrspPop)
  refine ⟨hreqAll, hrspAll, ?_, ?_⟩
  · have hfull := (hreq.pushFrames round.requests).1
    have hsize : records.reqCount = reqAfter.created := by
      rw [hreqCount, hreqAll.created]
      exact hfull
    simp [addCounts, Stats.add, CountedConn.push, hsize]
  · have hfull := (hrsp.pushFrames round.responses).1
    have hsize : records.respCount = rspAfter.created := by
      rw [hrspCount, hrspAll.created]
      exact hfull
    simp [addCounts, Stats.add, CountedConn.push, hsize]

theorem Tallied.round {matchFrames : ι → FrameMatcher φ ρ}
    (hreports : ∀ unset, Reports (matchFrames unset)) {conn next : CountedConn φ}
    {rounds : List (MatchRound φ ι)} {round : MatchRound φ ι} (h : Tallied conn rounds)
    (hstep : matchStep matchFrames conn round next) : Tallied next (rounds ++ [round]) := by
  obtain ⟨hreqSame, hrspSame, hreqCount, hrspCount⟩ :=
    matchStep_counts hreports h.reqFull h.rspFull hstep
  obtain ⟨hreqFull, hreqLe, hreqZero⟩ := h.reqFull.pushFrames round.requests
  obtain ⟨hrspFull, hrspLe, hrspZero⟩ := h.rspFull.pushFrames round.responses
  refine ⟨hreqSame.full hreqFull, hrspSame.full hrspFull, ?_, ?_⟩
  · rw [List.map_append, hreqCount, hreqSame.created]
    exact h.requests.round hreqLe hreqZero
  · rw [List.map_append, hrspCount, hrspSame.created]
    exact h.responses.round hrspLe hrspZero

theorem tallied_of_run {matchFrames : ι → FrameMatcher φ ρ}
    (hreports : ∀ unset, Reports (matchFrames unset)) {conn : CountedConn φ}
    {rounds : List (MatchRound φ ι)} (hrun : Run (matchStep matchFrames) .init rounds conn) :
    Tallied conn rounds := by
  induction rounds using List.reverseRecOn generalizing conn with
  | nil =>
      cases hrun
      exact tallied_init
  | append_singleton rounds round ih =>
      obtain ⟨middle, hbefore, hlast⟩ := hrun.split
      cases hlast with
      | cons hstep hrest =>
          cases hrest
          exact (ih hbefore).round hreports hstep

-- The last round alone may bring frames, whatever is matched.
theorem conserved_iff_pushedLast {matchFrames : ι → FrameMatcher φ ρ}
    (hreports : ∀ unset, Reports (matchFrames unset)) {conn : CountedConn φ}
    {rounds : List (MatchRound φ ι)} (hrun : Run (matchStep matchFrames) .init rounds conn) :
    Conserved conn ↔ PushedLast rounds := by
  rcases List.eq_nil_or_concat rounds with rfl | ⟨earlier, round, rfl⟩
  · cases hrun
    exact ⟨fun _ round hround => by simp at hround, fun _ => ⟨rfl, rfl⟩⟩
  · rw [List.concat_eq_append] at hrun ⊢
    obtain ⟨middle, hbefore, hlast⟩ := hrun.split
    have htallied := tallied_of_run hreports hbefore
    cases hlast with
    | cons hstep hrest =>
        cases hrest
        obtain ⟨-, -, hreqCount, hrspCount⟩ :=
          matchStep_counts hreports htallied.reqFull htallied.rspFull hstep
        have hrequests := htallied.requests.eq_iff conn.req.created
        have hresponses := htallied.responses.eq_iff conn.rsp.created
        rw [← hreqCount, List.forall_mem_map] at hrequests
        rw [← hrspCount, List.forall_mem_map] at hresponses
        unfold PushedLast
        rw [List.dropLast_concat]
        constructor
        · intro h round hround
          exact ⟨hrequests.mp h.requests round hround, hresponses.mp h.responses round hround⟩
        · intro h
          exact ⟨hrequests.mpr fun round hround => (h round hround).1,
            hresponses.mpr fun round hround => (h round hround).2⟩

section Pgsql

open Pgsql

-- What one round of the loop keeps of the streams and of the numbers reported.
structure SameCounts (before after : Matching) : Prop where
  req : SameFrames before.req after.req
  rsp : SameFrames before.rsp after.rsp
  reqCount : after.records.reqCount = before.records.reqCount
  respCount : after.records.respCount = before.records.respCount

theorem SameCounts.refl (matching : Matching) : SameCounts matching matching :=
  ⟨.refl _, .refl _, rfl, rfl⟩

theorem SameCounts.trans {first middle last : Matching} (h : SameCounts first middle)
    (hnext : SameCounts middle last) : SameCounts first last where
  req := h.req.trans hnext.req
  rsp := h.rsp.trans hnext.rsp
  reqCount := hnext.reqCount.trans h.reqCount
  respCount := hnext.respCount.trans h.respCount

theorem matchRequest_sameCounts {unset : ℕ → UInt64} {matching next : Matching} {slot : Option ℕ}
    (h : matchRequest unset matching slot = some next) : SameCounts matching next := by
  obtain ⟨⟨ptr, frame⟩, -, hrest⟩ := Option.bind_eq_some_iff.mp h
  dsimp only at hrest
  cases hhandler : handlerOf frame.msg with
  | none =>
      rw [hhandler] at hrest
      cases hrest
      exact .refl _
  | some handler =>
      rw [hhandler] at hrest
      obtain ⟨handled, -, hhandled⟩ := Option.bind_eq_some_iff.mp hrest
      cases hresult : handled.result with
      | error state =>
          rw [hresult] at hhandled
          cases hhandled
          exact ⟨⟨rfl, rfl⟩, ⟨rfl, rfl⟩, rfl, rfl⟩
      | ok reply =>
          rw [hresult] at hhandled
          cases hhandled
          unfold pgsqlMatcherAddRecord
          split_ifs with hfull
          · exact ⟨⟨rfl, rfl⟩, ⟨rfl, rfl⟩, rfl, rfl⟩
          · exact ⟨⟨rfl, rfl⟩, ⟨rfl, rfl⟩, rfl, rfl⟩

theorem foldlM_sameCounts {unset : ℕ → UInt64} {slots : List (Option ℕ)} {matching next : Matching}
    (h : slots.foldlM (matchRequest unset) matching = some next) : SameCounts matching next := by
  induction slots generalizing matching with
  | nil =>
      cases h
      exact .refl _
  | cons slot slots ih =>
      rw [List.foldlM_cons] at h
      obtain ⟨middle, hstep, hrest⟩ := Option.bind_eq_some_iff.mp h
      exact (matchRequest_sameCounts hstep).trans (ih hrest)

theorem dropConsumed_sameCounts {matching next : Matching} (h : dropConsumed matching = some next) :
    SameCounts matching next := by
  obtain ⟨count, -, hrest⟩ := Option.bind_eq_some_iff.mp h
  split_ifs at hrest with hnone
  · cases hrest
    exact .refl matching
  · cases hrest
    exact ⟨⟨rfl, rfl⟩, ⟨rfl, rfl⟩, rfl, rfl⟩

theorem pgsqlMatchFrames_sameCounts {unset : ℕ → UInt64} {req rsp : FrameStream PgsqlFrame}
    {matching : Matching} (h : pgsqlMatchFrames unset req rsp = some matching) :
    SameCounts (.start req rsp) matching := by
  obtain ⟨middle, hloop, hdrop⟩ := Option.bind_eq_some_iff.mp h
  have hmiddle : SameCounts (.start req rsp) middle := by
    split_ifs at hloop with hresponses
    · exact foldlM_sameCounts hloop
    · cases hloop
      exact .refl _
  exact hmiddle.trans (dropConsumed_sameCounts hdrop)

theorem reports_pgsqlMatcher (unset : ℕ → UInt64) : Reports (pgsqlMatcher unset) where
  counts := by
    intro req rsp reqAfter rspAfter records h
    obtain ⟨matching, hmatch, hresult⟩ := Option.map_eq_some_iff.mp h
    have hsame := pgsqlMatchFrames_sameCounts hmatch
    cases hresult
    exact ⟨hsame.reqCount, hsame.respCount⟩
  same := by
    intro req rsp reqAfter rspAfter records h
    obtain ⟨matching, hmatch, hresult⟩ := Option.map_eq_some_iff.mp h
    have hsame := pgsqlMatchFrames_sameCounts hmatch
    cases hresult
    exact ⟨hsame.req, hsame.rsp⟩

end Pgsql

section Http

open Http

theorem reports_httpMatchFrames (unset : ℕ → Option UInt64) : Reports (httpMatchFrames unset) where
  counts := by
    intro req rsp reqAfter rspAfter records h
    obtain ⟨matching, -, hresult⟩ := Option.map_eq_some_iff.mp h
    cases hresult
    exact ⟨rfl, rfl⟩
  same := by
    intro req rsp reqAfter rspAfter records h
    obtain ⟨matching, -, hresult⟩ := Option.map_eq_some_iff.mp h
    cases hresult
    exact ⟨⟨rfl, rfl⟩, ⟨rfl, rfl⟩⟩

end Http

open Pgsql Http

theorem reports_protoMatchFrames (type : MatchedProto) (unset : type.Unset) :
    Reports (protoMatchFrames type unset) := by
  cases type with
  | pgsql => exact reports_pgsqlMatcher unset
  | http => exact reports_httpMatchFrames unset

-- Both counters are right exactly if no frame was there before the last round.
theorem counters_iff (type : MatchedProto) (rounds : List (MatchRound type.Frame type.Unset))
    (conn : CountedConn type.Frame)
    (hrun : Run (matchStep (protoMatchFrames type)) .init rounds conn) :
    Conserved conn ↔ PushedLast rounds :=
  conserved_iff_pushedLast (reports_protoMatchFrames type) hrun

def silence {φ ι : Type} (unset : ι) : MatchRound φ ι := ⟨[], [], unset⟩

def oneRequest {φ ι : Type} (request : φ) (unset : ι) : MatchRound φ ι := ⟨[request], [], unset⟩

def pgsqlQuery : PgsqlFrame := ⟨⟨1, PGSQL_SIMPLE_QUERY, 6, [59, 0]⟩, false⟩
def httpGet : HttpMessage := ⟨1, -1⟩

-- The only request comes in the last round.
theorem counters_iff_requestLast :
    ∃ conn, Run (matchStep (protoMatchFrames .pgsql)) .init
      [silence fun _ => 0, oneRequest pgsqlQuery fun _ => 0] conn ∧ Conserved conn := by
  have hexists : ∃ conn, Run (matchStep (protoMatchFrames .pgsql)) .init
      [silence fun _ => 0, oneRequest pgsqlQuery fun _ => 0] conn :=
    ⟨_, .cons (rfl : _ = some _) (.cons (rfl : _ = some _) (.nil _))⟩
  obtain ⟨conn, hrun⟩ := hexists
  exact ⟨conn, hrun, (counters_iff .pgsql _ conn hrun).mpr (by simp [PushedLast, silence])⟩

-- A request that stays buffered is counted again.
theorem buffered_request_counted_twice :
    (¬∀ rounds conn, Run (matchStep (protoMatchFrames .pgsql)) .init rounds conn →
      Conserved conn) ∧
    ¬∀ rounds conn, Run (matchStep (protoMatchFrames .http)) .init rounds conn →
      Conserved conn := by
  constructor
  · intro h
    have hexists : ∃ conn, Run (matchStep (protoMatchFrames .pgsql)) .init
        [oneRequest pgsqlQuery fun _ => 0, silence fun _ => 0] conn :=
      ⟨_, .cons (rfl : _ = some _) (.cons (rfl : _ = some _) (.nil _))⟩
    obtain ⟨conn, hrun⟩ := hexists
    have hlast := (conserved_iff_pushedLast reports_pgsqlMatcher hrun).mp (h _ conn hrun)
    cases (hlast _ List.mem_cons_self).1
  · intro h
    have hexists : ∃ conn, Run (matchStep (protoMatchFrames .http)) .init
        [oneRequest httpGet fun _ => none, silence fun _ => none] conn :=
      ⟨_, .cons (rfl : _ = some _) (.cons (rfl : _ = some _) (.nil _))⟩
    obtain ⟨conn, hrun⟩ := hexists
    have hlast := (conserved_iff_pushedLast reports_httpMatchFrames hrun).mp (h _ conn hrun)
    cases (hlast _ List.mem_cons_self).1

end Gopher.L7
