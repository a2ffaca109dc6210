import Gopher.L7.Pgsql.Matcher.Timing

namespace Gopher.L7.Pgsql

open Gopher.L7

-- The latency of a record runs from its own request to one of the responses.
def Attributed (req rsp : FrameStream PgsqlFrame) (data : RecordData PgsqlRecord) : Prop :=
  ∃ request, msgAt req data.record.reqMsg = some request ∧
    ∃ response ∈ msgs rsp.slots, request.timestampNs ≤ response.timestampNs ∧
      data.latency = response.timestampNs - request.timestampNs

-- What a request takes lies in an interval of the responses, the intervals of later
-- requests behind it.
structure InIntervals (rsp : FrameStream PgsqlFrame) (takens : List (List ℕ))
    (intervals : List (ℕ × ℕ)) : Prop where
  inside : List.Forall₂ (fun taken interval => interval.1 < interval.2 ∧
    taken.Sublist (pointers ((rsp.slots.take interval.2).drop interval.1))) takens intervals
  increasing : intervals.Pairwise fun first second => first.2 ≤ second.1
  bounded : ∀ interval ∈ intervals, interval.2 ≤ rsp.slots.length

structure Attribution (req rsp : FrameStream PgsqlFrame) (matching : Matching) : Prop where
  latency : ∀ data ∈ matching.records.records, Attributed req rsp data
  intervals : ∃ intervals, InIntervals rsp (matching.answers.map Prod.snd) intervals

-- A request that gets a time is not later than it. Without one, what is read instead
-- would have to be the time of a response.
structure InTime (unset : ℕ → UInt64) (rsp : FrameStream PgsqlFrame) (ptr : ℕ)
    (msg : PgsqlRegularMsg) (responses : List PgsqlRegularMsg) : Prop where
  timed : ∀ time, TimedBy msg responses (some time) → msg.timestampNs ≤ time
  untimed : TimedBy msg responses none → ∃ response ∈ msgs rsp.slots,
    response.timestampNs = unset ptr ∧ msg.timestampNs ≤ unset ptr

-- The loop comes to a request with these responses left.
def LoopTurn (unset : ℕ → UInt64) (matching : Matching) (unmatched : List (Option ℕ)) (ptr : ℕ)
    (msg : PgsqlRegularMsg) (responses : List PgsqlRegularMsg) : Prop :=
  ∃ before slot after middle, unmatched = before ++ slot :: after ∧
    before.foldlM (matchRequest unset) matching = some middle ∧
    (∃ frame, middle.req.follow slot = some (ptr, frame) ∧ frame.msg = msg) ∧
    responses = msgs middle.rsp.slots

section Turns

variable {unset : ℕ → UInt64} {matching next : Matching} {slot : Option ℕ}
  {rest : List (Option ℕ)} {ptr : ℕ} {msg : PgsqlRegularMsg} {responses : List PgsqlRegularMsg}

theorem not_loopTurn_nil : ¬LoopTurn unset matching [] ptr msg responses := by
  rintro ⟨before, slot, after, middle, heq, -⟩
  simp at heq

theorem loopTurn_cons_iff (hstep : matchRequest unset matching slot = some next) :
    LoopTurn unset matching (slot :: rest) ptr msg responses ↔
      ((∃ frame, matching.req.follow slot = some (ptr, frame) ∧ frame.msg = msg) ∧
        responses = msgs matching.rsp.slots) ∨ LoopTurn unset next rest ptr msg responses := by
  constructor
  · rintro ⟨before, other, after, middle, heq, hbefore, hfollow, hresponses⟩
    cases before with
    | nil =>
        obtain ⟨rfl, rfl⟩ := List.cons_eq_cons.mp heq
        cases hbefore
        exact .inl ⟨hfollow, hresponses⟩
    | cons head before =>
        obtain ⟨rfl, rfl⟩ := List.cons_eq_cons.mp heq
        rw [List.foldlM_cons, hstep] at hbefore
        exact .inr ⟨before, other, after, middle, rfl, hbefore, hfollow, hresponses⟩
  · rintro (⟨hfollow, hresponses⟩ | ⟨before, other, after, middle, rfl, hbefore, hturn⟩)
    · exact ⟨[], slot, rest, matching, rfl, rfl, hfollow, hresponses⟩
    · refine ⟨slot :: before, other, after, middle, rfl, ?_, hturn⟩
      rw [List.foldlM_cons, hstep]
      exact hbefore

end Turns

section Records

variable {unset : ℕ → UInt64} {req rsp : FrameStream PgsqlFrame} {ptr : ℕ}
  {msg : PgsqlRegularMsg} {responses : List PgsqlRegularMsg}

-- The record of an answered request is attributed exactly if the request is in time.
theorem attributed_iff (hmsg : msgAt req ptr = some msg) {time : Option UInt64} {taken : List ℕ}
    (hsubset : ∀ response ∈ responses, response ∈ msgs rsp.slots)
    (htimed : ∀ timestampNs, TimedBy msg responses timestampNs ↔ timestampNs = time) :
    Attributed req rsp ⟨⟨ptr, time.getD (unset ptr), taken⟩,
        time.getD (unset ptr) - msg.timestampNs⟩ ↔ InTime unset rsp ptr msg responses := by
  have hattributed (read : UInt64) : Attributed req rsp ⟨⟨ptr, read, taken⟩,
      read - msg.timestampNs⟩ ↔ ∃ response ∈ msgs rsp.slots,
        response.timestampNs = read ∧ msg.timestampNs ≤ read := by
    constructor
    · rintro ⟨request, hrequest, response, hmem, hle, hlatency⟩
      obtain rfl : msg = request := Option.some.inj (hmsg.symm.trans hrequest)
      obtain rfl := (UInt64.sub_left_inj _).mp hlatency
      exact ⟨response, hmem, rfl, hle⟩
    · rintro ⟨response, hmem, rfl, hle⟩
      exact ⟨msg, hmsg, response, hmem, hle, rfl⟩
  rw [hattributed]
  cases time with
  | none =>
      constructor
      · intro h
        refine ⟨fun time htime => ?_, fun _ => h⟩
        cases (htimed _).mp htime
      · intro h
        exact h.untimed ((htimed none).mpr rfl)
  | some read =>
      have hread := (htimed (some read)).mpr rfl
      constructor
      · rintro ⟨-, -, -, hle⟩
        refine ⟨fun other hother => ?_, fun hnone => ?_⟩
        · cases (htimed _).mp hother
          exact hle
        · cases (htimed _).mp hnone
      · intro h
        obtain ⟨response, hmem, htime⟩ := hread.exists_response
        exact ⟨response, hsubset response hmem, htime, h.timed read hread⟩

theorem inTime_of_untimed (h : ∀ timestampNs, ¬TimedBy msg responses timestampNs) :
    InTime unset rsp ptr msg responses :=
  ⟨fun _ htime => absurd htime (h _), fun hnone => absurd hnone (h _)⟩

end Records

-- How the loop stands between two requests: the frames are those of the start, the
-- responses are moved over up to a position, and what was taken lies before it.
structure Underway (req rsp : FrameStream PgsqlFrame) (matching : Matching) (ahead moved : ℕ)
    (intervals : List (ℕ × ℕ)) : Prop where
  requests : ∀ ptr, msgAt matching.req ptr = msgAt req ptr
  responses : matching.rsp = rsp.advance moved
  moved_le : moved ≤ rsp.slots.length
  room : matching.records.records.length + ahead ≤ RECORD_BUF_SIZE
  inside : InIntervals rsp (matching.answers.map Prod.snd) intervals
  behind : ∀ interval ∈ intervals, interval.2 ≤ moved

section Loop

variable {unset : ℕ → UInt64} {req rsp : FrameStream PgsqlFrame} {matching next last : Matching}
  {slot : Option ℕ} {unmatched : List (Option ℕ)} {ahead moved advanced ptr : ℕ}
  {intervals : List (ℕ × ℕ)}

theorem Underway.slots (h : Underway req rsp matching ahead moved intervals) :
    matching.rsp.slots = rsp.slots.drop moved := by
  rw [h.responses, FrameStream.slots_advance]

theorem Underway.start (hroom : req.slots.length ≤ RECORD_BUF_SIZE) :
    Underway req rsp (.start req rsp) req.unmatched.length 0 [] where
  requests _ := rfl
  responses := rfl
  moved_le := Nat.zero_le _
  room := by simpa [Matching.start, FrameStream.slots] using hroom
  inside := ⟨.nil, .nil, by simp⟩
  behind := by simp

-- Moving on without an answer.
theorem Underway.advance (h : Underway req rsp matching (ahead + 1) moved intervals)
    (hadvanced : advanced ≤ matching.rsp.slots.length)
    (hreq : next.req = matching.req) (hrsp : next.rsp = matching.rsp.advance advanced)
    (hrecords : next.records.records = matching.records.records) :
    Underway req rsp next ahead (moved + advanced) intervals where
  requests ptr := by rw [hreq, h.requests]
  responses := by rw [hrsp, h.responses, FrameStream.advance_advance]
  moved_le := by
    rw [h.slots, List.length_drop] at hadvanced
    have hmoved := h.moved_le
    omega
  room := by
    have hroom := h.room
    rw [hrecords]
    omega
  inside := by
    have hanswers : next.answers = matching.answers := by
      unfold Matching.answers
      rw [hrecords]
    rw [hanswers]
    exact h.inside
  behind interval hmem := Nat.le_trans (h.behind interval hmem) (Nat.le_add_right _ _)

theorem Underway.addRecord (h : Underway req rsp matching (ahead + 1) moved intervals)
    {reply : Reply} (msg : PgsqlRegularMsg)
    (hfits : (Handled.mk (.ok reply) advanced).Fits matching.rsp.slots) :
    Underway req rsp ((matching.advance advanced).addRecord unset ptr msg reply) ahead
      (moved + advanced) (intervals ++ [(moved, moved + advanced)]) := by
  obtain ⟨hpos, htaken⟩ := hfits.replied reply rfl
  have hadvanced := hfits.advanced_le
  dsimp only at hpos htaken hadvanced
  rw [h.slots, List.length_drop] at hadvanced
  have hmoved := h.moved_le
  have hlooped := looped_reply unset matching ptr advanced msg reply
  have htake : (rsp.slots.take (moved + advanced)).drop moved =
      (rsp.slots.drop moved).take advanced := by
    rw [List.drop_take, Nat.add_sub_cancel_left]
  constructor
  case requests =>
    intro other
    rw [hlooped.req, msgAt_foldl_consume, h.requests]
  case responses => rw [hlooped.rsp, h.responses, FrameStream.advance_advance]
  case moved_le => omega
  case room =>
    have hroom := h.room
    have hlength := congrArg List.length hlooped.answers
    rw [length_answers, List.length_append, length_answers, List.length_singleton] at hlength
    omega
  case inside =>
    rw [hlooped.answers, List.map_append]
    refine ⟨?_, ?_, ?_⟩
    · refine List.rel_append h.inside.inside (.cons ⟨by omega, ?_⟩ .nil)
      rw [htake, ← h.slots]
      exact htaken
    · refine List.pairwise_append.mpr ⟨h.inside.increasing, List.pairwise_singleton _ _, ?_⟩
      intro first hfirst second hsecond
      rw [List.mem_singleton.mp hsecond]
      exact h.behind first hfirst
    · refine List.forall_mem_append.mpr ⟨h.inside.bounded, ?_⟩
      exact List.forall_mem_singleton.mpr (by dsimp only; omega)
  case behind =>
    refine List.forall_mem_append.mpr ⟨fun interval hmem => ?_, ?_⟩
    · exact Nat.le_trans (h.behind interval hmem) (Nat.le_add_right _ _)
    · exact List.forall_mem_singleton.mpr (Nat.le_refl _)

-- One round of the loop adds a record that is attributed, or none, exactly if its
-- request is in time.
theorem Underway.step (h : Underway req rsp matching (ahead + 1) moved intervals)
    (hstep : matchRequest unset matching slot = some next) :
    (∃ moved intervals, Underway req rsp next ahead moved intervals) ∧
      ∃ ptr frame, matching.req.follow slot = some (ptr, frame) ∧
        ((∀ data ∈ next.records.records, Attributed req rsp data) ↔
          (∀ data ∈ matching.records.records, Attributed req rsp data) ∧
            InTime unset rsp ptr frame.msg (msgs matching.rsp.slots)) := by
  obtain ⟨⟨ptr, frame⟩, hfollow, -⟩ := Option.bind_eq_some_iff.mp hstep
  obtain ⟨rfl, hframe⟩ := FrameStream.follow_eq_some.mp hfollow
  have hmsg : msgAt matching.req ptr = some frame.msg := by simp [msgAt, hframe]
  have hroom : matching.records.records.length ≤ RECORD_BUF_SIZE := by
    have hroom := h.room
    omega
  rcases matchRequest_cases hmsg hroom hstep with ⟨hhandler, rfl⟩ |
    ⟨handler, state, advanced, hhandler, herror, rfl⟩ |
    ⟨handler, reply, advanced, hhandler, hreply, rfl⟩
  · have hnext : Underway req rsp next ahead (moved + 0) intervals :=
      h.advance (Nat.zero_le _) rfl rfl rfl
    refine ⟨⟨_, _, hnext⟩, ptr, frame, hfollow, ?_⟩
    have hintime : InTime unset rsp ptr frame.msg (msgs next.rsp.slots) :=
      inTime_of_untimed fun _ => not_timedBy_of_skipped hhandler _
    simp [hintime]
  · have hfits := handler_fits hhandler herror
    have hnext : Underway req rsp ((matching.advance advanced).countError ptr
        (responseArrived frame.msg matching.rsp.slots)) ahead (moved + advanced) intervals :=
      h.advance hfits.advanced_le rfl rfl rfl
    refine ⟨⟨_, _, hnext⟩, ptr, frame, hfollow, ?_⟩
    have hintime : InTime unset rsp ptr frame.msg (msgs matching.rsp.slots) := by
      refine inTime_of_untimed fun timestampNs htimed => ?_
      exact not_timedAt_failed state advanced ((handler_timedAt_iff hhandler herror).mpr htimed)
    have hsame : ((matching.advance advanced).countError ptr
        (responseArrived frame.msg matching.rsp.slots)).records.records =
        matching.records.records := rfl
    simp [hsame, hintime]
  · have hfits := handler_fits hhandler hreply
    refine ⟨⟨_, _, h.addRecord frame.msg hfits⟩, ptr, frame, hfollow, ?_⟩
    have hsubset : ∀ response ∈ msgs matching.rsp.slots, response ∈ msgs rsp.slots := by
      rw [h.slots]
      exact fun response hmem => ((List.drop_sublist _ _).filterMap _).subset hmem
    have htimed (timestampNs : Option UInt64) :
        TimedBy frame.msg (msgs matching.rsp.slots) timestampNs ↔
          timestampNs = reply.timestampNs := by
      rw [← handler_timedAt_iff hhandler hreply]
      exact timedAt_replied_iff reply.taken reply.timestampNs advanced
    rw [h.requests] at hmsg
    have hrecord := @attributed_iff unset req rsp ptr frame.msg _ hmsg reply.timestampNs
      reply.taken hsubset htimed
    rw [← hrecord]
    have hadded :
        ((matching.advance advanced).addRecord unset ptr frame.msg reply).records.records =
          matching.records.records ++ [⟨⟨ptr, reply.timestampNs.getD (unset ptr), reply.taken⟩,
            reply.timestampNs.getD (unset ptr) - frame.msg.timestampNs⟩] := rfl
    rw [hadded, List.forall_mem_append, List.forall_mem_singleton]

-- By induction on the requests that are ahead.
theorem Underway.loop (h : Underway req rsp matching unmatched.length moved intervals)
    (hloop : unmatched.foldlM (matchRequest unset) matching = some last) :
    (∃ intervals, InIntervals rsp (last.answers.map Prod.snd) intervals) ∧
      ((∀ data ∈ last.records.records, Attributed req rsp data) ↔
        (∀ data ∈ matching.records.records, Attributed req rsp data) ∧
          ∀ ptr msg responses, LoopTurn unset matching unmatched ptr msg responses →
            InTime unset rsp ptr msg responses) := by
  induction unmatched generalizing matching moved intervals with
  | nil =>
      cases hloop
      exact ⟨⟨_, h.inside⟩, by simp [not_loopTurn_nil]⟩
  | cons slot rest ih =>
      rw [List.foldlM_cons] at hloop
      obtain ⟨next, hstep, hrest⟩ := Option.bind_eq_some_iff.mp hloop
      obtain ⟨⟨_, _, hnext⟩, ptr, frame, hfollow, hrecords⟩ := h.step hstep
      obtain ⟨hintervals, hlast⟩ := ih hnext hrest
      refine ⟨hintervals, ?_⟩
      rw [hlast, hrecords, and_assoc]
      refine and_congr_right fun _ => ?_
      constructor
      · rintro ⟨hfirst, hlater⟩ other msg responses hturn
        rcases (loopTurn_cons_iff hstep).mp hturn with ⟨⟨found, hfound, rfl⟩, rfl⟩ | hturn
        · rw [hfollow] at hfound
          cases hfound
          exact hfirst
        · exact hlater other msg responses hturn
      · intro hall
        have hfirst : LoopTurn unset matching (slot :: rest) ptr frame.msg (msgs matching.rsp.slots) :=
          (loopTurn_cons_iff hstep).mpr (.inl ⟨⟨frame, hfollow, rfl⟩, rfl⟩)
        refine ⟨hall ptr frame.msg _ hfirst, fun other msg responses hturn => ?_⟩
        exact hall other msg responses ((loopTurn_cons_iff hstep).mpr (.inr hturn))

end Loop

-- A request that a round of matching looks at, with the responses left then. The loop
-- does not start without responses.
def Turn (unset : ℕ → UInt64) (req rsp : FrameStream PgsqlFrame) (ptr : ℕ)
    (msg : PgsqlRegularMsg) (responses : List PgsqlRegularMsg) : Prop :=
  rsp.frameBufs.currentPos < rsp.frameBufs.frameBufSize ∧
    LoopTurn unset (.start req rsp) req.unmatched ptr msg responses

section MatchFrames

variable {unset : ℕ → UInt64} {req rsp : FrameStream PgsqlFrame} {matching : Matching}

theorem length_slots_le (hsize : req.frameBufs.frameBufSize ≤ FRAME_BUF_SIZE) :
    req.slots.length ≤ RECORD_BUF_SIZE := by
  have hcontents := FrameBuf.length_contents req.frameBufs
  simp only [FrameStream.slots, FrameStream.unmatched, List.length_map, List.length_drop]
  unfold FRAME_BUF_SIZE at hsize
  unfold RECORD_BUF_SIZE
  omega

-- All records of a round are attributed exactly if every request is in time at its turn.
theorem attribution_iff (hsize : req.frameBufs.frameBufSize ≤ FRAME_BUF_SIZE)
    (h : pgsqlMatchFrames unset req rsp = some matching) :
    Attribution req rsp matching ↔ ∀ ptr msg responses, Turn unset req rsp ptr msg responses →
      InTime unset rsp ptr msg responses := by
  obtain ⟨last, hloop, hdrop⟩ := Option.bind_eq_some_iff.mp h
  have hsame : matching.records = last.records := by
    obtain ⟨count, -, rfl⟩ := dropConsumed_eq_some_iff.mp hdrop
    rfl
  have hanswers : matching.answers = last.answers := congrArg
    (fun records => records.records.map fun data => (data.record.reqMsg, data.record.taken)) hsame
  split_ifs at hloop with hstarts
  · obtain ⟨hintervals, hlatency⟩ := (Underway.start (length_slots_le hsize)).loop hloop
    have hfirst : ∀ data ∈ (Matching.start req rsp).records.records, Attributed req rsp data := by
      simp [Matching.start]
    constructor
    · intro hattribution ptr msg responses hturn
      have hrecords := hattribution.latency
      rw [hsame] at hrecords
      exact (hlatency.mp hrecords).2 ptr msg responses hturn.2
    · intro hturns
      refine ⟨?_, by rwa [hanswers]⟩
      rw [hsame]
      exact hlatency.mpr ⟨hfirst, fun ptr msg responses hturn =>
        hturns ptr msg responses ⟨hstarts, hturn⟩⟩
  · cases hloop
    refine iff_of_true ⟨?_, [], ?_⟩ fun ptr msg responses hturn => absurd hturn.1 hstarts
    · rw [hsame]
      simp [Matching.start]
    · rw [hanswers]
      exact ⟨.nil, .nil, by simp⟩

end MatchFrames

-- A query, and the end of an answer from before it was sent.
def lateQuery : FrameStream PgsqlFrame :=
  FrameStream.init.pushFrame (bareFrame 5 PGSQL_SIMPLE_QUERY)

def earlyAnswer : FrameStream PgsqlFrame :=
  FrameStream.init.pushFrame (bareFrame 3 PGSQL_CMD_COMPLETE)

def lateQueryMatched : Matching :=
  let answered := (Matching.start lateQuery earlyAnswer).addRecord (fun _ => 0) 0
    (bareFrame 5 PGSQL_SIMPLE_QUERY).msg ⟨[0], some 3⟩
  { answered with
    req := answered.req.advance 1
    rsp := earlyAnswer.setPos 1 }

theorem attribution_iff_lateQuery :
    Attribution lateQuery earlyAnswer lateQueryMatched ↔ ∀ ptr msg responses,
      Turn (fun _ => 0) lateQuery earlyAnswer ptr msg responses →
        InTime (fun _ => 0) earlyAnswer ptr msg responses :=
  @attribution_iff (fun _ => 0) lateQuery earlyAnswer lateQueryMatched (by decide) rfl

def InTimeOrder (stream : FrameStream PgsqlFrame) : Prop :=
  ((msgs stream.slots).map timeOf).Pairwise (· ≤ ·)

theorem lateQuery_not_attributed :
    ¬∀ unset req rsp matching, InTimeOrder req → InTimeOrder rsp →
      pgsqlMatchFrames unset req rsp = some matching → Attribution req rsp matching := by
  intro h
  have hattribution := h (fun _ => 0) lateQuery earlyAnswer lateQueryMatched
    (List.pairwise_singleton _ _) (List.pairwise_singleton _ _) rfl
  obtain ⟨request, hrequest, response, hresponse, hle, -⟩ :=
    hattribution.latency _ List.mem_cons_self
  have hslots : msgs earlyAnswer.slots = [(bareFrame 3 PGSQL_CMD_COMPLETE).msg] := rfl
  rw [hslots, List.mem_singleton] at hresponse
  cases hrequest
  subst hresponse
  exact absurd hle (by decide)

end Gopher.L7.Pgsql
