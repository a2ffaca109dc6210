import Gopher.L7.Pgsql.Matcher.Theorems

namespace Gopher.L7.Pgsql

open Gopher.L7

section Consume

theorem frames_foldl_consume (req : FrameStream PgsqlFrame) (ptrs : List ℕ) (ptr : ℕ) :
    (ptrs.foldl consume req).frames ptr =
      if ptr ∈ ptrs then (req.frames ptr).map PgsqlFrame.markConsumed else req.frames ptr := by
  induction ptrs generalizing req with
  | nil => simp
  | cons first ptrs ih =>
      rw [List.foldl_cons, ih]
      by_cases heq : ptr = first
      · subst heq
        -- marking a frame again changes nothing
        cases hframe : req.frames ptr <;> simp [consume, hframe, PgsqlFrame.markConsumed]
      · simp [consume, heq]

theorem frameBufs_foldl_consume (req : FrameStream PgsqlFrame) (ptrs : List ℕ) :
    (ptrs.foldl consume req).frameBufs = req.frameBufs ∧
      (ptrs.foldl consume req).created = req.created := by
  induction ptrs generalizing req with
  | nil => exact ⟨rfl, rfl⟩
  | cons first ptrs ih => exact ih (consume req first)

theorem unmatched_foldl_consume (req : FrameStream PgsqlFrame) (ptrs : List ℕ) :
    (ptrs.foldl consume req).unmatched = req.unmatched := by
  rw [FrameStream.unmatched, (frameBufs_foldl_consume req ptrs).1, ← FrameStream.unmatched]

-- The message of the frame behind a pointer.
def msgAt (req : FrameStream PgsqlFrame) (ptr : ℕ) : Option PgsqlRegularMsg :=
  (req.frames ptr).map PgsqlFrame.msg

theorem msgAt_foldl_consume (req : FrameStream PgsqlFrame) (ptrs : List ℕ) (ptr : ℕ) :
    msgAt (ptrs.foldl consume req) ptr = msgAt req ptr := by
  unfold msgAt
  rw [frames_foldl_consume]
  split_ifs with hmem
  · rw [Option.map_map]
    rfl
  · rfl

end Consume

section Request

variable {unset : ℕ → UInt64} {matching : Matching} {ptr advanced : ℕ} {msg : PgsqlRegularMsg}
  {handler : List (Slot PgsqlFrame) → Option Handled}

theorem follow_of_msgAt (h : msgAt matching.req ptr = some msg) :
    ∃ frame, matching.req.follow (some ptr) = some (ptr, frame) ∧ frame.msg = msg := by
  obtain ⟨frame, hframe, hmsg⟩ := Option.map_eq_some_iff.mp h
  exact ⟨frame, FrameStream.follow_eq_some.mpr ⟨rfl, hframe⟩, hmsg⟩

theorem matchRequest_skip (unset : ℕ → UInt64) (hmsg : msgAt matching.req ptr = some msg)
    (hhandler : handlerOf msg = none) : matchRequest unset matching (some ptr) = some matching := by
  obtain ⟨frame, hfollow, rfl⟩ := follow_of_msgAt hmsg
  simp [matchRequest, hfollow, hhandler]

theorem matchRequest_refuse {state : ParseState} (unset : ℕ → UInt64)
    (hmsg : msgAt matching.req ptr = some msg)
    (hhandler : handlerOf msg = some handler)
    (herror : handler matching.rsp.slots = some ⟨.error state, advanced⟩) :
    matchRequest unset matching (some ptr) = some ((matching.advance advanced).countError ptr
      (responseArrived msg matching.rsp.slots)) := by
  obtain ⟨frame, hfollow, rfl⟩ := follow_of_msgAt hmsg
  simp [matchRequest, hfollow, hhandler, herror]

theorem matchRequest_reply {reply : Reply} (unset : ℕ → UInt64)
    (hmsg : msgAt matching.req ptr = some msg)
    (hhandler : handlerOf msg = some handler)
    (hreply : handler matching.rsp.slots = some ⟨.ok reply, advanced⟩)
    (hroom : matching.records.records.length ≤ RECORD_BUF_SIZE) :
    matchRequest unset matching (some ptr) =
      some ((matching.advance advanced).addRecord unset ptr msg reply) := by
  obtain ⟨frame, hfollow, rfl⟩ := follow_of_msgAt hmsg
  have hadd : ¬RECORD_BUF_SIZE < (matching.advance advanced).records.records.length := by
    have hsame : (matching.advance advanced).records = matching.records := rfl
    rw [hsame]
    omega
  simp [matchRequest, hfollow, hhandler, hreply, pgsqlMatcherAddRecord, hadd]

-- All that one round of the loop can do.
theorem matchRequest_cases {next : Matching} (hmsg : msgAt matching.req ptr = some msg)
    (hroom : matching.records.records.length ≤ RECORD_BUF_SIZE)
    (h : matchRequest unset matching (some ptr) = some next) :
    (handlerOf msg = none ∧ next = matching) ∨
      (∃ handler state advanced, handlerOf msg = some handler ∧
        handler matching.rsp.slots = some ⟨.error state, advanced⟩ ∧
        next = (matching.advance advanced).countError ptr
          (responseArrived msg matching.rsp.slots)) ∨
      ∃ handler reply advanced, handlerOf msg = some handler ∧
        handler matching.rsp.slots = some ⟨.ok reply, advanced⟩ ∧
        next = (matching.advance advanced).addRecord unset ptr msg reply := by
  cases hhandler : handlerOf msg with
  | none =>
      rw [matchRequest_skip unset hmsg hhandler] at h
      exact .inl ⟨rfl, (Option.some.inj h).symm⟩
  | some handler =>
      right
      rcases hhandled : handler matching.rsp.slots with _ | ⟨state | reply, advanced⟩
      · obtain ⟨frame, hfollow, rfl⟩ := follow_of_msgAt hmsg
        simp [matchRequest, hfollow, hhandler, hhandled] at h
      · rw [matchRequest_refuse unset hmsg hhandler hhandled] at h
        exact .inl ⟨handler, state, advanced, rfl, hhandled, (Option.some.inj h).symm⟩
      · rw [matchRequest_reply unset hmsg hhandler hhandled hroom] at h
        exact .inr ⟨handler, reply, advanced, rfl, hhandled, (Option.some.inj h).symm⟩

end Request

-- What the loop does with the requests in turn when it counts no request as an error
-- whose response has not arrived: how far it moves the position of the responses, and
-- the requests it answers with the responses they take.
inductive Worked : List (ℕ × PgsqlFrame) → List (Slot PgsqlFrame) → ℕ → List (ℕ × List ℕ) → Prop
  | nil (slots : List (Slot PgsqlFrame)) : Worked [] slots 0 []
  | skip {ptr : ℕ} {frame : PgsqlFrame} {requests : List (ℕ × PgsqlFrame)}
      {slots : List (Slot PgsqlFrame)} {moved : ℕ} {answers : List (ℕ × List ℕ)}
      (hhandler : handlerOf frame.msg = none) (hrest : Worked requests slots moved answers) :
      Worked ((ptr, frame) :: requests) slots moved answers
  | refuse {ptr : ℕ} {frame : PgsqlFrame} {requests : List (ℕ × PgsqlFrame)}
      {slots : List (Slot PgsqlFrame)} {handler : List (Slot PgsqlFrame) → Option Handled}
      {state : ParseState} {advanced moved : ℕ} {answers : List (ℕ × List ℕ)}
      (hhandler : handlerOf frame.msg = some handler)
      (herror : handler slots = some ⟨.error state, advanced⟩)
      (harrived : responseArrived frame.msg slots = true)
      (hrest : Worked requests (slots.drop advanced) moved answers) :
      Worked ((ptr, frame) :: requests) slots (advanced + moved) answers
  | reply {ptr : ℕ} {frame : PgsqlFrame} {requests : List (ℕ × PgsqlFrame)}
      {slots : List (Slot PgsqlFrame)} {handler : List (Slot PgsqlFrame) → Option Handled}
      {reply : Reply} {advanced moved : ℕ} {answers : List (ℕ × List ℕ)}
      (hhandler : handlerOf frame.msg = some handler)
      (hreply : handler slots = some ⟨.ok reply, advanced⟩)
      (hrest : Worked requests (slots.drop advanced) moved answers) :
      Worked ((ptr, frame) :: requests) slots (advanced + moved) ((ptr, reply.taken) :: answers)

-- How the loop leaves what it works on.
structure Looped (first last : Matching) (moved : ℕ) (answers : List (ℕ × List ℕ)) : Prop where
  req : last.req = (answers.map Prod.fst).foldl consume first.req
  rsp : last.rsp = first.rsp.advance moved
  answers : last.answers = first.answers ++ answers
  refused : ∃ refused, last.refused = first.refused ++ refused ∧
    ∀ request ∈ refused, request.2 = true

section Loop

variable {unset : ℕ → UInt64} {first middle last matching : Matching}
  {requests : List (ℕ × PgsqlFrame)} {slots : List (Slot PgsqlFrame)} {ptr advanced moved more : ℕ}
  {answers others : List (ℕ × List ℕ)}

theorem Looped.refl (matching : Matching) : Looped matching matching 0 [] :=
  ⟨rfl, rfl, (List.append_nil _).symm, [], (List.append_nil _).symm, by simp⟩

theorem Looped.trans (h : Looped first middle moved answers)
    (hnext : Looped middle last more others) :
    Looped first last (moved + more) (answers ++ others) := by
  obtain ⟨refused, hrefused, harrived⟩ := h.refused
  obtain ⟨refusedNext, hrefusedNext, harrivedNext⟩ := hnext.refused
  refine ⟨?_, ?_, ?_, refused ++ refusedNext, ?_, ?_⟩
  · rw [hnext.req, h.req, List.map_append, List.foldl_append]
  · rw [hnext.rsp, h.rsp, FrameStream.advance_advance]
  · rw [hnext.answers, h.answers, List.append_assoc]
  · rw [hrefusedNext, hrefused, List.append_assoc]
  · exact List.forall_mem_append.mpr ⟨harrived, harrivedNext⟩

theorem looped_refuse (matching : Matching) (ptr advanced : ℕ) :
    Looped matching ((matching.advance advanced).countError ptr true) advanced [] :=
  ⟨rfl, rfl, (List.append_nil _).symm, [(ptr, true)], rfl, by simp⟩

theorem looped_reply (unset : ℕ → UInt64) (matching : Matching) (ptr advanced : ℕ)
    (msg : PgsqlRegularMsg) (reply : Reply) :
    Looped matching ((matching.advance advanced).addRecord unset ptr msg reply) advanced
      [(ptr, reply.taken)] := by
  refine ⟨rfl, rfl, ?_, [], (List.append_nil _).symm, by simp⟩
  simp [Matching.answers, Matching.addRecord, Matching.advance]

theorem length_answers (matching : Matching) :
    matching.answers.length = matching.records.records.length := List.length_map _

-- The requests the loop has before it, and room for their records.
structure Ahead (matching : Matching) (requests : List (ℕ × PgsqlFrame)) : Prop where
  msgs : ∀ request ∈ requests, msgAt matching.req request.1 = some request.2.msg
  room : matching.answers.length + requests.length ≤ RECORD_BUF_SIZE

theorem Ahead.records_le (h : Ahead matching requests) :
    matching.records.records.length ≤ RECORD_BUF_SIZE := by
  have hroom := h.room
  rw [length_answers] at hroom
  omega

theorem Ahead.next {request : ℕ × PgsqlFrame} {next : Matching}
    (h : Ahead matching (request :: requests)) (ptrs : List ℕ)
    (hreq : next.req = ptrs.foldl consume matching.req)
    (hone : next.answers.length ≤ matching.answers.length + 1) : Ahead next requests where
  msgs := by
    intro other hother
    rw [hreq, msgAt_foldl_consume]
    exact h.msgs other (List.mem_cons_of_mem _ hother)
  room := by
    have hroom := h.room
    rw [List.length_cons] at hroom
    omega

-- By induction along the work: each request is one round of the loop.
theorem Worked.foldlM (h : Worked requests slots moved answers) (unset : ℕ → UInt64)
    (hslots : matching.rsp.slots = slots) (hahead : Ahead matching requests) :
    ∃ last, ((requests.map Prod.fst).map some).foldlM (matchRequest unset) matching = some last ∧
      Looped matching last moved answers := by
  induction h generalizing matching with
  | nil slots => exact ⟨matching, rfl, .refl matching⟩
  | @skip ptr frame requests slots moved answers hhandler hrest ih =>
      have hstep := matchRequest_skip unset (hahead.msgs _ List.mem_cons_self) hhandler
      obtain ⟨last, hloop, hlast⟩ := ih hslots (hahead.next [] rfl (Nat.le_succ _))
      refine ⟨last, ?_, hlast⟩
      rw [List.map_cons, List.map_cons, List.foldlM_cons, hstep]
      exact hloop
  | @refuse ptr frame requests slots handler state advanced moved answers hhandler herror harrived
      hrest ih =>
      subst hslots
      have hstep := matchRequest_refuse unset (hahead.msgs _ List.mem_cons_self) hhandler herror
      rw [harrived] at hstep
      have hfirst := looped_refuse matching ptr advanced
      have hnext : Ahead ((matching.advance advanced).countError ptr true) requests :=
        hahead.next [] rfl (Nat.le_succ _)
      obtain ⟨last, hloop, hlast⟩ := ih (by rw [hfirst.rsp, FrameStream.slots_advance]) hnext
      refine ⟨last, ?_, hfirst.trans hlast⟩
      rw [List.map_cons, List.map_cons, List.foldlM_cons, hstep]
      exact hloop
  | @reply ptr frame requests slots handler reply advanced moved answers hhandler hreply hrest ih =>
      subst hslots
      have hstep := matchRequest_reply unset (hahead.msgs _ List.mem_cons_self) hhandler
        hreply hahead.records_le
      have hfirst := looped_reply unset matching ptr advanced frame.msg reply
      obtain ⟨last, hloop, hlast⟩ := ih (by rw [hfirst.rsp, FrameStream.slots_advance])
        (hahead.next [ptr] rfl (by simp [hfirst.answers]))
      refine ⟨last, ?_, hfirst.trans hlast⟩
      rw [List.map_cons, List.map_cons, List.foldlM_cons, hstep]
      exact hloop

-- A loop that comes to its end and counts no request as an error whose response has
-- not arrived.
theorem worked_of_foldlM (hahead : Ahead matching requests)
    (h : ((requests.map Prod.fst).map some).foldlM (matchRequest unset) matching = some last)
    (harrived : ∀ request ∈ last.refused, request.2 = true) :
    ∃ moved answers, Worked requests matching.rsp.slots moved answers := by
  induction requests generalizing matching with
  | nil => exact ⟨0, [], .nil _⟩
  | cons request requests ih =>
      obtain ⟨ptr, frame⟩ := request
      rw [List.map_cons, List.map_cons, List.foldlM_cons] at h
      obtain ⟨next, hstep, hrest⟩ := Option.bind_eq_some_iff.mp h
      rcases matchRequest_cases (hahead.msgs _ List.mem_cons_self) hahead.records_le hstep with
        ⟨hhandler, rfl⟩ | ⟨handler, state, advanced, hhandler, herror, rfl⟩ |
        ⟨handler, reply, advanced, hhandler, hreply, rfl⟩
      · obtain ⟨moved, answers, hworked⟩ :=
          ih (hahead.next [] rfl (Nat.le_succ _)) hrest
        exact ⟨moved, answers, .skip hhandler hworked⟩
      · have hahead : Ahead ((matching.advance advanced).countError ptr
            (responseArrived frame.msg matching.rsp.slots)) requests :=
          hahead.next [] rfl (Nat.le_succ _)
        obtain ⟨moved, answers, hworked⟩ := ih hahead hrest
        obtain ⟨_, hloop, hlooped⟩ := hworked.foldlM unset rfl hahead
        obtain rfl := Option.some.inj (hloop.symm.trans hrest)
        obtain ⟨refused, hrefused, -⟩ := hlooped.refused
        have hptr := harrived (ptr, responseArrived frame.msg matching.rsp.slots) (by
          rw [hrefused]
          simp [Matching.countError])
        have hslots := FrameStream.slots_advance matching.rsp advanced
        exact ⟨_, _, .refuse hhandler herror hptr (hslots ▸ hworked)⟩
      · have hfirst := looped_reply unset matching ptr advanced frame.msg reply
        obtain ⟨moved, answers, hworked⟩ :=
          ih (hahead.next [ptr] rfl (by simp [hfirst.answers])) hrest
        rw [hfirst.rsp, FrameStream.slots_advance] at hworked
        exact ⟨_, _, .reply hhandler hreply hworked⟩

-- Marking does not hide a frame.
theorem isSome_follow_foldl_consume (req : FrameStream PgsqlFrame) (ptrs : List ℕ)
    (slot : Option ℕ) :
    ((ptrs.foldl consume req).follow slot).isSome = (req.follow slot).isSome := by
  cases slot with
  | none => rfl
  | some ptr =>
      simp only [FrameStream.follow, Option.bind_some, Option.isSome_map, frames_foldl_consume]
      split_ifs <;> simp

-- A loop that comes to its end could follow every request.
theorem isSome_follow_of_foldlM {unmatched : List (Option ℕ)}
    (hroom : matching.answers.length + unmatched.length ≤ RECORD_BUF_SIZE)
    (h : unmatched.foldlM (matchRequest unset) matching = some last) :
    ∀ slot ∈ unmatched, (matching.req.follow slot).isSome := by
  induction unmatched generalizing matching with
  | nil => simp
  | cons slot unmatched ih =>
      rw [List.foldlM_cons] at h
      rw [List.length_cons] at hroom
      obtain ⟨next, hstep, hrest⟩ := Option.bind_eq_some_iff.mp h
      obtain ⟨⟨ptr, frame⟩, hfollow, -⟩ := Option.bind_eq_some_iff.mp hstep
      obtain ⟨rfl, hframe⟩ := FrameStream.follow_eq_some.mp hfollow
      have hmsg : msgAt matching.req ptr = some frame.msg := by simp [msgAt, hframe]
      have hrecords : matching.records.records.length ≤ RECORD_BUF_SIZE := by
        rw [← length_answers]
        omega
      obtain ⟨ptrs, hreq, hone⟩ : ∃ ptrs : List ℕ, next.req = ptrs.foldl consume matching.req ∧
          next.answers.length ≤ matching.answers.length + 1 := by
        rcases matchRequest_cases hmsg hrecords hstep with
          ⟨-, rfl⟩ | ⟨handler, state, advanced, -, -, rfl⟩ | ⟨handler, reply, advanced, -, -, rfl⟩
        · exact ⟨[], rfl, Nat.le_succ _⟩
        · exact ⟨[], rfl, Nat.le_succ _⟩
        · have hlooped := looped_reply unset matching ptr advanced frame.msg reply
          exact ⟨[ptr], rfl, by simp [hlooped.answers]⟩
      refine List.forall_mem_cons.mpr ⟨by simp [hfollow], fun other hother => ?_⟩
      have hsome := ih (by omega) hrest other hother
      rwa [hreq, isSome_follow_foldl_consume] at hsome

end Loop

section DropConsumed

variable {req : FrameStream PgsqlFrame} {matching last : Matching} {count : ℕ}

-- The first of the slots shows an unmarked frame.
def UnmarkedAt (req : FrameStream PgsqlFrame) (slots : List (Option ℕ)) : Prop :=
  ∀ slot ∈ slots.head?, ∃ ptr frame, req.follow slot = some (ptr, frame) ∧ frame.consumed = false

theorem countConsumed_eq_some_iff {slots : List (Option ℕ)} :
    countConsumed req slots = some count ↔ count ≤ slots.length ∧
      (∀ slot ∈ slots.take count, ∃ ptr frame,
        req.follow slot = some (ptr, frame) ∧ frame.consumed = true) ∧
      UnmarkedAt req (slots.drop count) := by
  induction slots generalizing count with
  | nil =>
      rw [countConsumed, Option.some.injEq]
      simp [UnmarkedAt, eq_comm (a := 0)]
  | cons slot rest ih =>
      rcases hfollow : req.follow slot with _ | ⟨ptr, frame⟩
      · cases count <;> simp [countConsumed, UnmarkedAt, hfollow]
      · cases hmark : frame.consumed with
        | false => cases count <;> simp [countConsumed, UnmarkedAt, hfollow, hmark]
        | true =>
            have hnext : countConsumed req (slot :: rest) =
                (countConsumed req rest).map (· + 1) := by
              rw [Option.map_eq_bind]
              simp only [countConsumed, hfollow, Option.bind_eq_bind, Option.bind_some, hmark]
              rfl
            rw [hnext]
            cases count with
            | zero => simp [UnmarkedAt, hfollow, hmark]
            | succ count => simp [hfollow, hmark, ih]

theorem dropConsumed_eq_some_iff : dropConsumed matching = some last ↔
    ∃ count, countConsumed matching.req matching.req.unmatched = some count ∧
      last = { matching with
        req := matching.req.advance count
        rsp := if count = 0 then matching.rsp
          else matching.rsp.setPos matching.rsp.frameBufs.frameBufSize } := by
  unfold dropConsumed
  rw [Option.bind_eq_bind, Option.bind_eq_some_iff]
  refine exists_congr fun count => and_congr_right fun _ => ?_
  by_cases hzero : count = 0
  · subst hzero
    exact ⟨fun h => (Option.some.inj h).symm, fun h => congrArg some h.symm⟩
  · simp [hzero, eq_comm]

end DropConsumed

-- How a round of matching leaves the streams, `count` of the requests at the front
-- being marked.
structure Matched (req rsp : FrameStream PgsqlFrame) (moved count : ℕ)
    (answers : List (ℕ × List ℕ)) (matching : Matching) : Prop where
  req : matching.req = ((answers.map Prod.fst).foldl consume req).advance count
  rsp : matching.rsp =
    if count = 0 then rsp.advance moved else rsp.setPos rsp.frameBufs.frameBufSize
  answers : matching.answers = answers
  refused : ∀ request ∈ matching.refused, request.2 = true

section MatchFrames

variable {unset : ℕ → UInt64} {req rsp : FrameStream PgsqlFrame} {matching : Matching}
  {requests : List (ℕ × PgsqlFrame)} {moved count : ℕ} {answers : List (ℕ × List ℕ)}

theorem ahead_start (rsp : FrameStream PgsqlFrame) (hrequests : req.slots = requests.map some)
    (hroom : requests.length ≤ RECORD_BUF_SIZE) : Ahead (.start req rsp) requests where
  msgs := by
    intro request hrequest
    have hframe := (FrameStream.slots_eq_map_some hrequests).2 request hrequest
    simp [msgAt, Matching.start, hframe]
  room := by simpa [Matching.answers, Matching.start] using hroom

theorem Matched.rsp_eq (h : Matched req rsp moved count answers matching)
    (hzero : rsp.frameBufs.currentPos = 0) :
    matching.rsp = rsp.advance (if count = 0 then moved else rsp.frameBufs.frameBufSize) := by
  rw [h.rsp]
  split_ifs
  · rfl
  · exact FrameStream.setPos_eq_advance hzero

theorem Looped.matched {last : Matching} (h : Looped (.start req rsp) last moved answers)
    (hdrop : matching = { last with
      req := last.req.advance count
      rsp := if count = 0 then last.rsp else last.rsp.setPos last.rsp.frameBufs.frameBufSize }) :
    Matched req rsp moved count answers matching := by
  subst hdrop
  obtain ⟨refused, hrefused, harrived⟩ := h.refused
  have hsame : last.refused = refused := hrefused
  have hreq : last.req = (answers.map Prod.fst).foldl consume req := h.req
  have hrsp : last.rsp = rsp.advance moved := h.rsp
  refine ⟨by rw [hreq], ?_, h.answers, ?_⟩
  · rw [hrsp]
    rfl
  · rw [← hsame] at harrived
    exact harrived

theorem pgsqlMatchFrames_matched (unset : ℕ → UInt64)
    (hloop : rsp.frameBufs.currentPos < rsp.frameBufs.frameBufSize)
    (hrequests : req.slots = requests.map some) (hroom : requests.length ≤ RECORD_BUF_SIZE)
    (hworked : Worked requests rsp.slots moved answers)
    (hcount : countConsumed ((answers.map Prod.fst).foldl consume req) req.unmatched =
      some count) :
    ∃ matching, pgsqlMatchFrames unset req rsp = some matching ∧
      Matched req rsp moved count answers matching := by
  have hahead := ahead_start rsp hrequests hroom
  obtain ⟨last, hlast, hlooped⟩ := hworked.foldlM unset rfl hahead
  rw [← (FrameStream.slots_eq_map_some hrequests).1] at hlast
  have hreq : last.req = (answers.map Prod.fst).foldl consume req := hlooped.req
  rw [← hreq, ← unmatched_foldl_consume req (answers.map Prod.fst), ← hreq] at hcount
  refine ⟨_, ?_, hlooped.matched rfl⟩
  rw [pgsqlMatchFrames, if_pos hloop, hlast]
  exact dropConsumed_eq_some_iff.mpr ⟨count, hcount, rfl⟩

-- The converse: what a round of matching that comes to its end found.
theorem matched_of_pgsqlMatchFrames
    (hloop : rsp.frameBufs.currentPos < rsp.frameBufs.frameBufSize)
    (hroom : req.slots.length ≤ RECORD_BUF_SIZE)
    (h : pgsqlMatchFrames unset req rsp = some matching)
    (harrived : ∀ request ∈ matching.refused, request.2 = true) :
    ∃ requests moved answers count, req.slots = requests.map some ∧
      Worked requests rsp.slots moved answers ∧
      countConsumed ((answers.map Prod.fst).foldl consume req) req.unmatched = some count ∧
      Matched req rsp moved count answers matching := by
  rw [pgsqlMatchFrames, if_pos hloop] at h
  obtain ⟨last, hlast, hdrop⟩ := Option.bind_eq_some_iff.mp h
  obtain ⟨count, hcount, hmatching⟩ := dropConsumed_eq_some_iff.mp hdrop
  have hstart : (Matching.start req rsp).answers.length + req.unmatched.length ≤
      RECORD_BUF_SIZE := by
    simpa [Matching.answers, Matching.start, FrameStream.slots] using hroom
  have hfollow : ∀ slot ∈ req.slots, slot.isSome :=
    List.forall_mem_map.mpr (isSome_follow_of_foldlM hstart hlast)
  obtain ⟨requests, hrequests⟩ : ∃ requests, req.slots = List.map some requests := by
    refine ⟨req.slots.pmap Option.get hfollow, ?_⟩
    rw [List.map_pmap]
    exact (List.pmap_eq_self.mpr fun slot _ => Option.some_get _).symm
  have hlength : requests.length ≤ RECORD_BUF_SIZE := by
    rw [hrequests, List.length_map] at hroom
    exact hroom
  have hahead := ahead_start rsp hrequests hlength
  rw [(FrameStream.slots_eq_map_some hrequests).1] at hlast
  obtain ⟨moved, answers, hworked⟩ := worked_of_foldlM hahead hlast (by
    rw [hmatching] at harrived
    exact harrived)
  obtain ⟨final, hfinal, hlooped⟩ := hworked.foldlM unset rfl hahead
  obtain rfl : last = final := Option.some.inj (hlast.symm.trans hfinal)
  have hreq : last.req = (answers.map Prod.fst).foldl consume req := hlooped.req
  refine ⟨requests, moved, answers, count, hrequests, hworked, ?_, hlooped.matched hmatching⟩
  rw [hreq, unmatched_foldl_consume] at hcount
  exact hcount

end MatchFrames

end Gopher.L7.Pgsql
