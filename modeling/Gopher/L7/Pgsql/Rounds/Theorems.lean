import Gopher.L7.Pgsql.Rounds

namespace Gopher.L7.Pgsql

open Gopher.L7

-- What is left once something was answered: the first response slot is NULL for good,
-- and the first request slot is NULL or shows a frame that is not marked.
structure Exhausted (run : MatchRun) : Prop where
  response : run.rsp.frameBufs.contents.head? = some none
  request : ∃ slot, run.req.frameBufs.contents.head? = some slot ∧
    ∀ ptr ∈ slot, ptr < run.req.created ∧ ∀ frame ∈ run.req.frames ptr, frame.consumed = false

-- What holds between the rounds. Before the first answer no slot of a request was ever
-- emptied.
structure Kept (run : MatchRun) : Prop where
  matched : MatchedOnce run
  reqPos : run.req.frameBufs.currentPos = 0
  rspPos : run.rsp.frameBufs.currentPos = 0
  reqSize : run.req.frameBufs.frameBufSize ≤ FRAME_BUF_SIZE
  rspSize : run.rsp.frameBufs.frameBufSize ≤ FRAME_BUF_SIZE
  below : ∀ ptr ∈ run.answeredRequests, ptr < run.req.created
  untouched : run.answered = [] →
    run.req.frameBufs.contents = (List.range run.req.created).map some
  exhausted : run.answered ≠ [] → Exhausted run

theorem kept_init : Kept .init where
  matched := by constructor <;> simp [MatchRun.init, MatchRun.answeredRequests, FrameStream.init]
  reqPos := rfl
  rspPos := rfl
  reqSize := Nat.zero_le _
  rspSize := Nat.zero_le _
  below := by simp [MatchRun.init, MatchRun.answeredRequests]
  untouched := fun _ => rfl
  exhausted := fun h => absurd rfl h

theorem Kept.pushRequest {run : MatchRun} (h : Kept run) (frame : PgsqlFrame) :
    Kept { run with req := run.req.pushFrame frame } := by
  rcases run.req.pushFrame_cases frame with ⟨-, hsame⟩ | ⟨hroom, hcontents, hpos, hsize, hcreated⟩
  · rw [hsame]
    exact h
  · refine ⟨⟨h.matched.running, h.matched.once, ?_, ?_, h.matched.notAnError,
      h.matched.responses⟩, ?_, h.rspPos, ?_, h.rspSize, ?_, ?_, ?_⟩
    · intro ptr hptr
      have hold := h.matched.removed ptr hptr
      have hbelow := h.below ptr hptr
      dsimp only
      rw [hcontents, List.mem_append, List.mem_singleton, Option.some.injEq]
      rintro (hmem | rfl)
      · exact hold hmem
      · omega
    · intro ptr hptr hnew
      dsimp only at hptr ⊢
      rw [hcreated] at hptr
      rw [hcontents, List.mem_append, List.mem_singleton, Option.some.injEq]
      rcases Nat.lt_succ_iff_lt_or_eq.mp hptr with hlt | rfl
      · exact .inl (h.matched.pending ptr hlt hnew)
      · exact .inr rfl
    · exact hpos.trans h.reqPos
    · dsimp only
      omega
    · intro ptr hptr
      have hbelow := h.below ptr hptr
      dsimp only
      omega
    · intro hnone
      dsimp only
      rw [hcontents, h.untouched hnone, hcreated, List.range_succ, List.map_append]
      rfl
    · intro hsome
      obtain ⟨hresponse, slot, hhead, hslot⟩ := h.exhausted hsome
      refine ⟨hresponse, slot, ?_, fun ptr hptr => ?_⟩
      · dsimp only
        rw [hcontents, List.head?_append, hhead]
        rfl
      · obtain ⟨hlt, hunmarked⟩ := hslot ptr hptr
        dsimp only
        rw [FrameStream.frames_pushFrame_of_lt _ _ hlt, hcreated]
        exact ⟨Nat.lt_succ_of_lt hlt, hunmarked⟩

theorem Kept.pushResponse {run : MatchRun} (h : Kept run) (frame : PgsqlFrame) :
    Kept { run with rsp := run.rsp.pushFrame frame } := by
  rcases run.rsp.pushFrame_cases frame with ⟨-, hsame⟩ | ⟨hroom, hcontents, hpos, hsize, -⟩
  · rw [hsame]
    exact h
  · refine ⟨⟨h.matched.running, h.matched.once, h.matched.removed, h.matched.pending,
      h.matched.notAnError, h.matched.responses⟩, h.reqPos, hpos.trans h.rspPos, h.reqSize, ?_,
      h.below, h.untouched, ?_⟩
    · dsimp only
      omega
    · intro hsome
      obtain ⟨hresponse, hrequest⟩ := h.exhausted hsome
      refine ⟨?_, hrequest⟩
      dsimp only
      rw [hcontents, List.head?_append, hresponse]
      rfl

theorem Kept.push {run : MatchRun} (h : Kept run) (round : Round) : Kept (run.push round) := by
  have hrequests : Kept { run with req := run.req.pushFrames round.requests } :=
    FrameStream.pushFrames_induction (fun req => Kept { run with req := req }) h
      (fun _ frame hkept => hkept.pushRequest frame) round.requests
  exact FrameStream.pushFrames_induction
    (fun rsp => Kept { run with req := run.req.pushFrames round.requests, rsp := rsp }) hrequests
    (fun _ frame hkept => hkept.pushResponse frame) round.responses

-- How a round leaves a run when there are responses, `count` requests at the front
-- being popped.
structure Turned (run : MatchRun) (moved count : ℕ) (answers : List (ℕ × List ℕ))
    (next : MatchRun) : Prop where
  req : ((answers.map Prod.fst).foldl consume run.req).Popped count next.req
  rsp : run.rsp.Popped (if count = 0 then moved else run.rsp.frameBufs.frameBufSize) next.rsp
  answered : next.answered = run.answered ++ answers
  refused : ∃ refused, next.refused = run.refused ++ refused ∧
    ∀ request ∈ refused, request.2 = true
  faulted : next.faulted = run.faulted

section Turn

variable {unset : ℕ → UInt64} {run next : MatchRun} {requests : List (ℕ × PgsqlFrame)}
  {moved count : ℕ} {answers : List (ℕ × List ℕ)}

theorem matchAndPop_eq_some_iff : matchAndPop unset run = some next ↔
    ∃ matching req rsp, pgsqlMatchFrames unset run.req run.rsp = some matching ∧
      matching.req.dataStreamPopFrames = some req ∧
      matching.rsp.dataStreamPopFrames = some rsp ∧
      next = { run with
        req := req
        rsp := rsp
        answered := run.answered ++ matching.answers
        refused := run.refused ++ matching.refused } := by
  simp only [matchAndPop, Option.bind_eq_bind, Option.bind_eq_some_iff]
  constructor
  · rintro ⟨matching, hmatching, req, hreq, rsp, hrsp, hnext⟩
    exact ⟨matching, req, rsp, hmatching, hreq, hrsp, (Option.some.inj hnext).symm⟩
  · rintro ⟨matching, req, rsp, hmatching, hreq, hrsp, rfl⟩
    exact ⟨matching, hmatching, req, hreq, rsp, hrsp, rfl⟩

theorem Kept.loop_lt (h : Kept run) (hresponses : run.rsp.slots ≠ []) :
    run.rsp.frameBufs.currentPos < run.rsp.frameBufs.frameBufSize := by
  have hlength := List.length_pos_iff.mpr hresponses
  rw [FrameStream.length_slots_of_zero h.rspPos] at hlength
  rw [h.rspPos]
  exact hlength

theorem Kept.room (h : Kept run) : run.req.slots.length ≤ RECORD_BUF_SIZE := by
  rw [FrameStream.length_slots_of_zero h.reqPos]
  exact h.reqSize

theorem Kept.count_le (h : Kept run)
    (hcount : countConsumed ((answers.map Prod.fst).foldl consume run.req) run.req.unmatched =
      some count) : count ≤ run.req.frameBufs.frameBufSize := by
  rw [← FrameStream.length_slots_of_zero h.reqPos, FrameStream.slots, List.length_map]
  exact (countConsumed_eq_some_iff.mp hcount).1

theorem Kept.dropped_le (h : Kept run) (hworked : Worked requests run.rsp.slots moved answers) :
    (if count = 0 then moved else run.rsp.frameBufs.frameBufSize) ≤
      run.rsp.frameBufs.frameBufSize := by
  have hle := hworked.moved_le
  rw [FrameStream.length_slots_of_zero h.rspPos] at hle
  split_ifs
  · exact hle
  · exact Nat.le_refl _

theorem Kept.turn (h : Kept run) (unset : ℕ → UInt64) (hresponses : run.rsp.slots ≠ [])
    (hrequests : run.req.slots = requests.map some)
    (hworked : Worked requests run.rsp.slots moved answers)
    (hcount : countConsumed ((answers.map Prod.fst).foldl consume run.req) run.req.unmatched =
      some count)
    (hreqSound : ((answers.map Prod.fst).foldl consume run.req).SoundTo count)
    (hrspSound : run.rsp.SoundTo
      (if count = 0 then moved else run.rsp.frameBufs.frameBufSize)) :
    ∃ next, matchAndPop unset run = some next ∧ Turned run moved count answers next := by
  have hroom : requests.length ≤ RECORD_BUF_SIZE := by
    rw [← List.length_map (f := some), ← hrequests]
    exact h.room
  obtain ⟨matching, hmatching, hmatched⟩ :=
    pgsqlMatchFrames_matched unset (h.loop_lt hresponses) hrequests hroom hworked hcount
  have hbufs := (frameBufs_foldl_consume run.req (answers.map Prod.fst)).1
  obtain ⟨req, hreq, hreqPopped⟩ := hreqSound.pop (hbufs ▸ h.reqPos) (hbufs ▸ h.count_le hcount)
    (hbufs ▸ h.reqSize)
  obtain ⟨rsp, hrsp, hrspPopped⟩ := hrspSound.pop h.rspPos (h.dropped_le hworked) h.rspSize
  rw [← hmatched.req] at hreq
  rw [← hmatched.rsp_eq h.rspPos] at hrsp
  refine ⟨_, matchAndPop_eq_some_iff.mpr ⟨matching, req, rsp, hmatching, hreq, hrsp, rfl⟩, ?_⟩
  exact ⟨hreqPopped, hrspPopped, by rw [hmatched.answers], ⟨_, rfl, hmatched.refused⟩, rfl⟩

-- The pops behind a round of matching.
theorem Kept.turned_of_matched (h : Kept run) {matching : Matching}
    {req rsp : FrameStream PgsqlFrame}
    (hmatched : Matched run.req run.rsp moved count answers matching)
    (hcount : countConsumed ((answers.map Prod.fst).foldl consume run.req) run.req.unmatched =
      some count)
    (hdropped : (if count = 0 then moved else run.rsp.frameBufs.frameBufSize) ≤
      run.rsp.frameBufs.frameBufSize)
    (hreq : matching.req.dataStreamPopFrames = some req)
    (hrsp : matching.rsp.dataStreamPopFrames = some rsp) :
    run.rsp.SoundTo (if count = 0 then moved else run.rsp.frameBufs.frameBufSize) ∧
      Turned run moved count answers { run with
        req := req
        rsp := rsp
        answered := run.answered ++ matching.answers
        refused := run.refused ++ matching.refused } := by
  have hbufs := (frameBufs_foldl_consume run.req (answers.map Prod.fst)).1
  rw [hmatched.req] at hreq
  rw [hmatched.rsp_eq h.rspPos] at hrsp
  have hreqPopped := FrameStream.popped_of_pop (hbufs ▸ h.reqPos) (hbufs ▸ h.count_le hcount)
    (hbufs ▸ h.reqSize) hreq
  have hrspPopped := FrameStream.popped_of_pop h.rspPos hdropped h.rspSize hrsp
  exact ⟨FrameStream.soundTo_of_pop h.rspPos hdropped h.rspSize hrsp, hreqPopped, hrspPopped,
    by rw [hmatched.answers], ⟨_, rfl, hmatched.refused⟩, rfl⟩

theorem Kept.turned (h : Kept run) (hresponses : run.rsp.slots ≠ [])
    (hnext : matchAndPop unset run = some next)
    (harrived : ∀ request ∈ next.refused, request.2 = true) :
    ∃ requests moved answers count, run.req.slots = requests.map some ∧
      Worked requests run.rsp.slots moved answers ∧
      countConsumed ((answers.map Prod.fst).foldl consume run.req) run.req.unmatched =
        some count ∧
      run.rsp.SoundTo (if count = 0 then moved else run.rsp.frameBufs.frameBufSize) ∧
      Turned run moved count answers next := by
  obtain ⟨matching, req, rsp, hmatching, hreq, hrsp, rfl⟩ := matchAndPop_eq_some_iff.mp hnext
  obtain ⟨requests, moved, answers, count, hrequests, hworked, hcount, hmatched⟩ :=
    matched_of_pgsqlMatchFrames (h.loop_lt hresponses) h.room hmatching
      fun request hrequest => harrived request (List.mem_append_right _ hrequest)
  have hturned := h.turned_of_matched hmatched hcount (h.dropped_le hworked) hreq hrsp
  exact ⟨requests, moved, answers, count, hrequests, hworked, hcount, hturned⟩

end Turn

open Gopher.L7 Gopher.Lib

-- A run without an answer, whose requests are divided in two.
structure Divided (run : MatchRun) (front rest : List ℕ) : Prop where
  created : front ++ rest = List.range run.req.created
  contents : run.req.frameBufs.contents = front.map some ++ rest.map some

section Next

variable {run next : MatchRun} {front rest : List (ℕ × PgsqlFrame)} {ptrs others : List ℕ}
  {ptr moved replied : ℕ} {answers : List (ℕ × List ℕ)}

theorem Kept.divided (h : Kept run) (hnone : run.answered = [])
    (hrequests : run.req.slots = (front ++ rest).map some) :
    Divided run (front.map Prod.fst) (rest.map Prod.fst) := by
  have hcontents : run.req.frameBufs.contents =
      (front.map Prod.fst).map some ++ (rest.map Prod.fst).map some := by
    rw [← FrameStream.unmatched_of_zero h.reqPos,
      (FrameStream.slots_eq_map_some hrequests).1, List.map_append, List.map_append]
  refine ⟨?_, hcontents⟩
  apply List.map_injective_iff.mpr (fun _ _ => Option.some.inj)
  rw [← h.untouched hnone, hcontents, List.map_append]

theorem Divided.nodup (h : Divided run ptrs others) : (ptrs ++ others).Nodup :=
  h.created ▸ List.nodup_range

theorem Divided.take_contents (h : Divided run ptrs others) :
    run.req.frameBufs.contents.take ptrs.length = ptrs.map some := by
  rw [h.contents, ← List.length_map (f := some), List.take_left]

theorem Divided.drop_contents (h : Divided run ptrs others) :
    run.req.frameBufs.contents.drop ptrs.length = others.map some := by
  rw [h.contents, ← List.length_map (f := some), List.drop_left]

theorem Divided.not_mem_next (h : Divided run ptrs others)
    (hturned : Turned run moved ptrs.length answers next) (hptr : ptr ∈ ptrs) :
    some ptr ∉ next.req.frameBufs.contents := by
  have hbufs := (frameBufs_foldl_consume run.req (answers.map Prod.fst)).1
  apply hturned.req.not_mem_of_take
  · rw [hbufs, h.contents, ← List.map_append]
    exact h.nodup.map (fun _ _ => Option.some.inj)
  · rw [hbufs, h.take_contents]
    exact List.mem_map_of_mem hptr

theorem Divided.mem_next (h : Divided run ptrs others)
    (hturned : Turned run moved ptrs.length answers next) (hptr : ptr ∈ others) :
    some ptr ∈ next.req.frameBufs.contents := by
  have hbufs := (frameBufs_foldl_consume run.req (answers.map Prod.fst)).1
  apply hturned.req.mem_of_drop
  rw [hbufs, h.drop_contents]
  exact List.mem_map_of_mem hptr

theorem Turned.created (h : Turned run moved replied answers next) :
    next.req.created = run.req.created :=
  h.req.created.trans (frameBufs_foldl_consume run.req (answers.map Prod.fst)).2

theorem Turned.reqSize (h : Turned run moved replied answers next) :
    next.req.frameBufs.frameBufSize = run.req.frameBufs.frameBufSize := by
  rw [h.req.frameBufSize, (frameBufs_foldl_consume run.req (answers.map Prod.fst)).1]

theorem Turned.notAnError (h : Turned run moved replied answers next)
    (hrun : ∀ request ∈ run.refused, request.2 = true) :
    ∀ request ∈ next.refused, request.2 = true := by
  obtain ⟨refused, hrefused, harrived⟩ := h.refused
  rw [hrefused]
  exact List.forall_mem_append.mpr ⟨hrun, harrived⟩

-- Behind the first answer every round leaves the slots as they are.
theorem Kept.next_of_exhausted (h : Kept run) (hsome : run.answered ≠ [])
    (hturned : Turned run 0 0 [] next) : Kept next := by
  have hanswered : next.answered = run.answered := by rw [hturned.answered, List.append_nil]
  have hrequests : next.answeredRequests = run.answeredRequests := by
    rw [MatchRun.answeredRequests, hanswered, MatchRun.answeredRequests]
  have hcontents : next.req.frameBufs.contents = run.req.frameBufs.contents :=
    hturned.req.contents_of_zero
  have hresponses : next.rsp.frameBufs.contents = run.rsp.frameBufs.contents :=
    hturned.rsp.contents_of_zero
  have hcreated := hturned.created
  obtain ⟨hresponse, slot, hhead, hslot⟩ := h.exhausted hsome
  refine ⟨⟨?_, ?_, ?_, ?_, hturned.notAnError h.matched.notAnError, ?_⟩, hturned.req.currentPos,
    hturned.rsp.currentPos, ?_, ?_, ?_, ?_, fun _ => ⟨?_, slot, ?_, fun ptr hptr => ?_⟩⟩
  · exact hturned.faulted.trans h.matched.running
  · rw [hrequests]
    exact h.matched.once
  · rw [hrequests, hcontents]
    exact h.matched.removed
  · rw [hrequests, hcontents, hcreated]
    exact h.matched.pending
  · rw [hanswered]
    exact h.matched.responses
  · exact Nat.le_trans (Nat.le_of_eq hturned.reqSize) h.reqSize
  · exact Nat.le_trans (Nat.le_of_eq hturned.rsp.frameBufSize) h.rspSize
  · rw [hrequests, hcreated]
    exact h.below
  · intro hnone
    exact absurd (hanswered.symm.trans hnone) hsome
  · rw [hresponses]
    exact hresponse
  · rw [hcontents]
    exact hhead
  · have hframes : next.req.frames ptr = run.req.frames ptr := hturned.req.frames ptr (by simp)
    rw [hcreated, hframes]
    exact hslot ptr hptr

-- Behind the requests that go stands the first that stays.
theorem Divided.head_next (h : Divided run ptrs (ptr :: others))
    (hturned : Turned run moved ptrs.length answers next) :
    next.req.frameBufs.contents.head? = some (some ptr) := by
  have hkept := hturned.req.unmatched
  rw [(frameBufs_foldl_consume run.req (answers.map Prod.fst)).1, h.drop_contents] at hkept
  have hhead := congrArg List.head? hkept
  rw [List.head?_take, List.map_cons, List.head?_cons] at hhead
  split_ifs at hhead
  exact hhead

theorem Divided.head_next_nil (h : Divided run ptrs []) (hptrsNe : ptrs ≠ [])
    (hturned : Turned run moved ptrs.length answers next) :
    next.req.frameBufs.contents.head? = some none := by
  have hpos := List.length_pos_iff.mpr hptrsNe
  have hsize := FrameBuf.length_contents next.req.frameBufs
  rw [hturned.reqSize, ← FrameBuf.length_contents, h.contents] at hsize
  cases hcontents : next.req.frameBufs.contents with
  | nil =>
      rw [hcontents] at hsize
      simp only [List.length_nil, List.length_append, List.length_map] at hsize
      omega
  | cons slot slots =>
      have hslot := hturned.req.left slot (by simp [hcontents])
      rw [(frameBufs_foldl_consume run.req (answers.map Prod.fst)).1, h.drop_contents] at hslot
      obtain rfl : slot = none := by simpa using hslot
      rfl

theorem Kept.head_response_next (h : Kept run) (hresponses : run.rsp.slots ≠ [])
    (hturned : Turned run moved replied answers next) (hreplied : replied ≠ 0) :
    next.rsp.frameBufs.contents.head? = some none := by
  have hrsp := hturned.rsp
  rw [if_neg hreplied] at hrsp
  have hpos := h.loop_lt hresponses
  cases hcontents : next.rsp.frameBufs.contents with
  | nil =>
      have hempty := FrameBuf.length_contents next.rsp.frameBufs
      rw [hcontents, List.length_nil, hrsp.frameBufSize] at hempty
      omega
  | cons slot slots =>
      have hslot := hrsp.eq_none (hcontents ▸ List.mem_cons_self)
      rw [hslot]
      rfl

theorem Kept.exhausted_next (h : Kept run) (hnone : run.answered = [])
    (hresponses : run.rsp.slots ≠ []) (hfrontNe : front ≠ [])
    (hrequests : run.req.slots = (front ++ rest).map some) (hfirst : Unmarked (rest.map some))
    (hanswered : answers.map Prod.fst = front.map Prod.fst)
    (hturned : Turned run moved front.length answers next) : Exhausted next := by
  have hdivided := h.divided hnone hrequests
  have hcount : front.length ≠ 0 := fun hzero => hfrontNe (List.length_eq_zero_iff.mp hzero)
  refine ⟨h.head_response_next hresponses hturned hcount, ?_⟩
  rw [← List.length_map (f := Prod.fst)] at hturned
  rcases rest with _ | ⟨⟨ptr, frame⟩, rest⟩
  · have hptrsNe : front.map Prod.fst ≠ [] := fun hnil => hfrontNe (List.map_eq_nil_iff.mp hnil)
    exact ⟨none, hdivided.head_next_nil hptrsNe hturned, fun ptr hptr => by cases hptr⟩
  · obtain ⟨_, _, heq, hunmarked⟩ := hfirst _ rfl
    cases heq
    refine ⟨some ptr, hdivided.head_next hturned, fun other hother => ?_⟩
    cases hother
    have hnew : ptr ∉ front.map Prod.fst := fun hmem =>
      (List.nodup_append.mp hdivided.nodup).2.2 ptr hmem ptr List.mem_cons_self rfl
    have hlt : ptr < run.req.created := by
      rw [← List.mem_range, ← hdivided.created]
      exact List.mem_append_right _ List.mem_cons_self
    have hframes : next.req.frames ptr = some frame := by
      rw [hturned.req.frames ptr, hanswered, frames_foldl_consume, if_neg hnew]
      · exact (FrameStream.slots_eq_map_some hrequests).2 (ptr, frame) (by simp)
      · rw [(frameBufs_foldl_consume run.req (answers.map Prod.fst)).1, hdivided.take_contents]
        simpa using hnew
    rw [hturned.created, hframes]
    refine ⟨hlt, fun other hother => ?_⟩
    cases hother
    exact hunmarked

-- A round of a run without an answer so far.
theorem Kept.next_of_unanswered (h : Kept run) (hnone : run.answered = [])
    (hresponses : run.rsp.slots ≠ []) (hrequests : run.req.slots = (front ++ rest).map some)
    (hfront : Replied front run.rsp.slots replied answers) (hfirst : Unmarked (rest.map some))
    (hsound : front ≠ [] → run.rsp.SoundTo run.rsp.frameBufs.frameBufSize)
    (hturned : Turned run moved front.length answers next) : Kept next := by
  have hdivided := h.divided hnone hrequests
  have hanswered : next.answered = answers := by rw [hturned.answered, hnone, List.nil_append]
  have hptrs : next.answeredRequests = front.map Prod.fst := by
    rw [MatchRun.answeredRequests, hanswered, hfront.answered]
  have hcount : Turned run moved (front.map Prod.fst).length answers next := by
    rw [List.length_map]
    exact hturned
  refine ⟨⟨hturned.faulted.trans h.matched.running, ?_, ?_, ?_,
    hturned.notAnError h.matched.notAnError, ?_⟩, hturned.req.currentPos,
    hturned.rsp.currentPos, ?_, ?_, ?_, ?_, ?_⟩
  · rw [hptrs]
    exact (List.nodup_append.mp hdivided.nodup).1
  · rw [hptrs]
    exact fun ptr hptr => hdivided.not_mem_next hcount hptr
  · rw [hptrs, hturned.created]
    intro ptr hlt hnew
    rw [← List.mem_range, ← hdivided.created, List.mem_append] at hlt
    exact hdivided.mem_next hcount (hlt.resolve_left hnew)
  · rw [hanswered]
    by_cases hfrontNe : front = []
    · rw [hfront.eq_nil_iff.mpr hfrontNe]
      exact List.nodup_nil
    · have hdistinct : (pointers run.rsp.slots).Nodup := by
        refine (FrameStream.pointers_slots_sublist run.rsp).nodup ?_
        have hall := (hsound hfrontNe).distinct
        rwa [List.take_of_length_le (Nat.le_of_eq (FrameBuf.length_contents _)),
          ← FrameStream.unmatched_of_zero h.rspPos] at hall
      exact hfront.taken.nodup hdistinct
  · exact Nat.le_trans (Nat.le_of_eq hturned.reqSize) h.reqSize
  · exact Nat.le_trans (Nat.le_of_eq hturned.rsp.frameBufSize) h.rspSize
  · rw [hptrs, hturned.created]
    intro ptr hptr
    rw [← List.mem_range, ← hdivided.created]
    exact List.mem_append_left _ hptr
  · intro hempty
    obtain rfl := hfront.eq_nil_iff.mp (hanswered.symm.trans hempty)
    have hcontents := hturned.req.contents_of_zero
    rw [(frameBufs_foldl_consume run.req (answers.map Prod.fst)).1] at hcontents
    rw [hcontents, hturned.created]
    exact h.untouched hnone
  · intro hsome
    have hfrontNe : front ≠ [] := fun hnil =>
      hsome (hanswered.trans (hfront.eq_nil_iff.mpr hnil))
    exact h.exhausted_next hnone hresponses hfrontNe hrequests hfirst hfront.answered hturned

end Next

section Kept

variable {unset : ℕ → UInt64} {run next : MatchRun} {front rest requests : List (ℕ × PgsqlFrame)}
  {ptr moved more count : ℕ} {answers : List (ℕ × List ℕ)}

theorem Kept.slots_eq_cons (h : Kept run) (hsome : run.answered ≠ []) :
    ∃ slots, run.rsp.slots = none :: slots := by
  have hslots : run.rsp.slots.head? = some none := by
    rw [FrameStream.slots, FrameStream.unmatched_of_zero h.rspPos, List.head?_map,
      (h.exhausted hsome).response]
    rfl
  exact List.head?_eq_some_iff.mp hslots

-- Behind the first answer the first request shows no mark if it can be followed.
theorem Kept.unmarked (h : Kept run) (hsome : run.answered ≠ [])
    (hrequests : run.req.slots = requests.map some) : Unmarked (requests.map some) := by
  obtain ⟨slot, hhead, hslot⟩ := (h.exhausted hsome).request
  obtain ⟨hunmatched, hframes⟩ := FrameStream.slots_eq_map_some hrequests
  rw [← FrameStream.unmatched_of_zero h.reqPos, hunmatched] at hhead
  rcases requests with _ | ⟨⟨ptr, frame⟩, requests⟩
  · cases hhead
  · cases hhead
    intro slot hfirst
    cases hfirst
    exact ⟨ptr, frame, rfl, (hslot ptr rfl).2 frame (hframes _ List.mem_cons_self)⟩

theorem Kept.matchFrames_noResponses (h : Kept run) (unset : ℕ → UInt64)
    (hresponses : run.rsp.slots = []) :
    pgsqlMatchFrames unset run.req run.rsp = dropConsumed (.start run.req run.rsp) := by
  have hsize : run.rsp.frameBufs.frameBufSize = 0 := by
    rw [← FrameStream.length_slots_of_zero h.rspPos, hresponses]
    rfl
  rw [pgsqlMatchFrames, if_neg (by omega)]
  rfl

theorem Kept.noResponses (h : Kept run) (unset : ℕ → UInt64) (hresponses : run.rsp.slots = [])
    (hfirst : Unmarked run.req.slots) : matchAndPop unset run = some run := by
  have hcount : countConsumed run.req run.req.unmatched = some 0 :=
    countConsumed_eq_some_iff.mpr ⟨Nat.zero_le _, by simp, unmarked_slots_iff.mp hfirst⟩
  have hmatch : pgsqlMatchFrames unset run.req run.rsp = some (.start run.req run.rsp) := by
    rw [h.matchFrames_noResponses unset hresponses]
    exact dropConsumed_eq_some_iff.mpr ⟨0, hcount, rfl⟩
  have hreq := FrameStream.dataStreamPopFrames_of_zero h.reqPos
  have hrsp := FrameStream.dataStreamPopFrames_of_zero h.rspPos
  simp [matchAndPop, hmatch, Matching.start, hreq, hrsp, Matching.answers]

theorem Kept.turned_noResponses (h : Kept run) (hresponses : run.rsp.slots = [])
    (hnext : matchAndPop unset run = some next) :
    ∃ count, countConsumed run.req run.req.unmatched = some count ∧
      Turned run 0 count [] next := by
  obtain ⟨matching, req, rsp, hmatching, hreq, hrsp, rfl⟩ := matchAndPop_eq_some_iff.mp hnext
  rw [h.matchFrames_noResponses unset hresponses] at hmatching
  obtain ⟨count, hcount, hmatching⟩ := dropConsumed_eq_some_iff.mp hmatching
  have hmatched := (Looped.refl (.start run.req run.rsp)).matched hmatching
  have hdropped : (if count = 0 then 0 else run.rsp.frameBufs.frameBufSize) ≤
      run.rsp.frameBufs.frameBufSize := by
    split_ifs
    · exact Nat.zero_le _
    · exact Nat.le_refl _
  exact ⟨count, hcount, (h.turned_of_matched hmatched hcount hdropped hreq hrsp).2⟩

theorem Kept.round (h : Kept run) (unset : ℕ → UInt64) (hwell : GoesWell run.req run.rsp) :
    ∃ next, matchAndPop unset run = some next ∧ Kept next := by
  cases hwell with
  | noResponses hresponses hfirst => exact ⟨run, h.noResponses unset hresponses hfirst, h⟩
  | @answered front rest moved more answers hresponses hrequests hfront hrest hfirst hsound =>
      have hworked := hfront.worked hrest
      have hturn (hnodup : (front.map Prod.fst).Nodup)
          (hnew : ∀ request ∈ rest.head?, request.1 ∉ front.map Prod.fst) :
          ∃ next, matchAndPop unset run = some next ∧
            Turned run (moved + more) front.length answers next := by
        have hcount := countConsumed_front hrequests hfirst hnew
        have hreqSound := soundTo_front h.reqPos hrequests hnodup
        rw [← hfront.answered] at hcount hreqSound
        rw [← hfront.dropped_eq more run.rsp.frameBufs.frameBufSize] at hsound
        exact h.turn unset hresponses hrequests hworked hcount hreqSound hsound
      by_cases hnone : run.answered = []
      · have hdivided := h.divided hnone hrequests
        obtain ⟨hnodup, -, hdisjoint⟩ := List.nodup_append.mp hdivided.nodup
        obtain ⟨next, hnext, hturned⟩ := hturn hnodup fun request hrequest hmem =>
          hdisjoint _ hmem _ (List.mem_map_of_mem (List.mem_of_mem_head? hrequest)) rfl
        refine ⟨next, hnext, h.next_of_unanswered hnone hresponses hrequests hfront hfirst
          (fun hfrontNe => ?_) hturned⟩
        rwa [if_neg hfrontNe] at hsound
      · obtain ⟨slots, hslots⟩ := h.slots_eq_cons hnone
        rw [hslots] at hworked
        obtain ⟨hzero, rfl⟩ := hworked.eq_nil
        obtain rfl := hfront.eq_nil_iff.mp rfl
        obtain ⟨next, hnext, hturned⟩ := hturn List.nodup_nil (by simp)
        rw [hzero] at hturned
        exact ⟨next, hnext, h.next_of_exhausted hnone hturned⟩

-- The requests that go are those that are answered.
theorem Kept.answered_of_take (h : Kept run) (hnone : run.answered = [])
    (hturned : Turned run moved count answers next) (hmatched : MatchedOnce next)
    (hptr : some ptr ∈ run.req.frameBufs.contents.take count) : ptr ∈ answers.map Prod.fst := by
  have hcontents := h.untouched hnone
  have hbufs := (frameBufs_foldl_consume run.req (answers.map Prod.fst)).1
  have hgone : some ptr ∉ next.req.frameBufs.contents := by
    apply hturned.req.not_mem_of_take
    · rw [hbufs, hcontents]
      exact List.nodup_range.map (fun _ _ => Option.some.inj)
    · rw [hbufs]
      exact hptr
  have hlt : ptr < next.req.created := by
    have hmem := List.mem_of_mem_take hptr
    rw [hcontents] at hmem
    rw [hturned.created]
    simpa using hmem
  by_contra hnew
  refine hgone (hmatched.pending ptr hlt ?_)
  rw [MatchRun.answeredRequests, hturned.answered, hnone, List.nil_append]
  exact hnew

theorem Turned.not_answered_of_drop (h : Turned run moved count answers next)
    (hmatched : MatchedOnce next) (hptr : some ptr ∈ run.req.frameBufs.contents.drop count) :
    ptr ∉ answers.map Prod.fst := by
  intro hmem
  have hanswered : ptr ∈ next.answeredRequests := by
    rw [MatchRun.answeredRequests, h.answered, List.map_append]
    exact List.mem_append_right _ hmem
  refine hmatched.removed ptr hanswered (h.req.mem_of_drop ?_)
  rw [(frameBufs_foldl_consume run.req (answers.map Prod.fst)).1]
  exact hptr

theorem Kept.goesWell_noResponses (h : Kept run) (hresponses : run.rsp.slots = [])
    (hnext : matchAndPop unset run = some next) (hmatched : MatchedOnce next) :
    GoesWell run.req run.rsp := by
  have hnone : run.answered = [] := by
    by_contra hsome
    obtain ⟨slots, hslots⟩ := h.slots_eq_cons hsome
    rw [hresponses] at hslots
    cases hslots
  obtain ⟨count, hcount, hturned⟩ := h.turned_noResponses hresponses hnext
  obtain ⟨hle, -, hfirst⟩ := countConsumed_eq_some_iff.mp hcount
  rw [FrameStream.unmatched_of_zero h.reqPos] at hle hfirst
  rcases Nat.eq_zero_or_pos count with rfl | hpos
  · refine .noResponses hresponses (unmarked_slots_iff.mpr ?_)
    rw [FrameStream.unmatched_of_zero h.reqPos]
    simpa using hfirst
  · rw [h.untouched hnone, List.length_map, List.length_range] at hle
    have hzero : some 0 ∈ run.req.frameBufs.contents.take count := by
      rw [h.untouched hnone, ← List.map_take, List.take_range, Nat.min_eq_left hle]
      exact List.mem_map_of_mem (List.mem_range.mpr hpos)
    have hmem := h.answered_of_take hnone hturned hmatched hzero
    cases hmem

theorem Kept.goesWell_exhausted (h : Kept run) (hsome : run.answered ≠ [])
    (hresponses : run.rsp.slots ≠ []) (hrequests : run.req.slots = requests.map some)
    (hworked : Worked requests run.rsp.slots moved answers) : GoesWell run.req run.rsp := by
  obtain ⟨slots, hslots⟩ := h.slots_eq_cons hsome
  have hnothing := hworked
  rw [hslots] at hnothing
  obtain ⟨rfl, rfl⟩ := hnothing.eq_nil
  obtain ⟨-, hpassed⟩ := hworked.passed (by simp)
  have hall : run.req.slots = ([] ++ requests).map some := hrequests
  exact .answered hresponses hall (.nil _) hpassed (h.unmarked hsome hrequests)
    ⟨by simp, by simp⟩

theorem Kept.goesWell_unanswered (h : Kept run) (hnone : run.answered = [])
    (hresponses : run.rsp.slots ≠ []) (hrequests : run.req.slots = requests.map some)
    (hworked : Worked requests run.rsp.slots moved answers)
    (hcount : countConsumed ((answers.map Prod.fst).foldl consume run.req) run.req.unmatched =
      some count)
    (hsound : run.rsp.SoundTo (if count = 0 then moved else run.rsp.frameBufs.frameBufSize))
    (hturned : Turned run moved count answers next) (hmatched : MatchedOnce next) :
    GoesWell run.req run.rsp := by
  obtain ⟨hunmatched, hframes⟩ := FrameStream.slots_eq_map_some hrequests
  have hcontents := hunmatched
  rw [FrameStream.unmatched_of_zero h.reqPos] at hcontents
  obtain ⟨hle, -, hfirst⟩ := countConsumed_eq_some_iff.mp hcount
  rw [hunmatched, List.length_map, List.length_map] at hle
  rw [hunmatched, ← List.map_drop, ← List.map_drop] at hfirst
  have hfront : ∀ request ∈ requests.take count, request.1 ∈ answers.map Prod.fst := by
    intro request hrequest
    apply h.answered_of_take hnone hturned hmatched
    rw [hcontents, ← List.map_take, ← List.map_take]
    exact List.mem_map_of_mem (List.mem_map_of_mem hrequest)
  have hrest : ∀ request ∈ requests.drop count, request.1 ∉ answers.map Prod.fst := by
    intro request hrequest
    apply hturned.not_answered_of_drop hmatched
    rw [hcontents, ← List.map_drop, ← List.map_drop]
    exact List.mem_map_of_mem (List.mem_map_of_mem hrequest)
  have hunmarked := unmarked_of_unmarkedAt hfirst fun request hrequest =>
    hframes request (List.mem_of_mem_drop hrequest)
  rw [← List.take_append_drop count requests] at hrequests hworked
  have hdivided := h.divided hnone hrequests
  obtain ⟨replied, more, rfl, hreplied, hpassed⟩ := hworked.split (by
    rw [List.map_append]
    exact hdivided.nodup) hfront hrest
  have hlength : (requests.take count).length = count := List.length_take_of_le hle
  have hdropped := hreplied.dropped_eq more run.rsp.frameBufs.frameBufSize
  rw [hlength] at hdropped
  exact .answered hresponses hrequests hreplied hpassed hunmarked (hdropped ▸ hsound)

theorem Kept.goesWell (h : Kept run) (hnext : matchAndPop unset run = some next)
    (hmatched : MatchedOnce next) : GoesWell run.req run.rsp := by
  by_cases hresponses : run.rsp.slots = []
  · exact h.goesWell_noResponses hresponses hnext hmatched
  · obtain ⟨requests, moved, answers, count, hrequests, hworked, hcount, hsound, hturned⟩ :=
      h.turned hresponses hnext hmatched.notAnError
    by_cases hnone : run.answered = []
    · exact h.goesWell_unanswered hnone hresponses hrequests hworked hcount hsound hturned hmatched
    · exact h.goesWell_exhausted hnone hresponses hrequests hworked

end Kept

theorem Kept.step {run : MatchRun} (h : Kept run) {round : Round} (hround : RoundOk run round) :
    Kept (roundStep run round) := by
  obtain ⟨next, hnext, hkept⟩ := (h.push round).round round.unset hround
  have hstep : roundStep run round = next := by
    simp [roundStep, h.matched.running, hnext]
  rw [hstep]
  exact hkept

theorem Kept.roundOk {run : MatchRun} (h : Kept run) {round : Round}
    (hmatched : MatchedOnce (roundStep run round)) : RoundOk run round := by
  cases hnext : matchAndPop round.unset (run.push round) with
  | none =>
      have hfaulted : (roundStep run round).faulted = true := by
        simp [roundStep, h.matched.running, hnext]
      rw [hmatched.running] at hfaulted
      cases hfaulted
  | some next =>
      have hstep : roundStep run round = next := by
        simp [roundStep, h.matched.running, hnext]
      exact (h.push round).goesWell hnext (hstep ▸ hmatched)

-- A connection matches every request once if and only if each of its rounds goes well.
theorem matchedOnce_iff (rounds : List Round) :
    Throughout roundStep .init (fun _ run => MatchedOnce run) rounds ↔
      EachStep roundStep .init (fun _ run round => RoundOk run round) rounds := by
  have hlegal : EachStep roundStep .init (fun _ _ _ => True) rounds := fun _ _ _ _ => trivial
  refine throughout_iff_eachStep (fun _ run => Kept run) kept_init (fun _ _ h => h.matched) ?_ ?_
    hlegal
  · intro done run round hkept _ hround
    exact hkept.step hround
  · intro done run round hkept _ hmatched
    exact hkept.roundOk hmatched

-- A query, the response that completes it and the message that follows.
def queryFrame : PgsqlFrame := ⟨⟨1, PGSQL_SIMPLE_QUERY, 6, [59, 0]⟩, false⟩
def completeFrame : PgsqlFrame := ⟨⟨2, PGSQL_CMD_COMPLETE, 7, [68, 79, 0]⟩, false⟩
def readyFrame : PgsqlFrame := ⟨⟨3, 'Z'.toUInt8, 5, [73]⟩, false⟩

-- The query is answered in the round after the one it came in.
theorem matchedOnce_iff_twoRounds :
    Throughout roundStep .init (fun _ run => MatchedOnce run)
      [⟨[queryFrame], [], fun _ => 0⟩, ⟨[], [completeFrame], fun _ => 0⟩] := by
  apply (matchedOnce_iff _).mpr
  refine eachStep_cons.mpr ⟨?_, eachStep_cons.mpr ⟨?_, eachStep_nil⟩⟩
  · apply GoesWell.noResponses
    · rfl
    · intro slot hslot
      cases hslot
      exact ⟨0, queryFrame, rfl, rfl⟩
  · have hhandler : handlerOf queryFrame.msg = some pgsqlHandleQuery := rfl
    have hhandled : pgsqlHandleQuery [some (0, completeFrame)] = some ⟨.ok ⟨[0], some 2⟩, 1⟩ := rfl
    have hfront : Replied [(0, queryFrame)] [some (0, completeFrame)] (1 + 0) [(0, [0])] :=
      .cons hhandler hhandled (.nil [])
    have hrequests : ∀ run : MatchRun, run.req.slots = [some (0, queryFrame)] →
        run.req.slots = ([(0, queryFrame)] ++ []).map some := fun _ => id
    refine GoesWell.answered (List.cons_ne_nil _ _) (hrequests _ rfl) hfront (.nil []) ?_ ?_
    · simp [Unmarked]
    · refine ⟨List.nodup_singleton 0, fun ptr hptr => ?_⟩
      obtain rfl : ptr = 0 := Option.some.inj (List.mem_singleton.mp hptr)
      rfl

-- The response to a query has not come yet, and the query is counted as an error.
theorem unanswered_counted_as_error :
    ¬∀ rounds : List Round, (∀ round ∈ rounds, round.InTimeOrder) →
      Throughout roundStep .init (fun _ run => MatchedOnce run) rounds := by
  intro h
  have horder : ∀ round ∈ [(⟨[queryFrame], [readyFrame], fun _ => 0⟩ : Round)],
      round.InTimeOrder := by
    intro round hround
    rw [List.mem_singleton.mp hround]
    exact ⟨List.pairwise_singleton _ _, List.pairwise_singleton _ _⟩
  have hlast := (h [⟨[queryFrame], [readyFrame], fun _ => 0⟩] horder).last
  have herror := hlast.notAnError (0, false) (by decide)
  cases herror

end Gopher.L7.Pgsql
