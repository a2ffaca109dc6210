import Gopher.L7.FrameStream
import Gopher.L7.Pgsql.Matcher
import Gopher.L7.Pgsql.Matcher.Loop

namespace Gopher.L7.Pgsql

open Gopher.L7

-- The frames that are pushed before matching, and what unset timestamps read as.
structure Round where
  requests : List PgsqlFrame
  responses : List PgsqlFrame
  unset : ℕ → UInt64

def timestamps (frames : List PgsqlFrame) : List UInt64 :=
  frames.map fun frame => frame.msg.timestampNs

structure Round.InTimeOrder (round : Round) : Prop where
  requests : (timestamps round.requests).Pairwise (· ≤ ·)
  responses : (timestamps round.responses).Pairwise (· ≤ ·)

-- The two streams of a connection, the requests that went into a record with the
-- responses it took, and those that were counted as errors. `faulted` is a process that
-- followed a pointer to nothing or freed a frame twice.
structure MatchRun where
  req : FrameStream PgsqlFrame
  rsp : FrameStream PgsqlFrame
  answered : List (ℕ × List ℕ)
  refused : List (ℕ × Bool)
  faulted : Bool

namespace MatchRun

def init : MatchRun where
  req := .init
  rsp := .init
  answered := []
  refused := []
  faulted := false

def push (run : MatchRun) (round : Round) : MatchRun :=
  { run with
    req := run.req.pushFrames round.requests
    rsp := run.rsp.pushFrames round.responses }

end MatchRun

def matchAndPop (unset : ℕ → UInt64) (run : MatchRun) : Option MatchRun := do
  let matching ← pgsqlMatchFrames unset run.req run.rsp
  let req ← matching.req.dataStreamPopFrames
  let rsp ← matching.rsp.dataStreamPopFrames
  return { run with
    req := req
    rsp := rsp
    answered := run.answered ++ matching.answers
    refused := run.refused ++ matching.refused }

def roundStep (run : MatchRun) (round : Round) : MatchRun :=
  if run.faulted then run
  else (matchAndPop round.unset (run.push round)).getD { run with faulted := true }

def MatchRun.answeredRequests (run : MatchRun) : List ℕ := run.answered.map Prod.fst

-- What matching over rounds is for. The requests that were pushed are the ones below
-- `created`.
structure MatchedOnce (run : MatchRun) : Prop where
  running : run.faulted = false
  once : run.answeredRequests.Nodup
  removed : ∀ ptr ∈ run.answeredRequests, some ptr ∉ run.req.frameBufs.contents
  pending : ∀ ptr < run.req.created, ptr ∉ run.answeredRequests →
    some ptr ∈ run.req.frameBufs.contents
  notAnError : ∀ request ∈ run.refused, request.2 = true
  responses : (run.answered.flatMap Prod.snd).Nodup

-- Requests that are answered in turn, with how far they move the position of the
-- responses and what each of them takes.
inductive Replied : List (ℕ × PgsqlFrame) → List (Slot PgsqlFrame) → ℕ → List (ℕ × List ℕ) → Prop
  | nil (slots : List (Slot PgsqlFrame)) : Replied [] slots 0 []
  | cons {ptr : ℕ} {frame : PgsqlFrame} {requests : List (ℕ × PgsqlFrame)}
      {slots : List (Slot PgsqlFrame)} {handler : List (Slot PgsqlFrame) → Option Handled}
      {reply : Reply} {advanced moved : ℕ} {answers : List (ℕ × List ℕ)}
      (hhandler : handlerOf frame.msg = some handler)
      (hreply : handler slots = some ⟨.ok reply, advanced⟩)
      (hrest : Replied requests (slots.drop advanced) moved answers) :
      Replied ((ptr, frame) :: requests) slots (advanced + moved) ((ptr, reply.taken) :: answers)

-- Requests of which none is answered: nobody handles them, or they are refused
-- although their response is there.
inductive Passed : List (ℕ × PgsqlFrame) → List (Slot PgsqlFrame) → ℕ → Prop
  | nil (slots : List (Slot PgsqlFrame)) : Passed [] slots 0
  | skip {ptr : ℕ} {frame : PgsqlFrame} {requests : List (ℕ × PgsqlFrame)}
      {slots : List (Slot PgsqlFrame)} {moved : ℕ} (hhandler : handlerOf frame.msg = none)
      (hrest : Passed requests slots moved) : Passed ((ptr, frame) :: requests) slots moved
  | refuse {ptr : ℕ} {frame : PgsqlFrame} {requests : List (ℕ × PgsqlFrame)}
      {slots : List (Slot PgsqlFrame)} {handler : List (Slot PgsqlFrame) → Option Handled}
      {state : ParseState} {advanced moved : ℕ} (hhandler : handlerOf frame.msg = some handler)
      (herror : handler slots = some ⟨.error state, advanced⟩)
      (harrived : responseArrived frame.msg slots = true)
      (hrest : Passed requests (slots.drop advanced) moved) :
      Passed ((ptr, frame) :: requests) slots (advanced + moved)

-- The first request that stays can be looked at and is not marked.
def Unmarked (slots : List (Slot PgsqlFrame)) : Prop :=
  ∀ slot ∈ slots.head?, ∃ ptr frame, slot = some (ptr, frame) ∧ frame.consumed = false

-- The rounds that go well, told by what the streams hold once the frames are pushed.
-- Without responses nothing is matched. Otherwise the requests that find their
-- responses stand in front of those that are passed. The responses that are dropped,
-- all of them with an answer and otherwise those moved over, are distinct frames that
-- can be followed.
inductive GoesWell (req rsp : FrameStream PgsqlFrame) : Prop
  | noResponses (hresponses : rsp.slots = []) (hfirst : Unmarked req.slots)
  | answered {front rest : List (ℕ × PgsqlFrame)} {moved more : ℕ} {answers : List (ℕ × List ℕ)}
      (hresponses : rsp.slots ≠ []) (hrequests : req.slots = (front ++ rest).map some)
      (hfront : Replied front rsp.slots moved answers)
      (hrest : Passed rest (rsp.slots.drop moved) more) (hfirst : Unmarked (rest.map some))
      (hsound : rsp.SoundTo (if front = [] then more else rsp.frameBufs.frameBufSize))

def RoundOk (run : MatchRun) (round : Round) : Prop :=
  GoesWell (run.push round).req (run.push round).rsp

section Requests

variable {front rest requests : List (ℕ × PgsqlFrame)} {slots : List (Slot PgsqlFrame)}
  {moved more : ℕ} {answers : List (ℕ × List ℕ)}

theorem Passed.worked (h : Passed requests slots more) : Worked requests slots more [] := by
  induction h with
  | nil slots => exact .nil slots
  | skip hhandler hrest ih => exact .skip hhandler ih
  | refuse hhandler herror harrived hrest ih => exact .refuse hhandler herror harrived ih

theorem Replied.worked (h : Replied front slots moved answers)
    (hrest : Passed rest (slots.drop moved) more) :
    Worked (front ++ rest) slots (moved + more) answers := by
  induction h with
  | nil slots =>
      rw [List.drop_zero] at hrest
      rw [Nat.zero_add]
      exact hrest.worked
  | cons hhandler hreply hnext ih =>
      rw [← List.drop_drop] at hrest
      rw [Nat.add_assoc]
      exact .reply hhandler hreply (ih hrest)

theorem Worked.answered (h : Worked requests slots moved answers) :
    (answers.map Prod.fst).Sublist (requests.map Prod.fst) := by
  induction h with
  | nil slots => exact .slnil
  | skip hhandler hrest ih => exact ih.cons _
  | refuse hhandler herror harrived hrest ih => exact ih.cons _
  | reply hhandler hreply hrest ih => exact ih.cons_cons _

theorem Worked.moved_le (h : Worked requests slots moved answers) : moved ≤ slots.length := by
  have hadd {slots : List (Slot PgsqlFrame)} {handled : Handled} {moved : ℕ}
      (hfits : handled.Fits slots) (hle : moved ≤ (slots.drop handled.advanced).length) :
      handled.advanced + moved ≤ slots.length := by
    have hadvanced := hfits.advanced_le
    rw [List.length_drop] at hle
    omega
  induction h with
  | nil slots => exact Nat.zero_le _
  | skip hhandler hrest ih => exact ih
  | refuse hhandler herror harrived hrest ih => exact hadd (handler_fits hhandler herror) ih
  | reply hhandler hreply hrest ih => exact hadd (handler_fits hhandler hreply) ih

-- A first response that cannot be followed answers nothing.
theorem Worked.eq_nil (h : Worked requests (none :: slots) moved answers) :
    moved = 0 ∧ answers = [] := by
  generalize hall : none :: slots = all at h
  induction h with
  | nil => exact ⟨rfl, rfl⟩
  | skip hhandler hrest ih => exact ih hall
  | refuse hhandler herror harrived hrest ih =>
      subst hall
      obtain rfl := handler_none hhandler herror
      rw [Nat.zero_add]
      exact ih rfl
  | reply hhandler hreply hrest ih =>
      subst hall
      have hpos := ((handler_fits hhandler hreply).replied _ rfl).1
      have hzero := handler_none hhandler hreply
      dsimp only at hpos hzero
      omega

theorem Worked.passed (h : Worked requests slots moved answers)
    (hnone : ∀ request ∈ requests, request.1 ∉ answers.map Prod.fst) :
    answers = [] ∧ Passed requests slots moved := by
  induction h with
  | nil slots => exact ⟨rfl, .nil slots⟩
  | skip hhandler hrest ih =>
      obtain ⟨hempty, hpassed⟩ := ih (List.forall_mem_cons.mp hnone).2
      exact ⟨hempty, .skip hhandler hpassed⟩
  | refuse hhandler herror harrived hrest ih =>
      obtain ⟨hempty, hpassed⟩ := ih (List.forall_mem_cons.mp hnone).2
      exact ⟨hempty, .refuse hhandler herror harrived hpassed⟩
  | reply hhandler hreply hrest ih =>
      exact absurd List.mem_cons_self (List.forall_mem_cons.mp hnone).1

-- When the requests in front are the ones that are answered, they are answered in
-- turn, and the others are passed.
theorem Worked.split (h : Worked (front ++ rest) slots moved answers)
    (hnodup : ((front ++ rest).map Prod.fst).Nodup)
    (hfront : ∀ request ∈ front, request.1 ∈ answers.map Prod.fst)
    (hrest : ∀ request ∈ rest, request.1 ∉ answers.map Prod.fst) :
    ∃ replied more, moved = replied + more ∧ Replied front slots replied answers ∧
      Passed rest (slots.drop replied) more := by
  induction front generalizing slots moved answers with
  | nil =>
      obtain ⟨rfl, hpassed⟩ := h.passed hrest
      exact ⟨0, moved, (Nat.zero_add moved).symm, .nil slots, hpassed⟩
  | cons request front ih =>
      obtain ⟨hfirst, hbehind⟩ := List.forall_mem_cons.mp hfront
      rw [List.cons_append, List.map_cons] at hnodup
      obtain ⟨hnew, hdistinct⟩ := List.nodup_cons.mp hnodup
      cases h with
      | skip hhandler hnext => exact absurd (hnext.answered.subset hfirst) hnew
      | refuse hhandler herror harrived hnext =>
          exact absurd (hnext.answered.subset hfirst) hnew
      | @reply ptr frame _ _ handler reply advanced moved answers hhandler hreply hnext =>
          have hothers : ∀ other ∈ front, other.1 ∈ answers.map Prod.fst := by
            intro other hother
            rcases List.mem_cons.mp (hbehind other hother) with heq | hmem
            · have hmem : other.1 ∈ (front ++ rest).map Prod.fst :=
                List.mem_map_of_mem (List.mem_append_left _ hother)
              exact absurd (heq ▸ hmem) hnew
            · exact hmem
          obtain ⟨replied, more, rfl, hreplied, hpassed⟩ := ih hnext hdistinct hothers
            fun other hother hmem => hrest other hother (List.mem_cons_of_mem _ hmem)
          refine ⟨advanced + replied, more, (Nat.add_assoc _ _ _).symm,
            .cons hhandler hreply hreplied, ?_⟩
          rw [← List.drop_drop]
          exact hpassed

theorem Replied.answered (h : Replied requests slots moved answers) :
    answers.map Prod.fst = requests.map Prod.fst := by
  induction h with
  | nil slots => rfl
  | cons hhandler hreply hrest ih => rw [List.map_cons, List.map_cons, ih]

theorem Replied.taken (h : Replied requests slots moved answers) :
    (answers.flatMap Prod.snd).Sublist (pointers slots) := by
  induction h with
  | nil slots => exact List.nil_sublist _
  | @cons ptr frame requests slots handler reply advanced moved answers hhandler hreply hrest ih =>
      have hreplied := ((handler_fits hhandler hreply).replied reply rfl).2
      rw [← List.take_append_drop advanced slots, pointers_append, List.flatMap_cons]
      exact hreplied.append ih

theorem Replied.eq_nil_iff (h : Replied requests slots moved answers) :
    answers = [] ↔ requests = [] := by
  rw [← List.map_eq_nil_iff (f := Prod.fst), h.answered, List.map_eq_nil_iff]

theorem Replied.dropped_eq (more size : ℕ) (h : Replied front slots moved answers) :
    (if front.length = 0 then moved + more else size) = if front = [] then more else size := by
  cases h with
  | nil => simp
  | cons hhandler hreply hrest => simp

end Requests

section Unmarked

variable {req : FrameStream PgsqlFrame} {front rest : List (ℕ × PgsqlFrame)} {ptrs : List ℕ}

theorem unmarked_slots_iff : Unmarked req.slots ↔ UnmarkedAt req req.unmatched := by
  unfold Unmarked UnmarkedAt FrameStream.slots
  rw [List.head?_map]
  cases req.unmatched.head? <;> simp

theorem Unmarked.unmarkedAt (h : Unmarked (rest.map some))
    (hframes : ∀ request ∈ rest, req.frames request.1 = some request.2)
    (hnew : ∀ request ∈ rest.head?, request.1 ∉ ptrs) :
    UnmarkedAt (ptrs.foldl consume req) ((rest.map Prod.fst).map some) := by
  rcases rest with _ | ⟨⟨ptr, frame⟩, rest⟩
  · simp [UnmarkedAt]
  · obtain ⟨_, _, heq, hunmarked⟩ := h _ rfl
    cases heq
    intro slot hslot
    cases hslot
    refine ⟨ptr, frame, FrameStream.follow_eq_some.mpr ⟨rfl, ?_⟩, hunmarked⟩
    rw [frames_foldl_consume, if_neg (hnew _ rfl)]
    exact hframes _ List.mem_cons_self

-- A frame that shows no mark was not marked before either.
theorem unmarked_of_unmarkedAt
    (h : UnmarkedAt (ptrs.foldl consume req) ((rest.map Prod.fst).map some))
    (hframes : ∀ request ∈ rest, req.frames request.1 = some request.2) :
    Unmarked (rest.map some) := by
  rcases rest with _ | ⟨⟨ptr, frame⟩, rest⟩
  · simp [Unmarked]
  · obtain ⟨_, marked, hfollow, hunmarked⟩ := h _ rfl
    obtain ⟨heq, hframe⟩ := FrameStream.follow_eq_some.mp hfollow
    cases heq
    have hsame : req.frames ptr = some frame := hframes _ List.mem_cons_self
    rw [frames_foldl_consume, hsame] at hframe
    intro slot hslot
    cases hslot
    refine ⟨ptr, frame, rfl, ?_⟩
    split_ifs at hframe
    · cases hframe
      cases hunmarked
    · cases hframe
      exact hunmarked

theorem countConsumed_front (hrequests : req.slots = (front ++ rest).map some)
    (hfirst : Unmarked (rest.map some))
    (hnew : ∀ request ∈ rest.head?, request.1 ∉ front.map Prod.fst) :
    countConsumed ((front.map Prod.fst).foldl consume req) req.unmatched =
      some front.length := by
  obtain ⟨hunmatched, hframes⟩ := FrameStream.slots_eq_map_some hrequests
  have hlength : ((front.map Prod.fst).map some).length = front.length := by simp
  rw [List.map_append, List.map_append] at hunmatched
  refine countConsumed_eq_some_iff.mpr ⟨?_, ?_, ?_⟩
  · rw [hunmatched, List.length_append, hlength]
    exact Nat.le_add_right _ _
  · rw [hunmatched, ← hlength, List.take_left]
    intro slot hslot
    obtain ⟨ptr, hptr, rfl⟩ := List.mem_map.mp hslot
    obtain ⟨request, hrequest, rfl⟩ := List.mem_map.mp hptr
    refine ⟨request.1, request.2.markConsumed, FrameStream.follow_eq_some.mpr ⟨rfl, ?_⟩, rfl⟩
    rw [frames_foldl_consume, if_pos hptr, hframes request (List.mem_append_left _ hrequest)]
    rfl
  · rw [hunmatched, ← hlength, List.drop_left]
    exact hfirst.unmarkedAt
      (fun request hrequest => hframes request (List.mem_append_right _ hrequest)) hnew

theorem soundTo_front (hzero : req.frameBufs.currentPos = 0)
    (hrequests : req.slots = (front ++ rest).map some) (hnodup : (front.map Prod.fst).Nodup) :
    ((front.map Prod.fst).foldl consume req).SoundTo front.length := by
  obtain ⟨hunmatched, hframes⟩ := FrameStream.slots_eq_map_some hrequests
  have hlength : ((front.map Prod.fst).map some).length = front.length := by simp
  have htake : ((front.map Prod.fst).foldl consume req).frameBufs.contents.take front.length =
      (front.map Prod.fst).map some := by
    rw [(frameBufs_foldl_consume req _).1, ← FrameStream.unmatched_of_zero hzero, hunmatched,
      List.map_append, List.map_append, ← hlength, List.take_left]
  constructor
  · rw [htake]
    simpa [List.reduceOption] using hnodup
  · rw [htake]
    intro ptr hptr
    have hmem : ptr ∈ front.map Prod.fst := by simpa using hptr
    obtain ⟨request, hrequest, rfl⟩ := List.mem_map.mp hmem
    rw [frames_foldl_consume, if_pos hmem, hframes request (List.mem_append_left _ hrequest)]
    rfl

end Unmarked

end Gopher.L7.Pgsql
