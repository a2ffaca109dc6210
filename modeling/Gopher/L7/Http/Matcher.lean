import Gopher.L7.Counters

namespace Gopher.L7.Http

open Gopher.L7

-- `INT64_MAX`, the timestamp of the message that stands for a request behind the last.
def PLACEHOLDER_TIMESTAMP_NS : UInt64 := 9223372036854775807

structure HttpMessage where
  timestampNs : UInt64
  respStatus : Int

structure HttpRecord where
  reqTimestampNs : UInt64
  resp : HttpMessage

-- `requests` and `responses` count how far the two positions have moved. `current` is
-- what `record->req->timestamp_ns` reads, `none` being a pointer nobody set that leads
-- nowhere.
structure HttpMatching where
  requests : ℕ
  responses : ℕ
  current : Option UInt64
  records : List (RecordData HttpRecord)
  errCount : ℕ

namespace HttpMatching

def takeRequest (req : HttpMessage) (matching : HttpMatching) : HttpMatching :=
  { matching with requests := matching.requests + 1, current := some req.timestampNs }

-- The request of the next record is whatever the new memory holds.
def addHttpRecordIntoBuf (unset : ℕ → Option UInt64) (reqTimestampNs : UInt64)
    (resp : HttpMessage) (matching : HttpMatching) : HttpMatching :=
  let record : RecordData HttpRecord :=
    { record := ⟨reqTimestampNs, resp⟩, latency := resp.timestampNs - reqTimestampNs }
  { matching with
    current := unset (matching.records.length + 1)
    records := matching.records ++ [record]
    errCount := if 400 ≤ resp.respStatus then matching.errCount + 1 else matching.errCount }

def takeResponse (unset : ℕ → Option UInt64) (resp : HttpMessage) (matching : HttpMatching) :
    Option HttpMatching :=
  matching.current.map fun reqTimestampNs =>
    let matching := { matching with responses := matching.responses + 1 }
    if reqTimestampNs ≠ 0 then matching.addHttpRecordIntoBuf unset reqTimestampNs resp
    else matching

end HttpMatching

-- The rounds of the loop that take the requests older than a response. A placeholder
-- that is older moves the position over the end, where the next round finds NULL.
def takeRequests (resp : HttpMessage) :
    List (Slot HttpMessage) → HttpMatching → Option (List (Slot HttpMessage) × HttpMatching)
  | [], matching =>
      if PLACEHOLDER_TIMESTAMP_NS < resp.timestampNs then none else some ([], matching)
  | none :: _, _ => none
  | some (ptr, req) :: requests, matching =>
      if req.timestampNs < resp.timestampNs then
        takeRequests resp requests (matching.takeRequest req)
      else some (some (ptr, req) :: requests, matching)

-- The loop, which goes on as long as there are responses.
def httpMatchLoop (unset : ℕ → Option UInt64) :
    List (Slot HttpMessage) → List (Slot HttpMessage) → HttpMatching → Option HttpMatching
  | _, [], matching => some matching
  | requests, slot :: responses, matching => do
      let (_, resp) ← slot
      let (requests, matching) ← takeRequests resp requests matching
      let matching ← matching.takeResponse unset resp
      httpMatchLoop unset requests responses matching

-- The allocations of the records are granted.
def httpMatchFrames (unset : ℕ → Option UInt64) : FrameMatcher HttpMessage HttpRecord :=
  fun req rsp =>
    (httpMatchLoop unset req.slots rsp.slots ⟨0, 0, unset 0, [], 0⟩).map fun matching =>
      (req.advance matching.requests, rsp.advance matching.responses,
        { records := matching.records
          errCount := matching.errCount
          reqCount := req.frameBufs.frameBufSize
          respCount := rsp.frameBufs.frameBufSize })

section Merge

def InTimeOrder (msgs : List HttpMessage) : Prop :=
  msgs.Pairwise fun msg later => msg.timestampNs ≤ later.timestampNs

-- The requests from one time on that are older than another.
def between (since before : UInt64) (reqs : List HttpMessage) : List HttpMessage :=
  reqs.filter fun req => since ≤ req.timestampNs && req.timestampNs < before

-- The response of the last pair says since when requests wait.
def lastMatch (pairs : List (HttpMessage × HttpMessage)) : UInt64 :=
  (pairs.getLast?.map fun pair => pair.2.timestampNs).getD 0

-- The latest of the requests that wait. All before it are given up.
def waitingRequest (reqs : List HttpMessage) (pairs : List (HttpMessage × HttpMessage))
    (rsp : HttpMessage) : Option HttpMessage :=
  (between (lastMatch pairs) rsp.timestampNs reqs).getLast?

-- A request without a time stands for none.
def matchResponse (reqs : List HttpMessage) (pairs : List (HttpMessage × HttpMessage))
    (rsp : HttpMessage) : List (HttpMessage × HttpMessage) :=
  match waitingRequest reqs pairs rsp with
  | none => pairs
  | some req => if req.timestampNs = 0 then pairs else pairs ++ [(req, rsp)]

def mergePairs (reqs rsps : List HttpMessage) : List (HttpMessage × HttpMessage) :=
  rsps.foldl (matchResponse reqs) []

def recordOf (pair : HttpMessage × HttpMessage) : RecordData HttpRecord where
  record := ⟨pair.1.timestampNs, pair.2⟩
  latency := pair.2.timestampNs - pair.1.timestampNs

def lastTime (rsps : List HttpMessage) : UInt64 :=
  (rsps.getLast?.map HttpMessage.timestampNs).getD 0

-- Where no request waits, the new record reads as if it had one without a time.
def ReadsNone (unset : ℕ → Option UInt64) (reqs rsps : List HttpMessage) : Prop :=
  ∀ front rsp back, rsps = front ++ rsp :: back →
    waitingRequest reqs (mergePairs reqs front) rsp = none →
      unset (mergePairs reqs front).length = some 0

-- Each response with the latest request not newer than it that is still without one. The
-- stack holds those that came before.
def mergeUnmatched : List HttpMessage → List HttpMessage → List HttpMessage →
    List (HttpMessage × HttpMessage)
  | _, _, [] => []
  | stack, reqs, rsp :: rsps =>
      let taken := reqs.takeWhile fun req => req.timestampNs ≤ rsp.timestampNs
      match taken.reverse ++ stack with
      | [] => mergeUnmatched [] (reqs.drop taken.length) rsps
      | req :: stack => (req, rsp) :: mergeUnmatched stack (reqs.drop taken.length) rsps

-- What the loop has reached when it is through with some responses.
def matchingOf (unset : ℕ → Option UInt64) (reqs rsps : List HttpMessage) : HttpMatching where
  requests := reqs.countP fun req => req.timestampNs < lastTime rsps
  responses := rsps.length
  current :=
    ((between (lastMatch (mergePairs reqs rsps)) (lastTime rsps) reqs).getLast?.map
      HttpMessage.timestampNs).or (unset (mergePairs reqs rsps).length)
  records := (mergePairs reqs rsps).map recordOf
  errCount := (mergePairs reqs rsps).countP fun pair => 400 ≤ pair.2.respStatus

end Merge

section Windows

variable {reqs : List HttpMessage} {req : HttpMessage} {since last before : UInt64}

theorem InTimeOrder.le_of_head (h : InTimeOrder (req :: reqs)) (hle : since ≤ req.timestampNs) :
    ∀ later ∈ req :: reqs, since ≤ later.timestampNs := by
  intro later hlater
  rcases List.mem_cons.mp hlater with rfl | hmem
  · exact hle
  · exact UInt64.le_trans hle ((List.pairwise_cons.mp h).1 later hmem)

theorem between_eq_nil (h : ∀ req ∈ reqs, since ≤ req.timestampNs → before ≤ req.timestampNs) :
    between since before reqs = [] := by
  unfold between
  rw [List.filter_eq_nil_iff]
  intro req hmem hreq
  simp only [Bool.and_eq_true, decide_eq_true_eq] at hreq
  exact UInt64.not_lt.mpr (h req hmem hreq.1) hreq.2

-- In time order the requests of a window stand together.
theorem between_eq_takeWhile (hsorted : InTimeOrder reqs)
    (hsince : ∀ req ∈ reqs, since ≤ req.timestampNs) :
    between since before reqs = reqs.takeWhile fun req => req.timestampNs < before := by
  induction reqs with
  | nil => rfl
  | cons req reqs ih =>
      obtain ⟨hreq, hreqs⟩ := List.forall_mem_cons.mp hsince
      by_cases hlt : req.timestampNs < before
      · have hrest := ih (List.pairwise_cons.mp hsorted).2 hreqs
        unfold between at hrest ⊢
        rw [List.filter_cons_of_pos (by simp [hreq, hlt]), hrest,
          List.takeWhile_cons_of_pos (by simp [hlt])]
      · have hle := hsorted.le_of_head (UInt64.not_lt.mp hlt)
        rw [between_eq_nil fun later hlater _ => hle later hlater,
          List.takeWhile_cons_of_neg (by simp [hlt])]

theorem between_append (hsorted : InTimeOrder reqs) (hsince : since ≤ last)
    (hlast : last ≤ before) :
    between since before reqs = between since last reqs ++
      (reqs.dropWhile fun req => req.timestampNs < last).takeWhile fun req =>
        req.timestampNs < before := by
  induction reqs with
  | nil => rfl
  | cons req reqs ih =>
      by_cases hlt : req.timestampNs < last
      · have hrest := ih (List.pairwise_cons.mp hsorted).2
        have hlt' := UInt64.lt_of_lt_of_le hlt hlast
        rw [List.dropWhile_cons_of_pos (by simp [hlt])]
        unfold between at hrest ⊢
        by_cases hreq : since ≤ req.timestampNs
        · rw [List.filter_cons_of_pos (by simp [hreq, hlt']),
            List.filter_cons_of_pos (by simp [hreq, hlt]), hrest, List.cons_append]
        · rw [List.filter_cons_of_neg (by simp [hreq]), List.filter_cons_of_neg (by simp [hreq]),
            hrest]
      · have hle := hsorted.le_of_head (UInt64.not_lt.mp hlt)
        have hle' := hsorted.le_of_head (UInt64.le_trans hsince (UInt64.not_lt.mp hlt))
        have hnil : between since last (req :: reqs) = [] :=
          between_eq_nil fun later hlater _ => hle later hlater
        rw [hnil, List.dropWhile_cons_of_neg (by simp [hlt]), List.nil_append,
          between_eq_takeWhile hsorted hle']

theorem countP_eq_add (hsorted : InTimeOrder reqs) (hlast : last ≤ before) :
    reqs.countP (fun req => req.timestampNs < before) =
      reqs.countP (fun req => req.timestampNs < last) +
        ((reqs.dropWhile fun req => req.timestampNs < last).takeWhile fun req =>
          req.timestampNs < before).length := by
  have hwindow : between 0 before reqs = _ := between_append hsorted UInt64.zero_le hlast
  have hfilter : ∀ time, between 0 time reqs = reqs.filter fun req => req.timestampNs < time := by
    intro time
    simp [between]
  rw [List.countP_eq_length_filter, List.countP_eq_length_filter, ← hfilter, ← hfilter, hwindow,
    List.length_append]

end Windows

section Rounds

variable {rsp : HttpMessage} {unset : ℕ → Option UInt64}

def olderThan (time : UInt64) (slot : ℕ × HttpMessage) : Bool := slot.2.timestampNs < time

-- All requests older than a response are taken, and the last of them is kept.
theorem takeRequests_eq (slots : List (ℕ × HttpMessage))
    (hrsp : rsp.timestampNs ≤ PLACEHOLDER_TIMESTAMP_NS) (matching : HttpMatching) :
    takeRequests rsp (slots.map some) matching =
      some ((slots.dropWhile (olderThan rsp.timestampNs)).map some,
        { matching with
          requests := matching.requests + (slots.takeWhile (olderThan rsp.timestampNs)).length
          current := ((slots.takeWhile (olderThan rsp.timestampNs)).getLast?.map fun slot =>
            slot.2.timestampNs).or matching.current }) := by
  induction slots generalizing matching with
  | nil =>
      rw [List.map_nil, takeRequests, if_neg (UInt64.not_lt.mpr hrsp)]
      rfl
  | cons slot slots ih =>
      rw [List.map_cons, takeRequests]
      by_cases hlt : slot.2.timestampNs < rsp.timestampNs
      · have hcurrent : ∀ last : Option (ℕ × HttpMessage),
            (last.map fun slot => slot.2.timestampNs).or (some slot.2.timestampNs) =
              (some (last.getD slot).2.timestampNs).or matching.current := by
          intro last
          cases last <;> rfl
        rw [if_pos hlt, ih, List.dropWhile_cons_of_pos (by simp [olderThan, hlt]),
          List.takeWhile_cons_of_pos (by simp [olderThan, hlt]), List.length_cons,
          List.getLast?_cons, Option.map_some, ← hcurrent, HttpMatching.takeRequest,
          Nat.add_assoc, Nat.add_comm 1]
      · rw [if_neg hlt, List.dropWhile_cons_of_neg (by simp [olderThan, hlt]), List.map_cons,
          List.takeWhile_cons_of_neg (by simp [olderThan, hlt])]
        rfl

theorem lastTime_append (front : List HttpMessage) (rsp : HttpMessage) :
    lastTime (front ++ [rsp]) = rsp.timestampNs := by
  simp [lastTime]

theorem mergePairs_append (reqs front : List HttpMessage) (rsp : HttpMessage) :
    mergePairs reqs (front ++ [rsp]) = matchResponse reqs (mergePairs reqs front) rsp := by
  simp [mergePairs]

theorem lastTime_le {front back : List HttpMessage} (h : InTimeOrder (front ++ rsp :: back)) :
    lastTime front ≤ rsp.timestampNs := by
  unfold lastTime
  cases hlast : front.getLast? with
  | none => exact UInt64.zero_le
  | some last =>
      exact (List.pairwise_append.mp h).2.2 last (List.mem_of_getLast? hlast) rsp
        List.mem_cons_self

-- A response never comes behind those that are through.
theorem lastMatch_append_le {reqs front : List HttpMessage}
    (h : lastMatch (mergePairs reqs front) ≤ lastTime front)
    (hrsp : lastTime front ≤ rsp.timestampNs) :
    lastMatch (mergePairs reqs (front ++ [rsp])) ≤ lastTime (front ++ [rsp]) := by
  rw [mergePairs_append, lastTime_append, matchResponse]
  cases waitingRequest reqs (mergePairs reqs front) rsp with
  | none => exact UInt64.le_trans h hrsp
  | some req =>
      dsimp only
      split_ifs
      · exact UInt64.le_trans h hrsp
      · simp [lastMatch]

-- A response with the requests taken that are older.
theorem takeResponse_eq (reqs front : List HttpMessage)
    (hnone : waitingRequest reqs (mergePairs reqs front) rsp = none →
      unset (mergePairs reqs front).length = some 0) :
    HttpMatching.takeResponse unset rsp
      { matchingOf unset reqs front with
        requests := reqs.countP fun req => req.timestampNs < rsp.timestampNs
        current := ((waitingRequest reqs (mergePairs reqs front) rsp).map
          HttpMessage.timestampNs).or (unset (mergePairs reqs front).length) } =
      some (matchingOf unset reqs (front ++ [rsp])) := by
  unfold HttpMatching.takeResponse matchingOf
  rw [mergePairs_append, lastTime_append, matchResponse]
  cases hwaiting : waitingRequest reqs (mergePairs reqs front) rsp with
  | none =>
      have hwindow : (between (lastMatch (mergePairs reqs front)) rsp.timestampNs reqs).getLast? =
          none := hwaiting
      dsimp only
      rw [hwindow, hnone hwaiting]
      simp
  | some req =>
      have hwindow : (between (lastMatch (mergePairs reqs front)) rsp.timestampNs reqs).getLast? =
          some req := hwaiting
      dsimp only
      by_cases htime : req.timestampNs = 0
      · rw [if_pos htime, hwindow]
        simp [htime]
      · have hlast : lastMatch (mergePairs reqs front ++ [(req, rsp)]) = rsp.timestampNs := by
          simp [lastMatch]
        have hempty : between rsp.timestampNs rsp.timestampNs reqs = [] :=
          between_eq_nil fun _ _ h => h
        rw [if_neg htime, hlast, hempty]
        simp [htime, HttpMatching.addHttpRecordIntoBuf, recordOf]
        split_ifs <;> rfl

theorem dropWhile_olderThan {time later : UInt64} (h : time ≤ later)
    (slots : List (ℕ × HttpMessage)) :
    (slots.dropWhile (olderThan time)).dropWhile (olderThan later) =
      slots.dropWhile (olderThan later) := by
  induction slots with
  | nil => rfl
  | cons slot slots ih =>
      by_cases hlt : slot.2.timestampNs < time
      · have hlt' := UInt64.lt_of_lt_of_le hlt h
        rw [List.dropWhile_cons_of_pos (by simp [olderThan, hlt]), ih,
          List.dropWhile_cons_of_pos (by simp [olderThan, hlt'])]
      · rw [List.dropWhile_cons_of_neg (by simp [olderThan, hlt])]

-- The requests that a response takes, behind those that were taken before.
theorem takeRequests_matchingOf (slots : List (ℕ × HttpMessage)) {front : List HttpMessage}
    (hslots : InTimeOrder (slots.map Prod.snd))
    (hmatch : lastMatch (mergePairs (slots.map Prod.snd) front) ≤ lastTime front)
    (htime : lastTime front ≤ rsp.timestampNs)
    (hrsp : rsp.timestampNs ≤ PLACEHOLDER_TIMESTAMP_NS) :
    takeRequests rsp ((slots.dropWhile (olderThan (lastTime front))).map some)
        (matchingOf unset (slots.map Prod.snd) front) =
      some ((slots.dropWhile (olderThan rsp.timestampNs)).map some,
        { matchingOf unset (slots.map Prod.snd) front with
          requests := (slots.map Prod.snd).countP fun req => req.timestampNs < rsp.timestampNs
          current := ((waitingRequest (slots.map Prod.snd) (mergePairs (slots.map Prod.snd) front)
            rsp).map HttpMessage.timestampNs).or
              (unset (mergePairs (slots.map Prod.snd) front).length) }) := by
  have hwindow : (((slots.map Prod.snd).dropWhile fun req =>
      req.timestampNs < lastTime front).takeWhile fun req =>
        req.timestampNs < rsp.timestampNs) =
      ((slots.dropWhile (olderThan (lastTime front))).takeWhile
        (olderThan rsp.timestampNs)).map Prod.snd := by
    rw [List.dropWhile_map, List.takeWhile_map]
    rfl
  rw [takeRequests_eq _ hrsp, dropWhile_olderThan htime, countP_eq_add hslots htime,
    waitingRequest, between_append hslots hmatch htime, hwindow, List.getLast?_append,
    List.getLast?_map, List.length_map, Option.map_or, Option.or_assoc, Option.map_map]
  rfl

theorem httpMatchLoop_eq (slots : List (ℕ × HttpMessage))
    (hslots : InTimeOrder (slots.map Prod.snd)) (rest : List (ℕ × HttpMessage))
    (front : List HttpMessage)
    (hrsps : InTimeOrder (front ++ rest.map Prod.snd))
    (hmax : ∀ rsp ∈ rest.map Prod.snd, rsp.timestampNs ≤ PLACEHOLDER_TIMESTAMP_NS)
    (hnone : ReadsNone unset (slots.map Prod.snd) (front ++ rest.map Prod.snd))
    (hmatch : lastMatch (mergePairs (slots.map Prod.snd) front) ≤ lastTime front) :
    httpMatchLoop unset ((slots.dropWhile (olderThan (lastTime front))).map some) (rest.map some)
        (matchingOf unset (slots.map Prod.snd) front) =
      some (matchingOf unset (slots.map Prod.snd) (front ++ rest.map Prod.snd)) := by
  induction rest generalizing front with
  | nil => simp [httpMatchLoop]
  | cons rsp rest ih =>
      obtain ⟨ptr, rsp⟩ := rsp
      have hfront : front ++ ((ptr, rsp) :: rest).map Prod.snd =
          front ++ [rsp] ++ rest.map Prod.snd := by simp
      have htime : lastTime front ≤ rsp.timestampNs := lastTime_le hrsps
      have hresponse := takeResponse_eq (slots.map Prod.snd) front
        (hnone front rsp (rest.map Prod.snd) rfl)
      have hrest := ih (front ++ [rsp]) (hfront ▸ hrsps)
        (fun later hlater => hmax later (List.mem_cons_of_mem _ hlater)) (hfront ▸ hnone)
        (lastMatch_append_le hmatch htime)
      rw [lastTime_append] at hrest
      rw [hfront, ← hrest, List.map_cons, httpMatchLoop]
      dsimp only [bind, Option.bind]
      rw [takeRequests_matchingOf slots hslots hmatch htime (hmax rsp List.mem_cons_self)]
      dsimp only
      rw [hresponse]

end Rounds

section Matching

-- Each response gets the latest request older than it that came since the last match.
theorem httpMatchFrames_merge (unset : ℕ → Option UInt64) (req rsp : FrameStream HttpMessage)
    (reqs rsps : List (ℕ × HttpMessage)) (hreqs : req.slots = reqs.map some)
    (hrsps : rsp.slots = rsps.map some) (hreqOrder : InTimeOrder (reqs.map Prod.snd))
    (hrspOrder : InTimeOrder (rsps.map Prod.snd))
    (hmax : ∀ rsp ∈ rsps.map Prod.snd, rsp.timestampNs ≤ PLACEHOLDER_TIMESTAMP_NS)
    (hnone : ReadsNone unset (reqs.map Prod.snd) (rsps.map Prod.snd)) :
    httpMatchFrames unset req rsp =
      some (req.advance ((reqs.map Prod.snd).countP fun req =>
          req.timestampNs < lastTime (rsps.map Prod.snd)),
        rsp.advance rsps.length,
        { records := (mergePairs (reqs.map Prod.snd) (rsps.map Prod.snd)).map recordOf
          errCount := (mergePairs (reqs.map Prod.snd) (rsps.map Prod.snd)).countP fun pair =>
            400 ≤ pair.2.respStatus
          reqCount := req.frameBufs.frameBufSize
          respCount := rsp.frameBufs.frameBufSize }) := by
  have hinit : (⟨0, 0, unset 0, [], 0⟩ : HttpMatching) =
      matchingOf unset (reqs.map Prod.snd) [] := by
    have hcount : (reqs.map Prod.snd).countP (fun req => req.timestampNs < lastTime []) = 0 := by
      rw [List.countP_eq_zero]
      intro req _
      simp [lastTime]
    have hempty : between (lastMatch []) (lastTime []) (reqs.map Prod.snd) = [] :=
      between_eq_nil fun _ _ h => h
    unfold matchingOf
    rw [hcount, mergePairs, List.foldl_nil, hempty]
    rfl
  have hslots : reqs.dropWhile (olderThan (lastTime [])) = reqs := by
    cases reqs with
    | nil => rfl
    | cons slot slots => exact List.dropWhile_cons_of_neg (by simp [olderThan, lastTime])
  have hloop : httpMatchLoop unset _ _ _ = _ :=
    httpMatchLoop_eq reqs hreqOrder rsps [] hrspOrder hmax hnone (UInt64.le_refl _)
  rw [hslots, List.nil_append] at hloop
  unfold httpMatchFrames
  rw [hreqs, hrsps, hinit, hloop]
  simp [matchingOf]

-- Two requests and then their responses.
def pipelinedRequests : FrameStream HttpMessage := FrameStream.init.pushFrames [⟨1, -1⟩, ⟨2, -1⟩]

def pipelinedResponses : FrameStream HttpMessage :=
  FrameStream.init.pushFrames [⟨3, 200⟩, ⟨4, 500⟩]

theorem slots_pipelinedRequests :
    pipelinedRequests.slots = [(0, ⟨1, -1⟩), (1, ⟨2, -1⟩)].map some := rfl

theorem slots_pipelinedResponses :
    pipelinedResponses.slots = [(0, ⟨3, 200⟩), (1, ⟨4, 500⟩)].map some := rfl

theorem httpMatchFrames_merge_pipelined :
    httpMatchFrames (fun _ => some 0) pipelinedRequests pipelinedResponses =
      some (pipelinedRequests.advance 2, pipelinedResponses.advance 2,
        { records := [⟨⟨2, ⟨3, 200⟩⟩, 1⟩], errCount := 0, reqCount := 2, respCount := 2 }) :=
  httpMatchFrames_merge (fun _ => some 0) pipelinedRequests pipelinedResponses
    [(0, ⟨1, -1⟩), (1, ⟨2, -1⟩)] [(0, ⟨3, 200⟩), (1, ⟨4, 500⟩)] slots_pipelinedRequests
    slots_pipelinedResponses (by simp [InTimeOrder]) (by simp [InTimeOrder])
    (by simp [PLACEHOLDER_TIMESTAMP_NS]) fun _ _ _ _ _ => rfl

-- The second response does not get the first request, which was given up.
theorem pipelined_not_unmatched :
    ¬∀ (unset : ℕ → Option UInt64) (req rsp : FrameStream HttpMessage)
      (reqs rsps : List (ℕ × HttpMessage)), req.slots = reqs.map some → rsp.slots = rsps.map some →
      InTimeOrder (reqs.map Prod.snd) → InTimeOrder (rsps.map Prod.snd) →
      ∃ req' rsp' buf, httpMatchFrames unset req rsp = some (req', rsp', buf) ∧
        buf.records =
          (mergeUnmatched [] (reqs.map Prod.snd) (rsps.map Prod.snd)).map recordOf := by
  intro h
  obtain ⟨req', rsp', buf, hrun, hrecords⟩ := h (fun _ => some 0) pipelinedRequests
    pipelinedResponses _ _ slots_pipelinedRequests slots_pipelinedResponses
    (by simp [InTimeOrder]) (by simp [InTimeOrder])
  have hone : (httpMatchFrames (fun _ => some 0) pipelinedRequests pipelinedResponses).map
      (fun found => found.2.2.records.length) = some 1 := rfl
  rw [hrun, Option.map_some, hrecords] at hone
  exact absurd hone (by decide)

end Matching

end Gopher.L7.Http
