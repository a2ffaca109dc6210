import Gopher.L7.Pgsql.Matcher

namespace Gopher.L7

variable {φ : Type*}

-- The frame buffers a connection can come to: frames are pushed, matching marks frames and
-- moves the position, and what it has moved over is popped.
inductive FrameStream.Reachable : FrameStream φ → Prop
  | init : Reachable .init
  | push {stream : FrameStream φ} (frame : φ) (h : Reachable stream) :
      Reachable (stream.pushFrame frame)
  | matchFrames {stream : FrameStream φ} (frames : ℕ → Option φ) (pos : ℕ)
      (h : Reachable stream) : Reachable { stream.setPos pos with frames := frames }
  | pop {stream next : FrameStream φ} (h : Reachable stream)
      (hpop : stream.dataStreamPopFrames = some next) : Reachable next

namespace FrameStream

variable {stream next : FrameStream φ}

theorem Reachable.pushFrames (h : stream.Reachable) (frames : List φ) :
    (stream.pushFrames frames).Reachable :=
  pushFrames_induction Reachable h (fun _ frame hstream => hstream.push frame) frames

theorem frameBufSize_dataStreamPopFrames (h : stream.dataStreamPopFrames = some next) :
    next.frameBufs.frameBufSize = stream.frameBufs.frameBufSize := by
  obtain ⟨frames, -, rfl⟩ := Option.map_eq_some_iff.mp h
  exact (FrameBuf.doPopFrames_size stream.frameBufs).1

theorem Reachable.frameBufSize_le (h : stream.Reachable) :
    stream.frameBufs.frameBufSize ≤ FRAME_BUF_SIZE := by
  induction h with
  | init => exact Nat.zero_le _
  | @push stream frame _ ih =>
      rcases stream.pushFrame_cases frame with ⟨-, hsame⟩ | ⟨hroom, -, -, hsize, -⟩
      · rw [hsame]
        exact ih
      · omega
  | matchFrames frames pos _ ih => exact ih
  | pop _ hpop ih =>
      rw [frameBufSize_dataStreamPopFrames hpop]
      exact ih

theorem length_unmatched_le (stream : FrameStream φ) :
    stream.unmatched.length ≤ stream.frameBufs.frameBufSize := by
  rw [unmatched, List.length_drop, FrameBuf.length_contents]
  exact Nat.sub_le _ _

end FrameStream

end Gopher.L7

namespace Gopher.L7.Pgsql

open Gopher.L7

-- The index at which `pgsql_matcher_add_record` stores the record, unless it takes the
-- buffer to be full.
def addRecordWrites (matching : Matching) : List ℕ :=
  if RECORD_BUF_SIZE < matching.records.records.length then []
  else [matching.records.records.length]

-- The handlers do not touch the records, so that the index is the one found before.
def matchRequestWrites (matching : Matching) (slot : Option ℕ) : List ℕ :=
  match matching.req.follow slot with
  | none => []
  | some (_, frame) =>
      match handlerOf frame.msg with
      | none => []
      | some handler =>
          match handler matching.rsp.slots with
          | some ⟨.ok _, _⟩ => addRecordWrites matching
          | _ => []

-- The loop as far as it gets.
def matchWrites (unset : ℕ → UInt64) : Matching → List (Option ℕ) → List ℕ
  | _, [] => []
  | matching, slot :: slots =>
      matchRequestWrites matching slot ++
        match matchRequest unset matching slot with
        | none => []
        | some next => matchWrites unset next slots

-- Every index of `records` that a match round writes to, also when it does not come to its
-- end.
def pgsqlMatchFramesWrites (unset : ℕ → UInt64) (req rsp : FrameStream PgsqlFrame) : List ℕ :=
  if rsp.frameBufs.currentPos < rsp.frameBufs.frameBufSize then
    matchWrites unset (.start req rsp) req.unmatched
  else []

section Writes

variable {unset : ℕ → UInt64} {matching next : Matching} {slot : Option ℕ}
  {slots : List (Option ℕ)} {req rsp : FrameStream PgsqlFrame}

theorem eq_of_mem_matchRequestWrites {index : ℕ} (h : index ∈ matchRequestWrites matching slot) :
    index = matching.records.records.length := by
  have hadd (h : index ∈ addRecordWrites matching) : index = matching.records.records.length := by
    unfold addRecordWrites at h
    split_ifs at h
    · cases h
    · exact List.mem_singleton.mp h
  unfold matchRequestWrites at h
  split at h
  · cases h
  · split at h
    · cases h
    · split at h
      · exact hadd h
      · cases h

-- What one request does to the number of records: it grows by one where the request has
-- stored one, and only there.
theorem matchRequest_writes (h : matchRequest unset matching slot = some next) :
    next.records.records.length =
      matching.records.records.length + (matchRequestWrites matching slot).length := by
  obtain ⟨⟨ptr, frame⟩, hfollow, hnext⟩ := Option.bind_eq_some_iff.mp h
  simp only [matchRequestWrites, hfollow]
  cases hhandler : handlerOf frame.msg with
  | none =>
      simp only [hhandler] at hnext
      cases hnext
      rfl
  | some handler =>
      simp only [hhandler] at hnext
      obtain ⟨⟨result, advanced⟩, hhandled, hresult⟩ := Option.bind_eq_some_iff.mp hnext
      simp only [hhandled]
      cases result with
      | error state =>
          cases hresult
          rfl
      | ok reply =>
          cases hresult
          have hsame : (matching.advance advanced).records = matching.records := rfl
          simp only [pgsqlMatcherAddRecord, addRecordWrites, hsame]
          split_ifs
          · rfl
          · simp [Matching.addRecord, hsame]

theorem matchRequest_records_le (h : matchRequest unset matching slot = some next) :
    next.records.records.length ≤ matching.records.records.length + 1 := by
  have hwrites : (matchRequestWrites matching slot).length ≤ 1 := by
    unfold matchRequestWrites addRecordWrites
    split
    · exact Nat.zero_le _
    · split
      · exact Nat.zero_le _
      · split
        · split_ifs
          · exact Nat.zero_le _
          · exact Nat.le_refl _
        · exact Nat.zero_le _
  have hnext := matchRequest_writes h
  omega

-- By induction on the requests to come, of which each brings one more record at most.
theorem lt_of_mem_matchWrites {index : ℕ} (h : index ∈ matchWrites unset matching slots) :
    index < matching.records.records.length + slots.length := by
  induction slots generalizing matching with
  | nil => cases h
  | cons slot slots ih =>
      rw [List.length_cons]
      rcases List.mem_append.mp h with hfirst | hrest
      · have hindex := eq_of_mem_matchRequestWrites hfirst
        omega
      · cases hnext : matchRequest unset matching slot with
        | none =>
            rw [hnext] at hrest
            cases hrest
        | some next =>
            rw [hnext] at hrest
            have hlt := ih hrest
            have hle := matchRequest_records_le hnext
            omega

-- There are no more requests in a round than slots in a frame buffer, and the two buffers
-- have the same size.
theorem pgsqlMatchFrames_stores_inside (unset : ℕ → UInt64) (hreq : req.Reachable)
    (rsp : FrameStream PgsqlFrame) :
    ∀ index ∈ pgsqlMatchFramesWrites unset req rsp, index < RECORD_BUF_SIZE := by
  intro index hindex
  unfold pgsqlMatchFramesWrites at hindex
  split_ifs at hindex
  · have hlt := lt_of_mem_matchWrites hindex
    have hstart : (Matching.start req rsp).records.records.length = 0 := rfl
    have hunmatched := req.length_unmatched_le
    have hsize := hreq.frameBufSize_le
    have hsame : FRAME_BUF_SIZE = RECORD_BUF_SIZE := rfl
    omega
  · cases hindex

def framesOf (count : ℕ) (frame : PgsqlFrame) : FrameStream PgsqlFrame :=
  FrameStream.init.pushFrames (List.replicate count frame)

def semicolonQuery : PgsqlFrame := ⟨⟨1, PGSQL_SIMPLE_QUERY, 6, [0x3b, 0]⟩, false⟩

def unnamedComplete : PgsqlFrame := ⟨⟨2, PGSQL_CMD_COMPLETE, 4, []⟩, false⟩

-- Queries and the ends of their answers.
theorem pgsqlMatchFrames_stores_inside_query :
    pgsqlMatchFramesWrites (fun _ => 0) (framesOf 64 semicolonQuery) (framesOf 64 unnamedComplete) =
        List.range 64 ∧
      ∀ index ∈ pgsqlMatchFramesWrites (fun _ => 0) (framesOf 64 semicolonQuery)
        (framesOf 64 unnamedComplete), index < RECORD_BUF_SIZE :=
  ⟨by decide +kernel,
    pgsqlMatchFrames_stores_inside _ (FrameStream.Reachable.init.pushFrames _) _⟩

end Writes

end Gopher.L7.Pgsql
