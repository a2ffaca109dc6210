import Gopher.L7.DataStream
import Gopher.L7.FrameBuf

namespace Gopher.L7

open Gopher.Lib

variable {φ : Type*}

namespace DataStream

theorem unread_overlay (dst src : RawData) :
    (doOverlayRawData dst src).unread = dst.unread ++ src.data := by
  simp only [doOverlayRawData, RawData.unread]
  exact List.drop_append_of_le_length dst.currentPos_le

-- Everything one parse of the chunk `raw` on top of `rest` can lead to.
inductive AgainRound (protocol : Protocol φ) (stream : DataStream φ) (raw : RawData)
    (rest : List RawData) : (DataStream φ × Label) ⊕ DataStream φ → Prop
  | pushed {frame : φ} {pos : ℕ} {frameBufs : FrameBuf φ} {label : Label} {rawBufs : List RawData}
      (hparse : protocol.parseFrame stream.calls raw = (.success, some frame, pos))
      (hpush : stream.frameBufs.pushFrameData frame = some frameBufs)
      (hleft : (label = .next ∧ rawBufs = rest) ∨
        (label = .again ∧ rawBufs = raw.setPos pos :: rest)) :
      AgainRound protocol stream raw rest
        (.inl (⟨rawBufs, frameBufs, stream.type, stream.calls + 1⟩, label))
  | full {frame : φ} {pos : ℕ}
      (hparse : protocol.parseFrame stream.calls raw = (.success, some frame, pos))
      (hpush : stream.frameBufs.pushFrameData frame = none) :
      AgainRound protocol stream raw rest
        (.inr ⟨raw :: rest, stream.frameBufs, stream.type, stream.calls + 1⟩)
  | dropped (hparse : (protocol.parseFrame stream.calls raw).1 = .ignore ∨
        (protocol.parseFrame stream.calls raw).1 = .invalid) :
      AgainRound protocol stream raw rest
        (.inl (⟨rest, stream.frameBufs, stream.type, stream.calls + 1⟩, .next))
  | marked {pos : ℕ} (hparse : (protocol.parseFrame stream.calls raw).1 = .invalid)
      (hflags : raw.flags = false) :
      AgainRound protocol stream raw rest
        (.inl (⟨{ raw.setPos pos with flags := true } :: rest, stream.frameBufs, stream.type,
          stream.calls + 1⟩, .next))
  | overlaid {frame : Option φ} {pos : ℕ} {src : RawData} {later : List RawData}
      (hparse : protocol.parseFrame stream.calls raw = (.needsMoreData, frame, pos))
      (hrest : rest = src :: later) :
      AgainRound protocol stream raw rest
        (.inl (⟨doOverlayRawData (raw.setPos pos) src :: later, stream.frameBufs, stream.type,
          stream.calls + 1⟩, .next))
  | waiting (hparse : (protocol.parseFrame stream.calls raw).1 = .needsMoreData)
      (hrest : rest = []) :
      AgainRound protocol stream raw rest
        (.inr ⟨[raw], stream.frameBufs, stream.type, stream.calls + 1⟩)
  | failed {pos : ℕ} (hinvalid : (protocol.parseFrame stream.calls raw).1 ≠ .invalid)
      (hmore : (protocol.parseFrame stream.calls raw).1 ≠ .needsMoreData)
      (hframe : (protocol.parseFrame stream.calls raw).1 = .success →
        (protocol.parseFrame stream.calls raw).2.1 = none) :
      AgainRound protocol stream raw rest
        (.inr ⟨raw.setPos pos :: rest, stream.frameBufs, stream.type, stream.calls + 1⟩)

theorem parseRound_again (protocol : Protocol φ) {stream : DataStream φ} {raw : RawData}
    {rest : List RawData} (hraw : stream.rawBufs = raw :: rest) :
    AgainRound protocol stream raw rest (parseRound protocol (stream, .again)) := by
  rcases hparse : protocol.parseFrame stream.calls raw with ⟨state, frame, pos⟩
  simp only [parseRound, hraw, doParseFrames, hparse, setTop, List.tail_cons]
  cases state with
  | success =>
      cases frame with
      | none => exact .failed (by simp [hparse]) (by simp [hparse]) (by simp [hparse])
      | some frame =>
          cases hpush : stream.frameBufs.pushFrameData frame with
          | none =>
              simp only [hpush]
              exact .full hparse hpush
          | some pushed =>
              by_cases hend : (raw.setPos pos).currentPos = (raw.setPos pos).data.length
              · simp only [hpush, hend, ite_true, popRawData, List.tail_cons]
                exact .pushed hparse hpush (.inl ⟨rfl, rfl⟩)
              · simp only [hpush, hend, ite_false]
                exact .pushed hparse hpush (.inr ⟨rfl, rfl⟩)
  | ignore => exact .dropped (by simp [hparse])
  | invalid =>
      by_cases hflags : raw.flags = true
      · simp only [RawData.setPos, hflags, ite_true, popRawData, List.tail_cons]
        exact .dropped (by simp [hparse])
      · simp only [RawData.setPos, hflags, Bool.false_eq_true, ite_false]
        exact .marked (by simp [hparse]) (by simpa using hflags)
  | needsMoreData =>
      cases rest with
      | nil => exact .waiting (by simp [hparse]) rfl
      | cons src later => exact .overlaid hparse rfl
  | eos => exact .failed (by simp [hparse]) (by simp [hparse]) (by simp [hparse])
  | notFound => exact .failed (by simp [hparse]) (by simp [hparse]) (by simp [hparse])
  | unknown => exact .failed (by simp [hparse]) (by simp [hparse]) (by simp [hparse])

-- A round whose parse asks for more: the next chunk is put behind the one in hand, or the
-- loop is left.
theorem parseRound_needsMore (protocol : Protocol φ) {stream : DataStream φ} {raw : RawData}
    {rest : List RawData} {frame : Option φ} {pos : ℕ} (hraw : stream.rawBufs = raw :: rest)
    (hparse : protocol.parseFrame stream.calls raw = (.needsMoreData, frame, pos)) :
    (∃ src later, rest = src :: later ∧ parseRound protocol (stream, .again) =
      .inl (⟨doOverlayRawData (raw.setPos pos) src :: later, stream.frameBufs, stream.type,
        stream.calls + 1⟩, .next)) ∨
    (rest = [] ∧ parseRound protocol (stream, .again) =
      .inr ⟨[raw], stream.frameBufs, stream.type, stream.calls + 1⟩) := by
  have hround := parseRound_again protocol hraw
  generalize parseRound protocol (stream, .again) = outcome at hround ⊢
  cases hround with
  | pushed hparse' hpush hleft => simp [hparse] at hparse'
  | full hparse' hpush => simp [hparse] at hparse'
  | dropped hparse' => simp [hparse] at hparse'
  | marked hparse' hflags => simp [hparse] at hparse'
  | overlaid hparse' hrest =>
      rw [hparse] at hparse'
      cases hparse'
      exact .inl ⟨_, _, hrest, rfl⟩
  | waiting hparse' hrest => exact .inr ⟨hrest, rfl⟩
  | failed hinvalid hmore hframe => simp [hparse] at hmore

-- What falls in the parse loop, whatever the protocol answers: the pending chunks,
-- then the mark of an invalid chunk, then the free frame slots, then the label.
def parseMeasure (state : DataStream φ × Label) : ℕ × ℕ × ℕ × ℕ :=
  (state.1.rawBufs.length,
    (match state.1.rawBufs with
      | [] => 0
      | raw :: _ => if raw.flags then 0 else 1),
    FRAME_BUF_SIZE - state.1.frameBufs.frameBufSize,
    match state.2 with
      | .next => 1
      | .again => 0)

theorem parseRound_measure (protocol : Protocol φ) {state next : DataStream φ × Label}
    (h : parseRound protocol state = .inl next) :
    WellFoundedRelation.rel (parseMeasure next) (parseMeasure state) := by
  obtain ⟨stream, label⟩ := state
  cases hraw : stream.rawBufs with
  | nil => simp [parseRound, hraw] at h
  | cons raw rest =>
      cases label with
      | next =>
          simp only [parseRound, hraw] at h
          cases hpos : protocol.findFrameBoundary raw with
          | none =>
              rw [hpos] at h
              cases h
              simp only [parseMeasure, popRawData, hraw, List.tail_cons, List.length_cons]
              exact .left _ _ (Nat.lt_succ_self _)
          | some pos =>
              rw [hpos] at h
              cases h
              simp only [parseMeasure, setTop, hraw, List.tail_cons, RawData.setPos]
              exact .right _ (.right _ (.right _ Nat.zero_lt_one))
      | again =>
          have hround := parseRound_again protocol hraw
          rw [h] at hround
          cases hround with
          | pushed hparse hpush hleft =>
              obtain ⟨-, -, hsize⟩ := FrameBuf.pushFrameData_contents hpush
              rcases hleft with ⟨rfl, rfl⟩ | ⟨rfl, rfl⟩
              · simp only [parseMeasure, hraw, List.length_cons]
                exact .left _ _ (Nat.lt_succ_self _)
              · have hfree := FrameBuf.pushFrameData_lt hpush
                simp only [parseMeasure, hraw, List.length_cons, RawData.setPos, hsize]
                exact .right _ (.right _ (.left _ _ (Nat.sub_lt_sub_left hfree (Nat.lt_succ_self _))))
          | dropped hparse =>
              simp only [parseMeasure, hraw, List.length_cons]
              exact .left _ _ (Nat.lt_succ_self _)
          | marked hparse hflags =>
              simp only [parseMeasure, hraw, hflags]
              exact .right _ (.left _ _ Nat.zero_lt_one)
          | overlaid hparse hrest =>
              simp only [parseMeasure, hraw, hrest, List.length_cons]
              exact .left _ _ (Nat.lt_succ_self _)

theorem dataStreamParseFrames_finishes (protocol : Protocol φ) (stream : DataStream φ) :
    ∃ fuel last, dataStreamParseFrames protocol fuel stream = some last := by
  refine Loop.loop_terminates_of_wf parseMeasure (fun state => ?_) _
  cases hround : parseRound protocol state with
  | inl next => exact .inl ⟨next, rfl, parseRound_measure protocol hround⟩
  | inr last => exact .inr ⟨last, rfl⟩

-- What every round keeps, and every exit establishes, holds after the parse.
theorem dataStreamParseFrames_post {protocol : Protocol φ} (inv : DataStream φ × Label → Prop)
    (post : DataStream φ → Prop)
    (hround : ∀ state, inv state → (parseRound protocol state).elim inv post)
    {fuel : ℕ} {stream last : DataStream φ} (hstart : inv (stream, .next))
    (h : dataStreamParseFrames protocol fuel stream = some last) : post last := by
  refine Loop.loop_post inv post (fun state outcome hinv hbody => ?_) hstart h
  cases hbody
  exact hround state hinv

theorem parseRound_nil (protocol : Protocol φ) {stream : DataStream φ} (label : Label)
    (hraw : stream.rawBufs = []) : parseRound protocol (stream, label) = .inr stream := by
  simp only [parseRound, hraw]

theorem parseRound_next (protocol : Protocol φ) {stream : DataStream φ} {raw : RawData}
    {rest : List RawData} (hraw : stream.rawBufs = raw :: rest) :
    parseRound protocol (stream, .next) =
      match protocol.findFrameBoundary raw with
      | none => .inl (⟨rest, stream.frameBufs, stream.type, stream.calls⟩, .next)
      | some pos =>
          .inl (⟨raw.setPos pos :: rest, stream.frameBufs, stream.type, stream.calls⟩, .again) := by
  cases hboundary : protocol.findFrameBoundary raw with
  | none => simp [parseRound, hraw, hboundary, popRawData]
  | some pos => simp [parseRound, hraw, hboundary, setTop]

-- No frame is taken away, the frame buffer is not overrun and no chunk is added.
structure Bounded (stream other : DataStream φ) : Prop where
  grows : stream.frameBufs.frameBufSize ≤ other.frameBufs.frameBufSize
  fits : stream.frameBufs.frameBufSize ≤ FRAME_BUF_SIZE →
    other.frameBufs.frameBufSize ≤ FRAME_BUF_SIZE
  fewer : other.rawBufs.length ≤ stream.rawBufs.length

theorem Bounded.refl (stream : DataStream φ) : Bounded stream stream :=
  ⟨Nat.le_refl _, id, Nat.le_refl _⟩

theorem parseRound_bounded (protocol : Protocol φ) {stream other : DataStream φ} (label : Label)
    (h : Bounded stream other) :
    (parseRound protocol (other, label)).elim (fun state => Bounded stream state.1)
      (Bounded stream) := by
  obtain ⟨hgrow, hfit, hfewer⟩ := h
  cases hraw : other.rawBufs with
  | nil =>
      rw [parseRound_nil protocol label hraw]
      exact ⟨hgrow, hfit, hfewer⟩
  | cons raw rest =>
      rw [hraw, List.length_cons] at hfewer
      cases label with
      | next =>
          rw [parseRound_next protocol hraw]
          cases protocol.findFrameBoundary raw with
          | none => exact ⟨hgrow, hfit, by dsimp only; omega⟩
          | some pos => exact ⟨hgrow, hfit, hfewer⟩
      | again =>
          have hround := parseRound_again protocol hraw
          generalize parseRound protocol (other, .again) = outcome at hround ⊢
          cases hround with
          | pushed hparse hpush hleft =>
              obtain ⟨-, -, hsize⟩ := FrameBuf.pushFrameData_contents hpush
              have hfree := FrameBuf.pushFrameData_lt hpush
              refine ⟨by dsimp only; omega, fun _ => by dsimp only; omega, ?_⟩
              rcases hleft with ⟨-, rfl⟩ | ⟨-, rfl⟩
              · dsimp only
                omega
              · exact hfewer
          | full hparse hpush => exact ⟨hgrow, hfit, hfewer⟩
          | dropped hparse => exact ⟨hgrow, hfit, by dsimp only; omega⟩
          | marked hparse hflags => exact ⟨hgrow, hfit, hfewer⟩
          | overlaid hparse hrest =>
              subst hrest
              refine ⟨hgrow, hfit, ?_⟩
              simp only [List.length_cons] at hfewer ⊢
              omega
          | waiting hparse hrest =>
              subst hrest
              exact ⟨hgrow, hfit, hfewer⟩
          | failed hinvalid hmore hframe => exact ⟨hgrow, hfit, hfewer⟩

theorem dataStreamParseFrames_bounded {protocol : Protocol φ} {fuel : ℕ}
    {stream last : DataStream φ} (h : dataStreamParseFrames protocol fuel stream = some last) :
    Bounded stream last :=
  dataStreamParseFrames_post (fun state => Bounded stream state.1) (Bounded stream)
    (fun state hstate => parseRound_bounded protocol state.2 hstate) (.refl stream) h

theorem dataStreamAddRawData_of_lt (stream : DataStream φ) (data : List UInt8)
    (timestampNs : UInt64) (h : stream.rawBufs.length < RAW_BUF_SIZE) :
    stream.dataStreamAddRawData data timestampNs =
      some { stream with rawBufs := stream.rawBufs ++ [.create data timestampNs] } := by
  simp only [dataStreamAddRawData, pushRawData, show ¬RAW_BUF_SIZE ≤ stream.rawBufs.length by omega,
    ite_false]

theorem dataStreamAddRawData_eq {stream added : DataStream φ} {data : List UInt8}
    {timestampNs : UInt64} (h : stream.dataStreamAddRawData data timestampNs = some added) :
    added = { stream with rawBufs := stream.rawBufs ++ [.create data timestampNs] } := by
  unfold dataStreamAddRawData pushRawData at h
  split_ifs at h
  exact (Option.some.inj h).symm

-- The parse loop where every round may be answered by other functions than the one
-- before, `answers` from the next round on.
def parseRounds : ℕ → (ℕ → Protocol φ) → DataStream φ × Label → Option (DataStream φ)
  | 0, _, _ => none
  | fuel + 1, answers, state =>
      match parseRound (answers 0) state with
      | .inl next => parseRounds fuel (fun round => answers (round + 1)) next
      | .inr last => some last

theorem parseRounds_const (protocol : Protocol φ) (fuel : ℕ) (state : DataStream φ × Label) :
    parseRounds fuel (fun _ => protocol) state =
      loop (fun state => some (parseRound protocol state)) fuel state := by
  induction fuel generalizing state with
  | zero => rfl
  | succ fuel ih =>
      rw [Loop.loop_succ, parseRounds]
      cases parseRound protocol state with
      | inl next => exact ih next
      | inr last => rfl

-- The measure falls whatever the functions of the round are, so it is what the induction
-- is on. More fuel than is needed changes nothing.
theorem parseRounds_finishes (state : DataStream φ × Label) (answers : ℕ → Protocol φ) :
    ∃ fuel last, ∀ more, parseRounds (fuel + more) answers state = some last := by
  have hwf := (invImage (parseMeasure (φ := φ)) inferInstance).wf
  induction state using hwf.induction generalizing answers with
  | _ state ih =>
      cases hround : parseRound (answers 0) state with
      | inl next =>
          obtain ⟨fuel, last, hrest⟩ :=
            ih next (parseRound_measure (answers 0) hround) fun round => answers (round + 1)
          refine ⟨fuel + 1, last, fun more => ?_⟩
          rw [Nat.add_right_comm, parseRounds, hround]
          exact hrest more
      | inr last =>
          refine ⟨1, last, fun more => ?_⟩
          rw [Nat.add_comm, parseRounds, hround]

-- The parse of a stream ends, also where the functions answer as they like in each round.
theorem dataStreamParseFrames_terminates (stream : DataStream φ) :
    (∀ protocol, ∃ fuel last, ∀ more,
      dataStreamParseFrames protocol (fuel + more) stream = some last) ∧
    ∀ answers, ∃ fuel last, ∀ more, parseRounds (fuel + more) answers (stream, .next) =
      some last := by
  constructor
  · intro protocol
    obtain ⟨fuel, last, h⟩ := parseRounds_finishes (stream, .next) fun _ => protocol
    refine ⟨fuel, last, fun more => ?_⟩
    rw [dataStreamParseFrames, ← parseRounds_const]
    exact h more
  · intro answers
    exact parseRounds_finishes (stream, .next) answers

end DataStream

end Gopher.L7
