import Gopher.L7.FrameBuf

namespace Gopher.L7

variable {φ : Type*}

-- A frame buffer whose slots are pointers, with the objects they point to. A pointer
-- is the number of frames created before, so that no object is at the place of an
-- earlier one. The frames that were freed and those to come are `none`.
structure FrameStream (φ : Type*) where
  frameBufs : FrameBuf ℕ
  frames : ℕ → Option φ
  created : ℕ

-- A slot and the frame found through it. NULL and freed frames are `none`, as a program
-- that follows them has failed.
abbrev Slot (φ : Type*) := Option (ℕ × φ)

-- The pointers of the slots that can be followed.
def pointers (slots : List (Slot φ)) : List ℕ := slots.filterMap fun slot => slot.map Prod.fst

namespace FrameStream

def init : FrameStream φ := { frameBufs := .empty, frames := fun _ => none, created := 0 }

def follow (stream : FrameStream φ) (slot : Option ℕ) : Slot φ :=
  slot.bind fun ptr => (stream.frames ptr).map fun frame => (ptr, frame)

-- The slots from the position on.
def unmatched (stream : FrameStream φ) : List (Option ℕ) :=
  stream.frameBufs.contents.drop stream.frameBufs.currentPos

def slots (stream : FrameStream φ) : List (Slot φ) := stream.unmatched.map stream.follow

-- A frame the buffer has no room for is destroyed again.
def pushFrame (stream : FrameStream φ) (frame : φ) : FrameStream φ :=
  match stream.frameBufs.pushFrameData stream.created with
  | none => stream
  | some frameBufs =>
      { frameBufs := frameBufs
        frames := Function.update stream.frames stream.created (some frame)
        created := stream.created + 1 }

def pushFrames (stream : FrameStream φ) (frames : List φ) : FrameStream φ :=
  frames.foldl pushFrame stream

def setPos (stream : FrameStream φ) (pos : ℕ) : FrameStream φ :=
  { stream with frameBufs := { stream.frameBufs with currentPos := pos } }

def advance (stream : FrameStream φ) (count : ℕ) : FrameStream φ :=
  stream.setPos (stream.frameBufs.currentPos + count)

-- `none` is an object that is freed twice.
def destroyFrameData (frames : ℕ → Option φ) : List ℕ → Option (ℕ → Option φ)
  | [] => some frames
  | ptr :: ptrs =>
      if (frames ptr).isSome then destroyFrameData (Function.update frames ptr none) ptrs else none

def dataStreamPopFrames (stream : FrameStream φ) : Option (FrameStream φ) :=
  let (destroyed, frameBufs) := stream.frameBufs.doPopFrames
  (destroyFrameData stream.frames destroyed).map fun frames =>
    { stream with frameBufs := frameBufs, frames := frames }

end FrameStream

namespace FrameBuf

theorem pushFrameData_le {buf : FrameBuf φ} {frame : φ} (h : buf.pushFrameData frame = none) :
    FRAME_BUF_SIZE ≤ buf.frameBufSize := by
  unfold pushFrameData at h
  split_ifs at h with hfull
  exact hfull

theorem doPopFrames_destroyed {buf : FrameBuf φ} (hpos : buf.currentPos ≤ buf.frameBufSize)
    (hsize : buf.frameBufSize ≤ FRAME_BUF_SIZE) :
    buf.doPopFrames.1 = (buf.contents.take buf.currentPos).reduceOption := by
  by_cases hzero : buf.currentPos = 0
  · simp [doPopFrames, hzero]
  · have htake : buf.contents.take buf.currentPos =
        (List.range buf.currentPos).map buf.frames := by
      rw [contents, ← List.map_take, List.take_range, Nat.min_eq_left hpos]
    rw [htake, doPopFrames, if_neg hzero, destroyFrames_eq, Nat.min_eq_left (by omega)]
    simp [List.reduceOption, List.filterMap_map]

-- What stays in the slots of a pop that moved something is NULL or was not matched.
theorem mem_contents_doPopFrames {buf : FrameBuf φ} (hpos : buf.currentPos ≤ buf.frameBufSize)
    (hsize : buf.frameBufSize ≤ FRAME_BUF_SIZE) {slot : Option φ}
    (hslot : slot ∈ buf.doPopFrames.2.contents) :
    slot = none ∨ slot ∈ buf.contents.drop buf.currentPos := by
  by_cases hzero : buf.currentPos = 0
  · right
    rw [doPopFrames_of_zero hzero] at hslot
    simpa [hzero] using hslot
  · simp only [doPopFrames, hzero, ite_false, contents, destroyFrames_eq,
      moveFrames_eq _ (Nat.pos_of_ne_zero hzero), List.mem_map, List.mem_range] at hslot
    obtain ⟨i, hi, rfl⟩ := hslot
    have hmem {j : ℕ} (hlow : buf.currentPos ≤ j) (hhigh : j < buf.frameBufSize) :
        buf.frames j ∈ buf.contents.drop buf.currentPos := by
      apply List.mem_drop_iff_getElem.mpr
      refine ⟨j - buf.currentPos, by rw [length_contents]; omega, ?_⟩
      simp [contents, show buf.currentPos + (j - buf.currentPos) = j by omega]
    split_ifs with hmoved hfirst hcleared
    · exact .inl rfl
    · exact .inr (hmem (by omega) (by omega))
    · exact .inl rfl
    · exact .inr (hmem (by omega) hi)

end FrameBuf

namespace FrameStream

-- The pointers in the first slots can be followed, and no two are the same.
structure SoundTo (stream : FrameStream φ) (count : ℕ) : Prop where
  distinct : (stream.frameBufs.contents.take count).reduceOption.Nodup
  live : ∀ ptr, some ptr ∈ stream.frameBufs.contents.take count → (stream.frames ptr).isSome

@[simp] theorem frameBufs_setPos (stream : FrameStream φ) (pos : ℕ) :
    (stream.setPos pos).frameBufs = { stream.frameBufs with currentPos := pos } := rfl

theorem unmatched_advance (stream : FrameStream φ) (count : ℕ) :
    (stream.advance count).unmatched = stream.unmatched.drop count := by
  simp [unmatched, advance, FrameBuf.contents]

theorem slots_advance (stream : FrameStream φ) (count : ℕ) :
    (stream.advance count).slots = stream.slots.drop count := by
  rw [slots, unmatched_advance, List.map_drop]
  rfl

theorem advance_advance (stream : FrameStream φ) (count more : ℕ) :
    (stream.advance count).advance more = stream.advance (count + more) := by
  simp [advance, setPos, Nat.add_assoc]

theorem unmatched_of_zero {stream : FrameStream φ} (h : stream.frameBufs.currentPos = 0) :
    stream.unmatched = stream.frameBufs.contents := by
  simp [unmatched, h]

theorem follow_eq_some {stream : FrameStream φ} {slot : Option ℕ} {ptr : ℕ} {frame : φ} :
    stream.follow slot = some (ptr, frame) ↔ slot = some ptr ∧ stream.frames ptr = some frame := by
  cases slot with
  | none => simp [follow]
  | some other =>
      simp only [follow, Option.bind_some, Option.map_eq_some_iff, Prod.mk.injEq, Option.some.injEq]
      constructor
      · rintro ⟨_, hframe, rfl, rfl⟩
        exact ⟨rfl, hframe⟩
      · rintro ⟨rfl, hframe⟩
        exact ⟨frame, hframe, rfl, rfl⟩

-- Slots that can all be followed.
theorem slots_eq_map_some {stream : FrameStream φ} {entries : List (ℕ × φ)}
    (h : stream.slots = entries.map some) :
    stream.unmatched = (entries.map Prod.fst).map some ∧
      ∀ entry ∈ entries, stream.frames entry.1 = some entry.2 := by
  unfold slots at h
  generalize stream.unmatched = unmatched at h ⊢
  induction entries generalizing unmatched with
  | nil => exact ⟨List.map_eq_nil_iff.mp h, by simp⟩
  | cons entry entries ih =>
      obtain ⟨slot, rest, rfl, hslot, hrest⟩ := List.map_eq_cons_iff.mp h
      obtain ⟨rfl, hframe⟩ := follow_eq_some.mp hslot
      obtain ⟨rfl, hframes⟩ := ih rest hrest
      refine ⟨rfl, fun other hother => ?_⟩
      rcases List.mem_cons.mp hother with rfl | hother
      · exact hframe
      · exact hframes other hother

theorem pointers_slots_sublist (stream : FrameStream φ) :
    (pointers stream.slots).Sublist stream.unmatched.reduceOption := by
  unfold slots pointers
  induction stream.unmatched with
  | nil => exact .slnil
  | cons slot rest ih =>
      cases hfollow : stream.follow slot with
      | none =>
          rw [List.map_cons, hfollow]
          have htail : rest.reduceOption.Sublist (slot :: rest).reduceOption :=
            (List.sublist_cons_self slot rest).filterMap id
          exact ih.trans htail
      | some entry =>
          obtain ⟨rfl, -⟩ := follow_eq_some.mp hfollow
          rw [List.map_cons, hfollow]
          exact ih.cons_cons entry.1

theorem length_slots_of_zero {stream : FrameStream φ} (h : stream.frameBufs.currentPos = 0) :
    stream.slots.length = stream.frameBufs.frameBufSize := by
  rw [slots, List.length_map, unmatched_of_zero h, FrameBuf.length_contents]

-- What pushing leaves alone, whether the frame finds room or not.
theorem pushFrame_cases (stream : FrameStream φ) (frame : φ) :
    (FRAME_BUF_SIZE ≤ stream.frameBufs.frameBufSize ∧ stream.pushFrame frame = stream) ∨
      (stream.frameBufs.frameBufSize < FRAME_BUF_SIZE ∧
        (stream.pushFrame frame).frameBufs.contents =
          stream.frameBufs.contents ++ [some stream.created] ∧
        (stream.pushFrame frame).frameBufs.currentPos = stream.frameBufs.currentPos ∧
        (stream.pushFrame frame).frameBufs.frameBufSize = stream.frameBufs.frameBufSize + 1 ∧
        (stream.pushFrame frame).created = stream.created + 1) := by
  unfold pushFrame
  cases hpush : stream.frameBufs.pushFrameData stream.created with
  | none => exact .inl ⟨FrameBuf.pushFrameData_le hpush, rfl⟩
  | some frameBufs =>
      obtain ⟨hcontents, hpos, hsize⟩ := FrameBuf.pushFrameData_contents hpush
      exact .inr ⟨FrameBuf.pushFrameData_lt hpush, hcontents, hpos, hsize, rfl⟩

-- The place of a new frame is not that of an earlier one.
theorem frames_pushFrame_of_lt (stream : FrameStream φ) (frame : φ) {ptr : ℕ}
    (h : ptr < stream.created) : (stream.pushFrame frame).frames ptr = stream.frames ptr := by
  unfold pushFrame
  cases stream.frameBufs.pushFrameData stream.created with
  | none => rfl
  | some frameBufs => exact Function.update_of_ne (Nat.ne_of_lt h) _ _

theorem pushFrames_induction (kept : FrameStream φ → Prop) {stream : FrameStream φ}
    (hstream : kept stream) (hpush : ∀ stream frame, kept stream → kept (stream.pushFrame frame))
    (frames : List φ) : kept (stream.pushFrames frames) := by
  induction frames generalizing stream with
  | nil => exact hstream
  | cons frame frames ih => exact ih (hpush stream frame hstream)

-- All frames of the stream are counted by the size of its buffer, which never shrinks.
def Full (stream : FrameStream φ) : Prop := stream.frameBufs.frameBufSize = stream.created

theorem Full.pushFrame {stream : FrameStream φ} (h : stream.Full) (frame : φ) :
    (stream.pushFrame frame).Full ∧ stream.created ≤ (stream.pushFrame frame).created ∧
      0 < (stream.pushFrame frame).created := by
  unfold Full at h ⊢
  rcases stream.pushFrame_cases frame with ⟨hfull, hsame⟩ | ⟨-, -, -, hsize, hcreated⟩
  · have hpos : 0 < FRAME_BUF_SIZE := by decide
    rw [hsame]
    omega
  · omega

theorem Full.pushFrames {stream : FrameStream φ} (h : stream.Full) (frames : List φ) :
    (stream.pushFrames frames).Full ∧ stream.created ≤ (stream.pushFrames frames).created ∧
      ((stream.pushFrames frames).created = 0 ↔ stream.created = 0 ∧ frames = []) := by
  induction frames generalizing stream with
  | nil => exact ⟨h, Nat.le_refl _, by simp [FrameStream.pushFrames]⟩
  | cons frame frames ih =>
      obtain ⟨hfull, hle, hpos⟩ := h.pushFrame frame
      obtain ⟨hlast, hmore, -⟩ := ih hfull
      have hcons : stream.pushFrames (frame :: frames) =
          (stream.pushFrame frame).pushFrames frames := rfl
      rw [hcons]
      refine ⟨hlast, by omega, fun hzero => by omega, fun hnone => ?_⟩
      exact absurd hnone.2 (List.cons_ne_nil _ _)

theorem destroyFrameData_eq_some_iff {frames after : ℕ → Option φ} {ptrs : List ℕ} :
    destroyFrameData frames ptrs = some after ↔
      (ptrs.Nodup ∧ ∀ ptr ∈ ptrs, (frames ptr).isSome) ∧
        after = fun ptr => if ptr ∈ ptrs then none else frames ptr := by
  induction ptrs generalizing frames with
  | nil =>
      rw [destroyFrameData, Option.some.injEq, eq_comm (a := frames)]
      simp
  | cons ptr ptrs ih =>
      rw [destroyFrameData]
      split_ifs with hlive
      · have hupdated : (∀ other ∈ ptrs, (Function.update frames ptr none other).isSome) ↔
            ptr ∉ ptrs ∧ ∀ other ∈ ptrs, (frames other).isSome := by
          constructor
          · intro h
            refine ⟨fun hmem => ?_, fun other hother => ?_⟩
            · simpa using h ptr hmem
            · by_cases heq : other = ptr
              · rw [heq]
                exact hlive
              · simpa [heq] using h other hother
          · rintro ⟨hnew, h⟩ other hother
            have hne : other ≠ ptr := fun heq => hnew (heq ▸ hother)
            simpa [hne] using h other hother
        have hsame : (fun other => if other ∈ ptrs then none
              else Function.update frames ptr none other) =
            fun other => if other ∈ ptr :: ptrs then none else frames other := by
          funext other
          by_cases heq : other = ptr <;> simp [heq]
        rw [ih, hupdated, hsame, List.nodup_cons, List.forall_mem_cons]
        simp [hlive, and_assoc, and_comm, and_left_comm]
      · simp [hlive]

theorem dataStreamPopFrames_of_zero {stream : FrameStream φ}
    (h : stream.frameBufs.currentPos = 0) : stream.dataStreamPopFrames = some stream := by
  simp [dataStreamPopFrames, FrameBuf.doPopFrames_of_zero h, destroyFrameData]

-- What popping the first slots comes to.
structure Popped (before : FrameStream φ) (count : ℕ) (after : FrameStream φ) : Prop where
  currentPos : after.frameBufs.currentPos = 0
  frameBufSize : after.frameBufs.frameBufSize = before.frameBufs.frameBufSize
  created : after.created = before.created
  frames : ∀ ptr, some ptr ∉ before.frameBufs.contents.take count →
    after.frames ptr = before.frames ptr
  unmatched : after.frameBufs.contents.take (before.frameBufs.frameBufSize - count) =
    before.frameBufs.contents.drop count
  left : ∀ slot ∈ after.frameBufs.contents,
    slot = none ∨ slot ∈ before.frameBufs.contents.drop count

section Pop

variable {before after : FrameStream φ} {count : ℕ} {ptr : ℕ} {slot : Option ℕ}

theorem setPos_eq_advance (hzero : before.frameBufs.currentPos = 0) :
    before.setPos count = before.advance count := by
  rw [advance, hzero, Nat.zero_add]

theorem frameBufs_advance (hzero : before.frameBufs.currentPos = 0) :
    (before.advance count).frameBufs = { before.frameBufs with currentPos := count } := by
  rw [← setPos_eq_advance hzero, frameBufs_setPos]

-- A pop behind an advance frees the first slots, if they hold distinct frames.
theorem dataStreamPopFrames_advance (hzero : before.frameBufs.currentPos = 0)
    (hcount : count ≤ before.frameBufs.frameBufSize)
    (hsize : before.frameBufs.frameBufSize ≤ FRAME_BUF_SIZE) :
    (before.advance count).dataStreamPopFrames = some after ↔ before.SoundTo count ∧
      after =
        { frameBufs := ({ before.frameBufs with currentPos := count } : FrameBuf ℕ).doPopFrames.2
          frames := fun ptr => if some ptr ∈ before.frameBufs.contents.take count then none
            else before.frames ptr
          created := before.created } := by
  let matched : FrameBuf ℕ := { before.frameBufs with currentPos := count }
  have hbufs : (before.advance count).frameBufs = matched := frameBufs_advance hzero
  have hdestroyed : matched.doPopFrames.1 =
      (before.frameBufs.contents.take count).reduceOption :=
    FrameBuf.doPopFrames_destroyed hcount hsize
  have hframes : (before.advance count).frames = before.frames := rfl
  have hcreated : (before.advance count).created = before.created := rfl
  simp only [dataStreamPopFrames, hbufs, hdestroyed, hframes, hcreated, Option.map_eq_some_iff,
    destroyFrameData_eq_some_iff, List.reduceOption_mem_iff]
  constructor
  · rintro ⟨_, ⟨⟨hdistinct, hlive⟩, rfl⟩, rfl⟩
    exact ⟨⟨hdistinct, hlive⟩, rfl⟩
  · rintro ⟨h, rfl⟩
    exact ⟨_, ⟨⟨h.distinct, h.live⟩, rfl⟩, rfl⟩

theorem soundTo_of_pop (hzero : before.frameBufs.currentPos = 0)
    (hcount : count ≤ before.frameBufs.frameBufSize)
    (hsize : before.frameBufs.frameBufSize ≤ FRAME_BUF_SIZE)
    (h : (before.advance count).dataStreamPopFrames = some after) : before.SoundTo count :=
  ((dataStreamPopFrames_advance hzero hcount hsize).mp h).1

theorem popped_of_pop (hzero : before.frameBufs.currentPos = 0)
    (hcount : count ≤ before.frameBufs.frameBufSize)
    (hsize : before.frameBufs.frameBufSize ≤ FRAME_BUF_SIZE)
    (h : (before.advance count).dataStreamPopFrames = some after) :
    Popped before count after := by
  obtain ⟨-, rfl⟩ := (dataStreamPopFrames_advance hzero hcount hsize).mp h
  let matched : FrameBuf ℕ := { before.frameBufs with currentPos := count }
  obtain ⟨hafterSize, hafterPos⟩ := FrameBuf.doPopFrames_size matched
  have hmatched : matched.currentPos ≤ matched.frameBufSize := hcount
  refine ⟨hafterPos, hafterSize, rfl, fun ptr hptr => if_neg hptr, ?_, ?_⟩
  · exact FrameBuf.doPopFrames_unmatched hmatched hsize
  · exact fun slot hslot => FrameBuf.mem_contents_doPopFrames hmatched hsize hslot

theorem SoundTo.pop (h : before.SoundTo count) (hzero : before.frameBufs.currentPos = 0)
    (hcount : count ≤ before.frameBufs.frameBufSize)
    (hsize : before.frameBufs.frameBufSize ≤ FRAME_BUF_SIZE) :
    ∃ after, (before.advance count).dataStreamPopFrames = some after ∧
      Popped before count after := by
  have hpop := (dataStreamPopFrames_advance hzero hcount hsize).mpr ⟨h, rfl⟩
  exact ⟨_, hpop, popped_of_pop hzero hcount hsize hpop⟩

theorem Popped.mem_of_drop (h : Popped before count after)
    (hslot : slot ∈ before.frameBufs.contents.drop count) : slot ∈ after.frameBufs.contents := by
  rw [← h.unmatched] at hslot
  exact List.mem_of_mem_take hslot

theorem Popped.contents_of_zero (h : Popped before 0 after) :
    after.frameBufs.contents = before.frameBufs.contents := by
  have hunmatched := h.unmatched
  rw [List.drop_zero, List.take_of_length_le] at hunmatched
  · exact hunmatched
  · apply Nat.le_of_eq
    rw [FrameBuf.length_contents, h.frameBufSize, Nat.sub_zero]

-- A frame in one slot only is gone when that slot is popped.
theorem Popped.not_mem_of_take (h : Popped before count after)
    (hnodup : before.frameBufs.contents.Nodup)
    (hptr : some ptr ∈ before.frameBufs.contents.take count) :
    some ptr ∉ after.frameBufs.contents := by
  intro hmem
  rw [← List.take_append_drop count before.frameBufs.contents] at hnodup
  obtain ⟨-, -, hdisjoint⟩ := List.nodup_append.mp hnodup
  rcases h.left _ hmem with hnull | hrest
  · cases hnull
  · exact hdisjoint _ hptr _ hrest rfl

-- A pop of everything leaves only NULL.
theorem Popped.eq_none (h : Popped before before.frameBufs.frameBufSize after)
    (hslot : slot ∈ after.frameBufs.contents) : slot = none := by
  rcases h.left slot hslot with hnull | hrest
  · exact hnull
  · rw [List.drop_of_length_le (Nat.le_of_eq (FrameBuf.length_contents _))] at hrest
    cases hrest

end Pop

end FrameStream

end Gopher.L7
