import Gopher.Lib.Run
import Mathlib.Data.List.Induction
import Mathlib.Data.List.Nodup
import Mathlib.Logic.Function.Basic

namespace Gopher.L7

open Gopher.Lib

variable {φ : Type*}

def FRAME_BUF_SIZE : ℕ := 1024

-- `frames` is the array of pointers, NULL being `none`. Every access below stays
-- under `FRAME_BUF_SIZE`.
structure FrameBuf (φ : Type*) where
  frames : ℕ → Option φ
  frameBufSize : ℕ
  currentPos : ℕ

namespace FrameBuf

def empty : FrameBuf φ := { frames := fun _ => none, frameBufSize := 0, currentPos := 0 }

-- The slots that count.
def contents (buf : FrameBuf φ) : List (Option φ) :=
  (List.range buf.frameBufSize).map buf.frames

-- `none` is the return value -1.
def pushFrameData (buf : FrameBuf φ) (frame : φ) : Option (FrameBuf φ) :=
  if FRAME_BUF_SIZE ≤ buf.frameBufSize then none
  else some { buf with
    frames := Function.update buf.frames buf.frameBufSize (some frame)
    frameBufSize := buf.frameBufSize + 1 }

-- The first loop of a pop: destroy the matched frames and clear their slots.
def destroyFrames (frames : ℕ → Option φ) (count : ℕ) : List φ × (ℕ → Option φ) :=
  (List.range count).foldl
    (fun (destroyed, frames) i => (destroyed ++ (frames i).toList, Function.update frames i none))
    ([], frames)

-- The second loop: move the remaining slots to the front, one after the other.
def moveFrames (frames : ℕ → Option φ) (first count : ℕ) : ℕ → Option φ :=
  ((List.range' first count).foldl
    (fun (frames, start) i => (Function.update frames start (frames i), start + 1))
    (frames, 0)).1

-- The destroyed frames and the buffer that is left. `frame_buf_size` stays.
def doPopFrames (buf : FrameBuf φ) : List φ × FrameBuf φ :=
  if buf.currentPos = 0 then ([], buf)
  else
    let (destroyed, frames) := destroyFrames buf.frames (min buf.currentPos FRAME_BUF_SIZE)
    (destroyed, { buf with
      frames := moveFrames frames buf.currentPos
        (min buf.frameBufSize FRAME_BUF_SIZE - buf.currentPos)
      currentPos := 0 })

end FrameBuf

-- What one round of parsing, matching and popping does to a frame buffer.
inductive FrameOp (φ : Type*)
  | push (frame : φ)
  | matchFrames (pos : ℕ)
  | pop

-- The buffer together with the frames it has accepted and those it has destroyed.
structure FrameHistory (φ : Type*) where
  buf : FrameBuf φ
  pushed : List φ
  discarded : List φ

def FrameHistory.init : FrameHistory φ := { buf := .empty, pushed := [], discarded := [] }

inductive FrameHistory.Step : FrameHistory φ → FrameOp φ → FrameHistory φ → Prop
  -- a frame that is pushed has just been allocated
  | push (state : FrameHistory φ) (frame : φ) (buf : FrameBuf φ) (hnew : frame ∉ state.pushed)
      (hpush : state.buf.pushFrameData frame = some buf) :
      Step state (.push frame)
        { buf := buf, pushed := state.pushed ++ [frame], discarded := state.discarded }
  | pushFull (state : FrameHistory φ) (frame : φ)
      (hpush : state.buf.pushFrameData frame = none) : Step state (.push frame) state
  | matchFrames (state : FrameHistory φ) (pos : ℕ) (hpos : pos ≤ state.buf.frameBufSize) :
      Step state (.matchFrames pos) { state with buf := { state.buf with currentPos := pos } }
  | pop (state : FrameHistory φ) :
      Step state .pop { state with
        buf := state.buf.doPopFrames.2
        discarded := state.discarded ++ state.buf.doPopFrames.1 }

namespace FrameBuf

theorem length_contents (buf : FrameBuf φ) : buf.contents.length = buf.frameBufSize := by
  simp [contents]

theorem pushFrameData_lt {buf next : FrameBuf φ} {frame : φ}
    (h : buf.pushFrameData frame = some next) : buf.frameBufSize < FRAME_BUF_SIZE := by
  unfold pushFrameData at h
  split_ifs at h with hfull
  omega

theorem pushFrameData_contents {buf next : FrameBuf φ} {frame : φ}
    (h : buf.pushFrameData frame = some next) :
    next.contents = buf.contents ++ [some frame] ∧ next.currentPos = buf.currentPos ∧
      next.frameBufSize = buf.frameBufSize + 1 := by
  unfold pushFrameData at h
  split_ifs at h
  cases h
  refine ⟨?_, rfl, rfl⟩
  simp only [contents, List.range_succ, List.map_append, List.map_singleton, Function.update_self]
  congr 1
  apply List.map_congr_left
  intro i hi
  rw [Function.update_of_ne (by have := List.mem_range.mp hi; omega)]

theorem destroyFrames_eq (frames : ℕ → Option φ) (count : ℕ) :
    destroyFrames frames count =
      ((List.range count).filterMap frames, fun i => if i < count then none else frames i) := by
  induction count with
  | zero => simp [destroyFrames]
  | succ count ih =>
      simp only [destroyFrames] at ih ⊢
      rw [List.range_succ, List.foldl_append, ih]
      simp only [List.foldl_cons, List.foldl_nil, Nat.lt_irrefl, ite_false, List.filterMap_append,
        Prod.mk.injEq]
      constructor
      · cases hcount : frames count <;> simp [hcount]
      · funext i
        by_cases hi : i = count
        · simp [hi]
        · rw [Function.update_of_ne hi]
          simp only [show i < count + 1 ↔ i < count by omega]

-- The source of a move lies behind its target, so a slot is read before it is
-- overwritten.
theorem moveFrames_eq (frames : ℕ → Option φ) {first : ℕ} (hfirst : 0 < first) (count : ℕ) :
    moveFrames frames first count = fun i => if i < count then frames (first + i) else frames i := by
  have hfold : (List.range' first count).foldl
      (fun moved i => (Function.update moved.1 moved.2 (moved.1 i), moved.2 + 1)) (frames, 0) =
        ((fun i => if i < count then frames (first + i) else frames i), count) := by
    induction count with
    | zero => simp
    | succ count ih =>
        rw [List.range'_1_concat, List.foldl_append, ih]
        simp only [List.foldl_cons, List.foldl_nil, Prod.mk.injEq, and_true,
          show ¬first + count < count by omega, ite_false]
        funext i
        by_cases hi : i = count
        · simp [hi]
        · rw [Function.update_of_ne hi]
          simp only [show i < count + 1 ↔ i < count by omega]
  exact congrArg Prod.fst hfold

-- The frames that were not matched do move to the front, in order.
theorem doPopFrames_unmatched {buf : FrameBuf φ} (hpos : buf.currentPos ≤ buf.frameBufSize)
    (hsize : buf.frameBufSize ≤ FRAME_BUF_SIZE) :
    buf.doPopFrames.2.contents.take (buf.frameBufSize - buf.currentPos) =
      buf.contents.drop buf.currentPos := by
  by_cases hzero : buf.currentPos = 0
  · simp [doPopFrames, hzero, ← length_contents]
  · apply List.ext_getElem
    · simp [doPopFrames, hzero, contents]
    · intro i hi _
      simp only [List.length_take] at hi
      simp only [doPopFrames, hzero, ite_false, contents, destroyFrames_eq,
        moveFrames_eq _ (Nat.pos_of_ne_zero hzero), List.getElem_take, List.getElem_drop,
        List.getElem_map, List.getElem_range]
      rw [if_pos (by omega), if_neg (by omega)]

theorem doPopFrames_of_zero {buf : FrameBuf φ} (h : buf.currentPos = 0) :
    buf.doPopFrames = ([], buf) := by
  simp [doPopFrames, h]

theorem doPopFrames_size (buf : FrameBuf φ) :
    buf.doPopFrames.2.frameBufSize = buf.frameBufSize ∧ buf.doPopFrames.2.currentPos = 0 := by
  unfold doPopFrames
  split_ifs with h
  · exact ⟨rfl, h⟩
  · exact ⟨rfl, rfl⟩

end FrameBuf

-- No frame object sits in two slots below the size.
def FrameBuf.Distinct (buf : FrameBuf φ) : Prop := buf.contents.reduceOption.Nodup

-- What a pop is for.
structure PopRestores (before after : FrameBuf φ) : Prop where
  contents : after.contents = before.contents.drop before.currentPos
  size : after.frameBufSize = before.frameBufSize - before.currentPos
  distinct : after.Distinct

-- Every accepted frame has been destroyed once or is still buffered once, so the
-- buffer can only be full of frames that were never popped.
def FrameHistory.Accounted (state : FrameHistory φ) : Prop :=
  state.pushed.map some = state.discarded.map some ++ state.buf.contents

theorem FrameHistory.Step.currentPos_le {before after : FrameHistory φ} {op : FrameOp φ}
    (hle : before.buf.currentPos ≤ before.buf.frameBufSize) (h : before.Step op after) :
    after.buf.currentPos ≤ after.buf.frameBufSize := by
  cases h with
  | push frame buf hnew hpush =>
      obtain ⟨-, hpos, hsize⟩ := FrameBuf.pushFrameData_contents hpush
      dsimp only
      omega
  | pushFull frame hpush => exact hle
  | matchFrames pos hpos => exact hpos
  | pop =>
      have hpop := (FrameBuf.doPopFrames_size before.buf).2
      dsimp only
      omega

-- What the history has to look like while no pop finds a matched frame.
structure FrameHistory.Unpopped (state : FrameHistory φ) : Prop where
  discarded : state.discarded = []
  contents : state.buf.contents = state.pushed.map some
  nodup : state.pushed.Nodup

theorem FrameHistory.Unpopped.distinct {state : FrameHistory φ} (h : state.Unpopped) :
    state.buf.Distinct := by
  unfold FrameBuf.Distinct
  rw [h.contents]
  simpa [List.reduceOption] using h.nodup

theorem FrameHistory.Unpopped.step {before after : FrameHistory φ} {op : FrameOp φ}
    (h : before.Unpopped) (hzero : op = .pop → before.buf.currentPos = 0)
    (hstep : before.Step op after) : after.Unpopped := by
  cases hstep with
  | push frame buf hnew hpush =>
      obtain ⟨hcontents, -, -⟩ := FrameBuf.pushFrameData_contents hpush
      refine ⟨h.discarded, ?_, ?_⟩
      · simp [hcontents, h.contents]
      · exact List.nodup_append.mpr ⟨h.nodup, List.nodup_singleton frame, by
          intro other hother _ hframe
          rw [List.mem_singleton.mp hframe]
          exact fun heq => hnew (heq ▸ hother)⟩
  | pushFull frame hpush => exact h
  | matchFrames pos hpos => exact ⟨h.discarded, h.contents, h.nodup⟩
  | pop =>
      have hpop := FrameBuf.doPopFrames_of_zero (hzero rfl)
      refine ⟨?_, ?_, h.nodup⟩
      · simp [hpop, h.discarded]
      · simp [hpop, h.contents]

-- Every pop of the sequence finds `current_pos` at 0.
def PopsAtZero (ops : List (FrameOp φ)) : Prop :=
  ∀ earlier later state, ops = earlier ++ .pop :: later →
    Run FrameHistory.Step .init earlier state → state.buf.currentPos = 0

-- At every point of the sequence all frames are accounted for, and every pop
-- leaves exactly the unmatched ones.
def FramesRestored (ops : List (FrameOp φ)) : Prop :=
  ∀ earlier later state, ops = earlier ++ later → Run FrameHistory.Step .init earlier state →
    state.Accounted ∧ ∀ rest after, later = .pop :: rest → state.Step .pop after →
      PopRestores state.buf after.buf

theorem unpopped_of_popsAtZero {ops : List (FrameOp φ)} (h : PopsAtZero ops)
    {state : FrameHistory φ} (hrun : Run FrameHistory.Step .init ops state) : state.Unpopped := by
  -- by induction on the end of the sequence: the last step extends a shorter run
  induction ops using List.reverseRecOn generalizing state with
  | nil =>
      cases hrun
      exact ⟨rfl, rfl, List.nodup_nil⟩
  | append_singleton ops op ih =>
      obtain ⟨middle, hbefore, hlast⟩ := hrun.split
      have hmiddle := ih (fun earlier later other heq => h earlier (later ++ [op]) other (by
        simp [heq])) hbefore
      cases hlast with
      | cons hstep hrest =>
          cases hrest
          exact hmiddle.step (fun hop => h ops [] middle (by rw [hop]) hbefore) hstep

theorem framesRestored_iff (ops : List (FrameOp φ)) : FramesRestored ops ↔ PopsAtZero ops := by
  constructor
  · intro h earlier later state hops hrun
    have hle : state.buf.currentPos ≤ state.buf.frameBufSize := Run.invariant
      (fun state => state.buf.currentPos ≤ state.buf.frameBufSize)
      (fun _ _ _ hle hstep => FrameHistory.Step.currentPos_le hle hstep) hrun (Nat.le_refl 0)
    have hpop := (h earlier (.pop :: later) state hops hrun).2 later _ rfl (.pop state)
    have hsize := hpop.size
    have hstale := (FrameBuf.doPopFrames_size state.buf).1
    dsimp only at hsize
    omega
  · intro h earlier later state hops hrun
    have hunpopped := unpopped_of_popsAtZero (fun first rest other heq => h first (rest ++ later)
      other (by simp [hops, heq])) hrun
    refine ⟨by simp [FrameHistory.Accounted, hunpopped.discarded, hunpopped.contents], ?_⟩
    rintro rest after rfl hstep
    have hzero := h earlier rest state hops hrun
    cases hstep
    have hpop := FrameBuf.doPopFrames_of_zero hzero
    refine ⟨?_, ?_, ?_⟩
    · simp [hpop, hzero]
    · simp [hpop, hzero]
    · rw [hpop]
      exact hunpopped.distinct

-- One frame is pushed, matched and popped.
theorem matched_pop_not_restored :
    ¬∀ ops : List (FrameOp ℕ), FramesRestored ops := by
  intro h
  let buf : FrameBuf ℕ := ⟨Function.update (fun _ => none) 0 (some 7), 1, 0⟩
  let pushed : FrameHistory ℕ := ⟨buf, [7], []⟩
  let matched : FrameHistory ℕ := ⟨{ buf with currentPos := 1 }, [7], []⟩
  have hrun : Run FrameHistory.Step .init [.push 7, .matchFrames 1] matched :=
    .cons (.push .init 7 buf (by simp [FrameHistory.init]) rfl)
      (.cons (.matchFrames pushed 1 (by decide)) (.nil matched))
  have hpop := (h [.push 7, .matchFrames 1, .pop] _ [.pop] matched rfl hrun).2 [] _ rfl
    (.pop matched)
  cases hpop.size

end Gopher.L7
