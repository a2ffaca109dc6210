import Gopher.Lib.Run
import Mathlib.Data.Nat.ModEq

namespace Gopher.Lib

variable {α : Type*}

inductive QueueEvent (α : Type*)
  | putOk (element : α)
  | putFull (element : α)
  | getOk (element : α)
  | getEmpty
  deriving DecidableEq, Repr

-- A first-in first-out queue of at most `capacity` elements, oldest first.
inductive QueueStep (capacity : ℕ) : List α → QueueEvent α → List α → Prop
  | putOk (queue : List α) (element : α) (hroom : queue.length < capacity) :
      QueueStep capacity queue (.putOk element) (queue ++ [element])
  | putFull (queue : List α) (element : α) (hfull : queue.length = capacity) :
      QueueStep capacity queue (.putFull element) queue
  | getOk (queue : List α) (element : α) :
      QueueStep capacity (element :: queue) (.getOk element) queue
  | getEmpty : QueueStep capacity [] .getEmpty []

def QueueEvent.accepted : QueueEvent α → Option α
  | putOk element => some element
  | _ => none

def QueueEvent.delivered : QueueEvent α → Option α
  | getOk element => some element
  | _ => none

-- Nothing is lost, duplicated or reordered: what was accepted is what was
-- delivered followed by what is still stored.
theorem QueueStep.conservation {capacity : ℕ} {first last : List α} {events : List (QueueEvent α)}
    (hrun : Run (QueueStep capacity) first events last) :
    first ++ events.filterMap QueueEvent.accepted =
      events.filterMap QueueEvent.delivered ++ last := by
  induction hrun with
  | nil => simp
  | cons hstep _ ih =>
      cases hstep with
      | putOk queue element hroom =>
          simpa [List.filterMap_cons, QueueEvent.accepted, QueueEvent.delivered] using ih
      | putFull queue element hfull =>
          simpa [List.filterMap_cons, QueueEvent.accepted, QueueEvent.delivered] using ih
      | getOk queue element =>
          simpa [List.filterMap_cons, QueueEvent.accepted, QueueEvent.delivered] using ih
      | getEmpty => simpa [List.filterMap_cons, QueueEvent.accepted, QueueEvent.delivered] using ih

end Gopher.Lib

namespace Gopher.Lib.Ring

variable {α : Type*}

-- Two stored elements never share a slot.
theorem slot_ne (base : ℕ) {size i j : ℕ} (hi : i < size) (hj : j < size) (hne : i ≠ j) :
    (base + i) % size ≠ (base + j) % size := by
  intro he
  have hmod : Nat.ModEq size i j := Nat.ModEq.add_left_cancel' base he
  exact hne (Nat.ModEq.eq_of_lt_of_lt hmod hi hj)

-- Back at the same slot: no step or a whole round.
theorem add_mod_eq_self_iff {size base count : ℕ} (hbase : base < size) (hcount : count ≤ size) :
    (base + count) % size = base ↔ count = 0 ∨ count = size := by
  by_cases hwrap : base + count < size
  · rw [Nat.mod_eq_of_lt hwrap]
    omega
  · rw [Nat.mod_eq_sub_mod (by omega), Nat.mod_eq_of_lt (by omega)]
    omega

-- The elements stored from the slot `front` on, oldest first.
def Cells (cells : ℕ → Option α) (size front : ℕ) (ring : List α) : Prop :=
  ∀ i (hi : i < ring.length), cells ((front + i) % size) = some ring[i]

variable {cells after : ℕ → Option α} {size front : ℕ} {ring : List α} {element : α}

theorem cells_nil : Cells cells size front [] := by
  intro i hi
  simp at hi

theorem Cells.head (h : Cells cells size front (element :: ring)) (hfront : front < size) :
    cells front = some element := by
  have hcell := h 0 (by simp)
  rwa [Nat.add_zero, Nat.mod_eq_of_lt hfront] at hcell

theorem Cells.put (h : Cells cells size front ring) (hroom : ring.length < size)
    (hsame : ∀ i, i ≠ (front + ring.length) % size → after i = cells i)
    (hnew : after ((front + ring.length) % size) = some element) :
    Cells after size front (ring ++ [element]) := by
  intro i hi
  rw [List.length_append, List.length_singleton] at hi
  by_cases hold : i < ring.length
  · rw [List.getElem_append_left hold, hsame _ (slot_ne front (by omega) hroom (by omega))]
    exact h i hold
  · have hlast : i = ring.length := by omega
    subst hlast
    rw [hnew, List.getElem_concat_length rfl]

theorem Cells.get (h : Cells cells size front (element :: ring)) (hfront : front < size)
    (hroom : ring.length + 1 ≤ size) (hsame : ∀ i, i ≠ front → after i = cells i) :
    Cells after size ((front + 1) % size) ring := by
  intro i hi
  have hslot : ((front + 1) % size + i) % size = (front + (i + 1)) % size := by
    rw [Nat.mod_add_mod]
    congr 1
    omega
  have hne : (front + (i + 1)) % size ≠ front := by
    intro heq
    have hround := (add_mod_eq_self_iff hfront (by omega)).mp heq
    omega
  rw [hslot, hsame _ hne]
  exact h (i + 1) (by simpa using hi)

end Gopher.Lib.Ring
