import Gopher.Lib.Ring

namespace Gopher

open Gopher.Lib

variable {α : Type*}

-- `in` is a reserved word, so the two free-running counters are `inIdx` and `outIdx`.
structure Fifo (α : Type*) where
  buffer : List α
  size : UInt32
  inIdx : UInt32
  outIdx : UInt32

namespace Fifo

def isPowerOfTwo (n : UInt32) : Bool :=
  n != 0 && (n &&& (n - 1)) == 0

def fifoMin (x1 x2 : UInt32) : UInt32 :=
  if x1 < x2 then x1 else x2

-- `resources` says whether the two allocations and the eventfd are granted.
-- The default of `α` stands for the NULL pointer the buffer is cleared with.
def fifoCreate [Inhabited α] (resources : Bool) (size : UInt32) : Option (Fifo α) :=
  if !isPowerOfTwo size then none
  else if !resources then none
  else some {
    buffer := List.replicate size.toNat default
    size := size
    inIdx := 0
    outIdx := 0 }

-- Copy `len` pointers, at most one here, from the address of `element`.
def memcpy (buffer : List α) (offset : UInt32) (element : α) (len : UInt32) : List α :=
  if len = 0 then buffer else buffer.set offset.toNat element

def slot (fifo : Fifo α) (index : UInt32) : UInt32 :=
  index &&& (fifo.size - 1)

-- The three stages of a put: reading the indices, the two copies, the advance.
def putCount (fifo : Fifo α) : UInt32 :=
  fifoMin 1 (fifo.size - fifo.inIdx + fifo.outIdx)

def putCopy (fifo : Fifo α) (element : α) (len : UInt32) : Fifo α :=
  let len2 := fifoMin len (fifo.size - slot fifo fifo.inIdx)
  let buffer := memcpy fifo.buffer (slot fifo fifo.inIdx) element len2
  { fifo with buffer := memcpy buffer 0 element (len - len2) }

def putAdvance (fifo : Fifo α) (len : UInt32) : Fifo α :=
  { fifo with inIdx := fifo.inIdx + len }

def fifoPut (fifo : Fifo α) (element : α) : Fifo α × UInt32 :=
  let len := putCount fifo
  (putAdvance (putCopy fifo element len) len, if len = 0 then -1 else 0)

-- The three stages of a get. The caller's cell keeps its content when nothing is copied.
def getCount (fifo : Fifo α) : UInt32 :=
  fifoMin 1 (fifo.inIdx - fifo.outIdx)

def memcpyOut (fifo : Fifo α) (cell : α) (offset len : UInt32) : α :=
  if len = 0 then cell else fifo.buffer.getD offset.toNat cell

def getCopy (fifo : Fifo α) (cell : α) (len : UInt32) : α :=
  let len2 := fifoMin len (fifo.size - slot fifo fifo.outIdx)
  let cell := memcpyOut fifo cell (slot fifo fifo.outIdx) len2
  memcpyOut fifo cell 0 (len - len2)

def getAdvance (fifo : Fifo α) (len : UInt32) : Fifo α :=
  { fifo with outIdx := fifo.outIdx + len }

def fifoGet (fifo : Fifo α) (cell : α) : Fifo α × α × UInt32 :=
  let len := getCount fifo
  (getAdvance fifo len, getCopy fifo cell len, if len = 0 then -1 else 0)

inductive Call (α : Type*)
  | put (element : α)
  | get (cell : α)

-- One whole call and what its caller sees.
def Call.exec (fifo : Fifo α) : Call α → Fifo α × QueueEvent α
  | put element =>
      let (next, ret) := fifoPut fifo element
      (next, if ret = 0 then .putOk element else .putFull element)
  | get cell =>
      let (next, found, ret) := fifoGet fifo cell
      (next, if ret = 0 then .getOk found else .getEmpty)

def execAll (fifo : Fifo α) : List (Call α) → Fifo α × List (QueueEvent α)
  | [] => (fifo, [])
  | call :: calls =>
      let (next, event) := call.exec fifo
      let (last, events) := execAll next calls
      (last, event :: events)

inductive ProducerState (α : Type*)
  | idle
  | counted (element : α) (len : UInt32)
  | copied (element : α) (len : UInt32)

inductive ConsumerState (α : Type*)
  | idle
  | counted (cell : α) (len : UInt32)
  | copied (cell : α) (len : UInt32)

-- One producer and one consumer on the same queue, each between two of its stages.
structure Shared (α : Type*) where
  fifo : Fifo α
  producer : ProducerState α
  consumer : ConsumerState α

-- A call that finds no room, or no element, is decided when it reads the
-- indices; a call that succeeds is visible when it advances its own index.
inductive Shared.Step : Shared α → Option (QueueEvent α) → Shared α → Prop
  | putCount (fifo : Fifo α) (consumer : ConsumerState α) (element : α) :
      Step ⟨fifo, .idle, consumer⟩ (if putCount fifo = 0 then some (.putFull element) else none)
        ⟨fifo, .counted element (Fifo.putCount fifo), consumer⟩
  | putCopy (fifo : Fifo α) (consumer : ConsumerState α) (element : α) (len : UInt32) :
      Step ⟨fifo, .counted element len, consumer⟩ none
        ⟨Fifo.putCopy fifo element len, .copied element len, consumer⟩
  | putAdvance (fifo : Fifo α) (consumer : ConsumerState α) (element : α) (len : UInt32) :
      Step ⟨fifo, .copied element len, consumer⟩ (if len = 0 then none else some (.putOk element))
        ⟨Fifo.putAdvance fifo len, .idle, consumer⟩
  | getCount (fifo : Fifo α) (producer : ProducerState α) (cell : α) :
      Step ⟨fifo, producer, .idle⟩ (if getCount fifo = 0 then some .getEmpty else none)
        ⟨fifo, producer, .counted cell (Fifo.getCount fifo)⟩
  | getCopy (fifo : Fifo α) (producer : ProducerState α) (cell : α) (len : UInt32) :
      Step ⟨fifo, producer, .counted cell len⟩ none
        ⟨fifo, producer, .copied (Fifo.getCopy fifo cell len) len⟩
  | getAdvance (fifo : Fifo α) (producer : ProducerState α) (cell : α) (len : UInt32) :
      Step ⟨fifo, producer, .copied cell len⟩ (if len = 0 then none else some (.getOk cell))
        ⟨Fifo.getAdvance fifo len, producer, .idle⟩

end Fifo

end Gopher

namespace Gopher.Fifo

open Gopher.Lib

variable {α : Type*}

-- The fifo stores `queue`, oldest element at the slot of `outIdx`.
structure Rep (fifo : Fifo α) (queue : List α) : Prop where
  size_pow : ∃ k, fifo.size.toNat = 2 ^ k
  buffer_length : fifo.buffer.length = fifo.size.toNat
  count : (fifo.inIdx - fifo.outIdx).toNat = queue.length
  bound : queue.length ≤ fifo.size.toNat
  cells : ∀ i (hi : i < queue.length),
    fifo.buffer[(fifo.outIdx.toNat + i) % fifo.size.toNat]? = some queue[i]

theorem isPowerOfTwo_of_pow {n : UInt32} {k : ℕ} (hn : n.toNat = 2 ^ k) : isPowerOfTwo n = true := by
  have hone : (1 : UInt32) ≤ n := by
    rw [UInt32.le_iff_toNat_le, hn]
    exact Nat.one_le_two_pow
  have hand : n &&& (n - 1) = 0 := by
    apply UInt32.toNat_inj.mp
    rw [UInt32.toNat_and, UInt32.toNat_sub_of_le _ _ hone, hn, UInt32.toNat_one,
      Nat.and_two_pow_sub_one_eq_mod, Nat.mod_self]
    rfl
  have hzero : n ≠ 0 := by
    rintro rfl
    have := Nat.two_pow_pos k
    simp at hn
    omega
  simp [isPowerOfTwo, hzero, hand]

theorem slot_toNat {fifo : Fifo α} (hsize : ∃ k, fifo.size.toNat = 2 ^ k) (index : UInt32) :
    (slot fifo index).toNat = index.toNat % fifo.size.toNat := by
  obtain ⟨k, hk⟩ := hsize
  have hone : (1 : UInt32) ≤ fifo.size := by
    rw [UInt32.le_iff_toNat_le, hk]
    exact Nat.one_le_two_pow
  rw [slot, UInt32.toNat_and, UInt32.toNat_sub_of_le _ _ hone, hk]
  exact Nat.and_two_pow_sub_one_eq_mod _ _

theorem size_dvd {fifo : Fifo α} (hsize : ∃ k, fifo.size.toNat = 2 ^ k) :
    fifo.size.toNat ∣ 2 ^ 32 := by
  obtain ⟨k, hk⟩ := hsize
  have hlt := fifo.size.toNat_lt
  rw [hk] at hlt ⊢
  exact Nat.pow_dvd_pow 2 (Nat.pow_lt_pow_iff_right (by omega) |>.mp hlt).le

theorem size_pos {fifo : Fifo α} (hsize : ∃ k, fifo.size.toNat = 2 ^ k) :
    0 < fifo.size.toNat := by
  obtain ⟨k, hk⟩ := hsize
  rw [hk]
  exact Nat.two_pow_pos k

-- Wrapping the counter at `2 ^ 32` does not move its slot.
theorem slot_add {fifo : Fifo α} (hsize : ∃ k, fifo.size.toNat = 2 ^ k) (base len : UInt32) :
    (base + len).toNat % fifo.size.toNat = (base.toNat + len.toNat) % fifo.size.toNat := by
  rw [UInt32.toNat_add]
  exact Nat.mod_mod_of_dvd _ (size_dvd hsize)

theorem slot_succ {fifo : Fifo α} (hsize : ∃ k, fifo.size.toNat = 2 ^ k) (base : UInt32) (i : ℕ) :
    ((base + 1).toNat + i) % fifo.size.toNat = (base.toNat + (i + 1)) % fifo.size.toNat := by
  rw [Nat.add_mod, slot_add hsize, ← Nat.add_mod]
  congr 1
  simp only [UInt32.toNat_one]
  omega

theorem fifoMin_one (len room : UInt32) (hlen : len = 0 ∨ len = 1) (hroom : 0 < room.toNat) :
    fifoMin len room = len := by
  unfold fifoMin
  split_ifs with hlt
  · rfl
  · rcases hlen with rfl | rfl
    · rw [UInt32.lt_iff_toNat_lt] at hlt
      exact absurd hroom hlt
    · apply UInt32.toNat_inj.mp
      rw [UInt32.lt_iff_toNat_lt] at hlt
      have hone : (1 : UInt32).toNat = 1 := rfl
      omega

theorem fifoMin_cases (count : UInt32) :
    fifoMin 1 count = if count.toNat = 0 then 0 else 1 := by
  unfold fifoMin
  split_ifs with hlt hz hz
  · rw [UInt32.lt_iff_toNat_lt] at hlt
    have hone : (1 : UInt32).toNat = 1 := rfl
    omega
  · rfl
  · apply UInt32.toNat_inj.mp
    simpa using hz
  · apply UInt32.toNat_inj.mp
    rw [UInt32.lt_iff_toNat_lt] at hlt
    have hone : (1 : UInt32).toNat = 1 := rfl
    omega

namespace Rep

variable {fifo : Fifo α} {queue : List α}

theorem inIdx_eq (h : Rep fifo queue) :
    fifo.inIdx.toNat % fifo.size.toNat =
      (fifo.outIdx.toNat + queue.length) % fifo.size.toNat := by
  rw [← h.count, ← slot_add h.size_pow]
  congr 2
  grind

theorem room_toNat (h : Rep fifo queue) :
    (fifo.size - fifo.inIdx + fifo.outIdx).toNat = fifo.size.toNat - queue.length := by
  have he : fifo.size - fifo.inIdx + fifo.outIdx = fifo.size - (fifo.inIdx - fifo.outIdx) := by
    grind
  have hle : fifo.inIdx - fifo.outIdx ≤ fifo.size := by
    rw [UInt32.le_iff_toNat_le, h.count]
    exact h.bound
  rw [he, UInt32.toNat_sub_of_le _ _ hle, h.count]

theorem putCount_eq (h : Rep fifo queue) :
    putCount fifo = if queue.length = fifo.size.toNat then 0 else 1 := by
  have hb := h.bound
  rw [putCount, fifoMin_cases, h.room_toNat]
  split_ifs <;> first | rfl | omega

theorem getCount_eq (h : Rep fifo queue) :
    getCount fifo = if queue = [] then 0 else 1 := by
  rw [getCount, fifoMin_cases, h.count]
  simp only [List.length_eq_zero_iff]

theorem slot_room (h : Rep fifo queue) (index : UInt32) :
    0 < (fifo.size - slot fifo index).toNat := by
  have hlt : (slot fifo index).toNat < fifo.size.toNat := by
    rw [slot_toNat h.size_pow]
    exact Nat.mod_lt _ (size_pos h.size_pow)
  rw [UInt32.toNat_sub_of_le _ _ (UInt32.le_iff_toNat_le.mpr hlt.le)]
  omega

-- The second copy of a put never moves anything: the slot is inside the buffer.
theorem putCopy_eq (h : Rep fifo queue) (element : α) (len : UInt32) (hlen : len = 0 ∨ len = 1) :
    putCopy fifo element len =
      { fifo with buffer := if len = 0 then fifo.buffer else
          fifo.buffer.set (fifo.inIdx.toNat % fifo.size.toNat) element } := by
  simp only [putCopy, fifoMin_one len _ hlen (h.slot_room _), UInt32.sub_self, memcpy, ite_true,
    slot_toNat h.size_pow]

theorem getCopy_head {element : α} (h : Rep fifo (element :: queue)) (cell : α) :
    getCopy fifo cell 1 = element := by
  have hcell := h.cells 0 (by simp)
  simp only [Nat.add_zero, List.getElem_cons_zero] at hcell
  simp [getCopy, fifoMin_one 1 _ (.inr rfl) (h.slot_room _), memcpyOut, slot_toNat h.size_pow, hcell]

theorem putCopy (h : Rep fifo queue) (element : α) (len : UInt32)
    (hlen : len = 0 ∨ len = 1 ∧ queue.length < fifo.size.toNat) :
    Rep (putCopy fifo element len) queue := by
  rw [h.putCopy_eq element len (hlen.imp_right And.left)]
  refine ⟨h.size_pow, ?_, h.count, h.bound, ?_⟩
  · split_ifs <;> simp [h.buffer_length]
  · rcases hlen with rfl | ⟨rfl, hroom⟩
    · exact h.cells
    · intro i hi
      have hne := Ring.slot_ne fifo.outIdx.toNat (hi.trans_le h.bound) hroom hi.ne
      rw [← h.inIdx_eq] at hne
      simpa [List.getElem?_set_ne hne.symm] using h.cells i hi

theorem putAdvance (h : Rep fifo queue) (element : α) (hroom : queue.length < fifo.size.toNat)
    (hcell : fifo.buffer[fifo.inIdx.toNat % fifo.size.toNat]? = some element) :
    Rep (putAdvance fifo 1) (queue ++ [element]) := by
  refine ⟨h.size_pow, h.buffer_length, ?_, ?_, ?_⟩
  · have he : fifo.inIdx + 1 - fifo.outIdx = (fifo.inIdx - fifo.outIdx) + 1 := by grind
    have hlt := fifo.size.toNat_lt
    simp only [Fifo.putAdvance, he, UInt32.toNat_add, h.count, List.length_append,
      List.length_singleton, UInt32.toNat_one]
    exact Nat.mod_eq_of_lt (by omega)
  · simp only [Fifo.putAdvance, List.length_append, List.length_singleton]
    omega
  · intro i hi
    by_cases hold : i < queue.length
    · simpa [Fifo.putAdvance, List.getElem_append_left hold] using h.cells i hold
    · have hlast : i = queue.length := by simp at hi; omega
      subst hlast
      rw [h.inIdx_eq] at hcell
      simpa [Fifo.putAdvance] using hcell

theorem getAdvance {element : α} (h : Rep fifo (element :: queue)) :
    Rep (getAdvance fifo 1) queue := by
  have hbound := h.bound
  have hcount := h.count
  rw [List.length_cons] at hbound hcount
  refine ⟨h.size_pow, h.buffer_length, ?_, by simp only [Fifo.getAdvance]; omega, ?_⟩
  · have he : fifo.inIdx - (fifo.outIdx + 1) = (fifo.inIdx - fifo.outIdx) - 1 := by grind
    have hone : (1 : UInt32) ≤ fifo.inIdx - fifo.outIdx := by
      rw [UInt32.le_iff_toNat_le, hcount]
      simp
    simp only [Fifo.getAdvance, he, UInt32.toNat_sub_of_le _ _ hone, hcount]
    simp
  · intro i hi
    have hcell := h.cells (i + 1) (by simpa using hi)
    rw [← slot_succ h.size_pow] at hcell
    simpa [Fifo.getAdvance] using hcell

theorem nil_of_create [Inhabited α] {resources : Bool} {size : UInt32} {k : ℕ}
    (hsize : size.toNat = 2 ^ k) (hcreate : fifoCreate resources size = some fifo) :
    Rep fifo ([] : List α) ∧ fifo.size = size := by
  have hpow := isPowerOfTwo_of_pow hsize
  cases resources with
  | false => simp [fifoCreate, hpow] at hcreate
  | true =>
      simp only [fifoCreate, hpow, Bool.not_true, Bool.false_eq_true, ite_false,
        Option.some.injEq] at hcreate
      subst hcreate
      exact ⟨⟨⟨k, hsize⟩, by simp, by simp, by simp, by simp⟩, rfl⟩

end Rep

@[simp] theorem putCopy_size (fifo : Fifo α) (element : α) (len : UInt32) :
    (putCopy fifo element len).size = fifo.size := rfl

@[simp] theorem putAdvance_size (fifo : Fifo α) (len : UInt32) :
    (putAdvance fifo len).size = fifo.size := rfl

@[simp] theorem getAdvance_size (fifo : Fifo α) (len : UInt32) :
    (getAdvance fifo len).size = fifo.size := rfl

@[simp] theorem putAdvance_zero (fifo : Fifo α) : putAdvance fifo 0 = fifo := by
  simp [putAdvance]

@[simp] theorem getAdvance_zero (fifo : Fifo α) : getAdvance fifo 0 = fifo := by
  simp [getAdvance]

-- After the copy of a put the new element waits in the slot of `inIdx`.
theorem Rep.putCopy_cell {fifo : Fifo α} {queue : List α} (h : Rep fifo queue) (element : α) :
    (Fifo.putCopy fifo element 1).buffer[fifo.inIdx.toNat % fifo.size.toNat]? = some element := by
  rw [h.putCopy_eq element 1 (.inr rfl)]
  simp [h.buffer_length, Nat.mod_lt _ (size_pos h.size_pow)]

theorem failed_ne_zero : (-1 : UInt32) ≠ 0 := by decide

theorem fifoPut_refines {fifo : Fifo α} {queue : List α} (h : Rep fifo queue) (element : α) :
    ∃ next, QueueStep fifo.size.toNat queue (Call.exec fifo (.put element)).2 next ∧
      Rep (Call.exec fifo (.put element)).1 next := by
  by_cases hfull : queue.length = fifo.size.toNat
  · have hcount : putCount fifo = 0 := by simp [h.putCount_eq, hfull]
    refine ⟨queue, ?_, ?_⟩
    · simpa [Call.exec, fifoPut, hcount, failed_ne_zero] using QueueStep.putFull queue element hfull
    · simpa [Call.exec, fifoPut, hcount] using h.putCopy element 0 (.inl rfl)
  · have hroom := Nat.lt_of_le_of_ne h.bound hfull
    have hcount : putCount fifo = 1 := by simp [h.putCount_eq, hfull]
    refine ⟨queue ++ [element], ?_, ?_⟩
    · simpa [Call.exec, fifoPut, hcount] using QueueStep.putOk queue element hroom
    · have hput := (h.putCopy element 1 (.inr ⟨rfl, hroom⟩)).putAdvance element hroom
        (h.putCopy_cell element)
      simpa [Call.exec, fifoPut, hcount] using hput

theorem fifoGet_refines {fifo : Fifo α} {queue : List α} (h : Rep fifo queue) (cell : α) :
    ∃ next, QueueStep fifo.size.toNat queue (Call.exec fifo (.get cell)).2 next ∧
      Rep (Call.exec fifo (.get cell)).1 next := by
  cases queue with
  | nil =>
      have hcount : getCount fifo = 0 := by simp [h.getCount_eq]
      refine ⟨[], ?_, ?_⟩
      · simpa [Call.exec, fifoGet, hcount, failed_ne_zero] using QueueStep.getEmpty
      · simpa [Call.exec, fifoGet, hcount] using h
  | cons element queue =>
      have hcount : getCount fifo = 1 := by simp [h.getCount_eq]
      refine ⟨queue, ?_, ?_⟩
      · simpa [Call.exec, fifoGet, hcount, h.getCopy_head] using QueueStep.getOk queue element
      · simpa [Call.exec, fifoGet, hcount] using h.getAdvance

theorem exec_size (fifo : Fifo α) (call : Call α) : (call.exec fifo).1.size = fifo.size := by
  cases call <;> rfl

theorem execAll_refines {fifo : Fifo α} {queue : List α} (h : Rep fifo queue)
    (calls : List (Call α)) :
    ∃ next, Run (QueueStep fifo.size.toNat) queue (execAll fifo calls).2 next ∧
      Rep (execAll fifo calls).1 next := by
  induction calls generalizing fifo queue with
  | nil => exact ⟨queue, .nil queue, h⟩
  | cons call calls ih =>
      obtain ⟨middle, hstep, hrep⟩ : ∃ middle,
          QueueStep fifo.size.toNat queue (call.exec fifo).2 middle ∧
            Rep (call.exec fifo).1 middle := by
        cases call with
        | put element => exact fifoPut_refines h element
        | get cell => exact fifoGet_refines h cell
      obtain ⟨next, hrun, hnext⟩ := ih hrep
      rw [exec_size] at hrun
      exact ⟨next, .cons hstep hrun, hnext⟩

theorem execAll_size (fifo : Fifo α) (calls : List (Call α)) :
    (execAll fifo calls).1.size = fifo.size := by
  induction calls generalizing fifo with
  | nil => rfl
  | cons call calls ih => exact (ih _).trans (exec_size fifo call)

-- What each party has already established about the queue between its stages.
def ProducerState.Holds (fifo : Fifo α) (queue : List α) : ProducerState α → Prop
  | idle => True
  | counted _ len => len = 0 ∨ len = 1 ∧ queue.length < fifo.size.toNat
  | copied element len => len = 0 ∨ len = 1 ∧ queue.length < fifo.size.toNat ∧
      fifo.buffer[fifo.inIdx.toNat % fifo.size.toNat]? = some element

def ConsumerState.Holds (queue : List α) : ConsumerState α → Prop
  | idle => True
  | counted _ len => len = 0 ∨ len = 1 ∧ queue ≠ []
  | copied cell len => len = 0 ∨ len = 1 ∧ queue.head? = some cell

structure Shared.Rel (size : UInt32) (shared : Shared α) (queue : List α) : Prop where
  size_eq : shared.fifo.size = size
  rep : Rep shared.fifo queue
  producer : shared.producer.Holds shared.fifo queue
  consumer : shared.consumer.Holds queue

namespace Shared

variable {size : UInt32} {before after : Shared α} {queue : List α}

theorem step_cases {label : Option (QueueEvent α)} (h : Rel size before queue)
    (hstep : Step before label after) :
    (label = none ∧ Rel size after queue) ∨
      ∃ event next, label = some event ∧ QueueStep size.toNat queue event next ∧
        Rel size after next := by
  obtain ⟨rfl, hrep, hp, hc⟩ := h
  cases hstep with
  | putCount fifo consumer element =>
      rw [hrep.putCount_eq]
      by_cases hfull : queue.length = fifo.size.toNat
      · right
        refine ⟨.putFull element, queue, by simp [hfull], .putFull queue element hfull, ?_⟩
        exact ⟨rfl, hrep, by simp [ProducerState.Holds, hfull], hc⟩
      · left
        have hroom := Nat.lt_of_le_of_ne hrep.bound hfull
        refine ⟨by simp [hfull], rfl, hrep, ?_, hc⟩
        simp [ProducerState.Holds, hfull, hroom]
  | putCopy fifo consumer element len =>
      left
      refine ⟨rfl, rfl, hrep.putCopy element len hp, ?_, hc⟩
      rcases hp with rfl | ⟨rfl, hroom⟩
      · exact .inl rfl
      · exact .inr ⟨rfl, hroom, hrep.putCopy_cell element⟩
  | putAdvance fifo consumer element len =>
      rcases hp with rfl | ⟨rfl, hroom, hcell⟩
      · left
        exact ⟨rfl, by simp, by simpa using hrep, trivial, hc⟩
      · right
        refine ⟨.putOk element, queue ++ [element], by simp, .putOk queue element hroom, ?_⟩
        refine ⟨by simp, hrep.putAdvance element hroom hcell, trivial, ?_⟩
        cases consumer with
        | idle => trivial
        | counted cell len => exact hc.imp_right (And.imp_right (by simp))
        | copied cell len => exact hc.imp_right (And.imp_right (by cases queue <;> simp))
  | getCount fifo producer cell =>
      rw [hrep.getCount_eq]
      by_cases hnil : queue = []
      · right
        subst hnil
        refine ⟨.getEmpty, [], by simp, .getEmpty, rfl, hrep, hp, ?_⟩
        simp [ConsumerState.Holds]
      · left
        exact ⟨by simp [hnil], rfl, hrep, hp, by simp [ConsumerState.Holds, hnil]⟩
  | getCopy fifo producer cell len =>
      left
      refine ⟨rfl, rfl, hrep, hp, ?_⟩
      rcases hc with rfl | ⟨rfl, hne⟩
      · exact .inl rfl
      · obtain ⟨element, rest, rfl⟩ := List.exists_cons_of_ne_nil hne
        exact .inr ⟨rfl, by simp [hrep.getCopy_head]⟩
  | getAdvance fifo producer cell len =>
      rcases hc with rfl | ⟨rfl, hhead⟩
      · left
        exact ⟨rfl, by simp, by simpa using hrep, by simpa using hp, trivial⟩
      · right
        obtain ⟨rest, rfl⟩ := List.head?_eq_some_iff.mp hhead
        refine ⟨.getOk cell, rest, by simp, .getOk rest cell, by simp, hrep.getAdvance, ?_, trivial⟩
        -- a slot freed by the consumer only adds room for the producer
        cases producer with
        | idle => trivial
        | counted element len =>
            exact hp.imp_right (And.imp_right fun hroom => Nat.lt_of_succ_lt hroom)
        | copied element len =>
            exact hp.imp_right (And.imp_right (And.imp_left fun hroom => Nat.lt_of_succ_lt hroom))

theorem run_refines {labels : List (Option (QueueEvent α))} (h : Rel size before queue)
    (hrun : Run Step before labels after) :
    ∃ next, Run (QueueStep size.toNat) queue labels.reduceOption next ∧ Rel size after next := by
  refine Run.simulate (Rel size) ?_ ?_ hrun queue h
  · intro before after state hrel hstep
    obtain ⟨-, hnext⟩ | ⟨event, next, hlabel, -⟩ := step_cases hrel hstep
    · exact hnext
    · cases hlabel
  · intro before event after state hrel hstep
    obtain ⟨hlabel, -⟩ | ⟨_, next, hlabel, hqueue, hnext⟩ := step_cases hrel hstep
    · cases hlabel
    · cases hlabel
      exact ⟨next, hqueue, hnext⟩

end Shared

-- Both for whole calls and for interleaved stages the fifo runs a bounded queue:
-- every result, visible in the events, is one that queue allows, what was
-- accepted is what was delivered followed by what is stored, and the counters
-- stay within `size` of each other.
theorem fifo_refines_queue [Inhabited α] (size : UInt32) (k : ℕ) (hsize : size.toNat = 2 ^ k) :
    ∃ fifo : Fifo α, fifoCreate true size = some fifo ∧
      (∀ calls, ∃ queue, Run (QueueStep size.toNat) [] (execAll fifo calls).2 queue ∧
        (execAll fifo calls).2.filterMap QueueEvent.accepted =
          (execAll fifo calls).2.filterMap QueueEvent.delivered ++ queue ∧
        ((execAll fifo calls).1.inIdx - (execAll fifo calls).1.outIdx).toNat = queue.length ∧
        queue.length ≤ size.toNat) ∧
      (∀ labels last, Run Shared.Step ⟨fifo, .idle, .idle⟩ labels last →
        ∃ queue, Run (QueueStep size.toNat) [] labels.reduceOption queue ∧
          labels.reduceOption.filterMap QueueEvent.accepted =
            labels.reduceOption.filterMap QueueEvent.delivered ++ queue ∧
          (last.fifo.inIdx - last.fifo.outIdx).toNat = queue.length ∧
          queue.length ≤ size.toNat) := by
  have hcreate : ∃ fifo : Fifo α, fifoCreate true size = some fifo := by
    simp [fifoCreate, isPowerOfTwo_of_pow hsize]
  obtain ⟨fifo, hfifo⟩ := hcreate
  obtain ⟨hrep, rfl⟩ := Rep.nil_of_create hsize hfifo
  refine ⟨fifo, hfifo, ?_, ?_⟩
  · intro calls
    obtain ⟨queue, hrun, hqueue⟩ := execAll_refines hrep calls
    have hbound := hqueue.bound
    rw [execAll_size] at hbound
    exact ⟨queue, hrun, by simpa using QueueStep.conservation hrun, hqueue.count, hbound⟩
  · intro labels last hlast
    have hstart : Shared.Rel fifo.size ⟨fifo, .idle, .idle⟩ [] := ⟨rfl, hrep, trivial, trivial⟩
    obtain ⟨queue, hrun, hqueue⟩ := Shared.run_refines hstart hlast
    have hbound := hqueue.rep.bound
    rw [hqueue.size_eq] at hbound
    exact ⟨queue, hrun, by simpa using QueueStep.conservation hrun, hqueue.rep.count, hbound⟩

-- The capacity every probe queue is created with.
theorem fifo_refines_queue_1024 :
    ∃ fifo : Fifo ℕ, fifoCreate true 1024 = some fifo ∧
      ∀ calls, ∃ queue, Run (QueueStep 1024) [] (execAll fifo calls).2 queue := by
  obtain ⟨fifo, hfifo, hcalls, -⟩ := @fifo_refines_queue ℕ _ 1024 10 rfl
  exact ⟨fifo, hfifo, fun calls => ⟨_, (hcalls calls).choose_spec.1⟩⟩

end Gopher.Fifo
