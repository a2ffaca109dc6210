import Gopher.Lib.Ownership
import Gopher.Lib.Run
import Gopher.Probe.Snooper.Sections
import Mathlib.Data.List.FinRange
import Mathlib.Logic.Equiv.Basic

-- The array of the configurations as it stands in memory, with the pointers in its slots.

namespace Gopher.Probe.ConfArray

open Gopher.Lib Gopher.Ipc

abbrev Ptr := ℕ
abbrev Heap := Ptr → Option SnooperConf

-- What is given is not in use.
structure Malloc where
  grant : Heap → Option Ptr
  fresh : ∀ heap ptr, grant heap = some ptr → heap ptr = none

-- The fields of `struct probe_s`.
structure ProbeS where
  snooperConfNum : ℕ
  snooperConfs : Fin SNOOPER_MAX → Option Ptr

def zeroProbe : ProbeS := ⟨0, fun _ => none⟩

-- A probe, or a backup of one, is known by its address. Where there is none, the fields
-- are taken to be zero.
structure Memory (ι : Type*) where
  heap : Heap
  probes : ι → ProbeS

section Functions

variable {ι : Type*} [DecidableEq ι]

def setProbe (id : ι) (probe : ProbeS) (memory : Memory ι) : Memory ι :=
  { memory with probes := Function.update memory.probes id probe }

def setConf (id : ι) (i : Fin SNOOPER_MAX) (conf : Option Ptr) (memory : Memory ι) : Memory ι :=
  let probe := memory.probes id
  setProbe id { probe with snooperConfs := Function.update probe.snooperConfs i conf } memory

def setConfNum (id : ι) (num : ℕ) (memory : Memory ι) : Memory ι :=
  setProbe id { memory.probes id with snooperConfNum := num } memory

def freeSnooperConf (conf : Option Ptr) (memory : Memory ι) : Memory ι :=
  { memory with heap := free conf memory.heap }

-- A slot is freed and set to NULL.
def freeSlot (id : ι) (memory : Memory ι) (i : Fin SNOOPER_MAX) : Memory ι :=
  setConf id i none (freeSnooperConf ((memory.probes id).snooperConfs i) memory)

-- What the functions for the types of a configuration have in common. There is nothing to
-- add for an empty name.
def addSnooperConf (malloc : Malloc) (id : ι) (conf : Option SnooperConf) (memory : Memory ι) :
    Option (Memory ι) :=
  let num := (memory.probes id).snooperConfNum
  if hroom : num < SNOOPER_MAX then
    match conf with
    | none => some memory
    | some conf =>
        match malloc.grant memory.heap with
        | none => none
        | some ptr =>
            let memory := { memory with heap := Function.update memory.heap ptr (some conf) }
            let memory := freeSlot id memory ⟨num, hroom⟩
            let memory := setConf id ⟨num, hroom⟩ (some ptr) memory
            some (setConfNum id (num + 1) memory)
  else none

-- The loop over the objects of a section. What was added before a failure stays.
def addEach (malloc : Malloc) (id : ι) (read : Json → Option (Option SnooperConf)) :
    List Json → Memory ι → Memory ι × Bool
  | [], memory => (memory, true)
  | object :: objects, memory =>
      match (read object).bind fun conf => addSnooperConf malloc id conf memory with
      | none => (memory, false)
      | some memory => addEach malloc id read objects memory

def parseSections (malloc : Malloc) (id : ι) (json : Json) :
    List SnooperSection → Memory ι → Memory ι × Result
  | [], memory => (memory, .ok)
  | sect :: sections, memory =>
      match addEach malloc id sect.read (sect.items json) memory with
      | (memory, false) =>
          (memory, .error (some ("Error occurs when parsing snooper ".toList ++ sect.name)))
      | (memory, true) => parseSections malloc id json sections memory

-- The loop `i < snooper_conf_num`.
def freeConfs (id : ι) (memory : Memory ι) : Memory ι :=
  ((List.finRange SNOOPER_MAX).take (memory.probes id).snooperConfNum).foldl (freeSlot id) memory

def parseSnooper (malloc : Malloc) (id : ι) (json : Json) (memory : Memory ι) :
    Memory ι × Result :=
  parseSections malloc id json SnooperSection.all (setConfNum id 0 (freeConfs id memory))

-- The array moves to the backup. The number is copied, and stays.
def backupSnooper (id backup : ι) (memory : Memory ι) : Memory ι :=
  let memory := setConfNum backup (memory.probes id).snooperConfNum memory
  let memory := setProbe backup
    { memory.probes backup with snooperConfs := (memory.probes id).snooperConfs } memory
  setProbe id { memory.probes id with snooperConfs := fun _ => none } memory

def rollbackSlot (id backup : ι) (memory : Memory ι) (i : Fin SNOOPER_MAX) : Memory ι :=
  let memory := freeSnooperConf ((memory.probes id).snooperConfs i) memory
  let memory := setConf id i ((memory.probes backup).snooperConfs i) memory
  setConf backup i none memory

def rollbackSnooper (id backup : ι) (memory : Memory ι) : Memory ι :=
  let memory := (List.finRange SNOOPER_MAX).foldl (rollbackSlot id backup) memory
  let memory := setConfNum id (memory.probes backup).snooperConfNum memory
  setConfNum backup 0 memory

-- The memory of the probe is given back, with what its other slots may point to.
def destroyProbe (id : ι) (memory : Memory ι) : Memory ι :=
  setProbe id zeroProbe (setConfNum id 0 (freeConfs id memory))

inductive Op (ι : Type*)
  | newProbe (id : ι)
  | parseSnooper (malloc : Malloc) (id : ι) (json : Json)
  | backupSnooper (id backup : ι)
  | rollbackSnooper (id backup : ι)
  | destroyProbe (id : ι)

def step (memory : Memory ι) : Op ι → Memory ι
  | .newProbe id => setProbe id zeroProbe memory
  | .parseSnooper malloc id json => (parseSnooper malloc id json memory).1
  | .backupSnooper id backup => backupSnooper id backup memory
  | .rollbackSnooper id backup => rollbackSnooper id backup memory
  | .destroyProbe id => destroyProbe id memory

def initial : Memory ι := ⟨fun _ => none, fun _ => zeroProbe⟩

end Functions

variable {ι : Type*}

def Memory.slots (memory : Memory ι) (slot : ι × Fin SNOOPER_MAX) : Option Ptr :=
  (memory.probes slot.1).snooperConfs slot.2

def Memory.num (memory : Memory ι) (id : ι) : ℕ := (memory.probes id).snooperConfNum

-- The number is a number of slots, and nothing stands behind them.
structure Tidy (memory : Memory ι) (id : ι) : Prop where
  bound : memory.num id ≤ SNOOPER_MAX
  above : ∀ i : Fin SNOOPER_MAX, memory.num id ≤ i.val → memory.slots (id, i) = none

-- In addition, no slot in front of the number is NULL.
structure Packed (memory : Memory ι) (id : ι) : Prop extends Tidy memory id where
  below : ∀ i : Fin SNOOPER_MAX, i.val < memory.num id → memory.slots (id, i) ≠ none

-- What has to hold of all probes and backups.
structure ConfArrays (memory : Memory ι) : Prop where
  packed : ∀ id, Packed memory id
  separate : Separate memory.slots memory.heap

variable {memory after last : Memory ι} {id other source : ι}

theorem Tidy.of_eq (h : Tidy memory source) (hnum : after.num id = memory.num source)
    (hslots : ∀ i, after.slots (id, i) = memory.slots (source, i)) : Tidy after id where
  bound := by
    rw [hnum]
    exact h.bound
  above i hi := by
    rw [hnum] at hi
    rw [hslots]
    exact h.above i hi

theorem Packed.of_eq (h : Packed memory source) (hnum : after.num id = memory.num source)
    (hslots : ∀ i, after.slots (id, i) = memory.slots (source, i)) : Packed after id where
  toTidy := h.toTidy.of_eq hnum hslots
  below i hi := by
    rw [hnum] at hi
    rw [hslots]
    exact h.below i hi

-- A probe without configurations.
theorem packed_of_zero (hnum : memory.num id = 0) (hslots : ∀ i, memory.slots (id, i) = none) :
    Packed memory id where
  bound := by
    rw [hnum]
    exact Nat.zero_le _
  above i _ := hslots i
  below i hi := by
    rw [hnum] at hi
    exact absurd hi (Nat.not_lt_zero _)

-- What the functions that add to a probe keep.
structure Grown (id : ι) (before after : Memory ι) : Prop where
  separate : Separate before.slots before.heap → Separate after.slots after.heap
  packed : Packed before id → Packed after id
  nums : ∀ other ≠ id, after.num other = before.num other
  slots : ∀ other ≠ id, ∀ i, after.slots (other, i) = before.slots (other, i)

theorem Grown.refl (memory : Memory ι) : Grown id memory memory :=
  ⟨fun h => h, fun h => h, fun _ _ => rfl, fun _ _ _ => rfl⟩

theorem Grown.trans (hfirst : Grown id memory after) (hsecond : Grown id after last) :
    Grown id memory last where
  separate h := hsecond.separate (hfirst.separate h)
  packed h := hsecond.packed (hfirst.packed h)
  nums other hne := (hsecond.nums other hne).trans (hfirst.nums other hne)
  slots other hne i := (hsecond.slots other hne i).trans (hfirst.slots other hne i)

-- What holds in every run.
structure Inv (memory : Memory ι) : Prop where
  tidy : ∀ id, Tidy memory id
  separate : Separate memory.slots memory.heap

theorem ConfArrays.inv (h : ConfArrays memory) : Inv memory :=
  ⟨fun id => (h.packed id).toTidy, h.separate⟩

theorem confArrays_initial : ConfArrays (initial : Memory ι) where
  packed _ := packed_of_zero rfl fun _ => rfl
  separate := .of_none fun _ => rfl

variable [DecidableEq ι] {i : Fin SNOOPER_MAX}

section Access

theorem slots_setProbe (probe : ProbeS) (slot : ι × Fin SNOOPER_MAX) :
    (setProbe id probe memory).slots slot =
      if slot.1 = id then probe.snooperConfs slot.2 else memory.slots slot := by
  change (Function.update memory.probes id probe slot.1).snooperConfs slot.2 = _
  split_ifs with heq
  · rw [heq, Function.update_self]
  · rw [Function.update_of_ne heq]
    rfl

theorem num_setProbe (probe : ProbeS) :
    (setProbe id probe memory).num other =
      if other = id then probe.snooperConfNum else memory.num other := by
  change (Function.update memory.probes id probe other).snooperConfNum = _
  split_ifs with heq
  · rw [heq, Function.update_self]
  · rw [Function.update_of_ne heq]
    rfl

@[simp] theorem slots_setConf (conf : Option Ptr) :
    (setConf id i conf memory).slots = Function.update memory.slots (id, i) conf := by
  funext ⟨other, j⟩
  rw [setConf, slots_setProbe]
  dsimp only
  simp only [Function.update_apply, Prod.mk.injEq]
  by_cases heq : other = id
  · simp only [heq, if_true, true_and]
    rfl
  · rw [if_neg heq, if_neg fun h => heq h.1]

theorem num_setConfs (confs : Fin SNOOPER_MAX → Option Ptr) :
    (setProbe id { memory.probes id with snooperConfs := confs } memory).num = memory.num := by
  funext other
  rw [num_setProbe]
  split_ifs with heq
  · rw [heq]
    rfl
  · rfl

@[simp] theorem num_setConf (conf : Option Ptr) : (setConf id i conf memory).num = memory.num :=
  num_setConfs _

@[simp] theorem slots_setConfNum (num : ℕ) : (setConfNum id num memory).slots = memory.slots := by
  funext slot
  rw [setConfNum, slots_setProbe]
  split_ifs with heq
  · rw [← heq]
    rfl
  · rfl

@[simp] theorem num_setConfNum (num : ℕ) :
    (setConfNum id num memory).num = Function.update memory.num id num := by
  funext other
  rw [setConfNum, num_setProbe, Function.update_apply]

@[simp] theorem heap_setConfNum (num : ℕ) : (setConfNum id num memory).heap = memory.heap := rfl

@[simp] theorem slots_freeSlot :
    (freeSlot id memory i).slots = Function.update memory.slots (id, i) none :=
  slots_setConf none

@[simp] theorem num_freeSlot : (freeSlot id memory i).num = memory.num := num_setConf none

theorem separate_freeSlot (h : Separate memory.slots memory.heap) :
    Separate (freeSlot id memory i).slots (freeSlot id memory i).heap := by
  rw [slots_freeSlot]
  exact h.release (id, i)

end Access

section Free

variable {places : List (Fin SNOOPER_MAX)}

omit [DecidableEq ι] in
theorem separate_foldl {act : Memory ι → Fin SNOOPER_MAX → Memory ι}
    (hact : ∀ memory i, Separate memory.slots memory.heap →
      Separate (act memory i).slots (act memory i).heap)
    (h : Separate memory.slots memory.heap) :
    Separate (places.foldl act memory).slots (places.foldl act memory).heap := by
  induction places generalizing memory with
  | nil => exact h
  | cons place places ih => exact ih (hact memory place h)

theorem slots_foldl_freeSlot (slot : ι × Fin SNOOPER_MAX) :
    (places.foldl (freeSlot id) memory).slots slot =
      if slot.1 = id ∧ slot.2 ∈ places then none else memory.slots slot := by
  induction places generalizing memory with
  | nil => rw [if_neg fun h => List.not_mem_nil h.2, List.foldl_nil]
  | cons place places ih =>
      obtain ⟨other, j⟩ := slot
      rw [List.foldl_cons, ih, slots_freeSlot, Function.update_apply]
      simp only [List.mem_cons, Prod.mk.injEq]
      split_ifs <;> first | rfl | tauto

theorem num_foldl_freeSlot : (places.foldl (freeSlot id) memory).num = memory.num := by
  induction places generalizing memory with
  | nil => rfl
  | cons place places ih => rw [List.foldl_cons, ih, num_freeSlot]

theorem separate_freeConfs (h : Separate memory.slots memory.heap) :
    Separate (freeConfs id memory).slots (freeConfs id memory).heap :=
  separate_foldl (fun _ _ => separate_freeSlot) h

theorem mem_take_finRange {n num : ℕ} {i : Fin n} :
    i ∈ (List.finRange n).take num ↔ i.val < num := by
  rw [List.mem_take_iff_getElem]
  constructor
  · rintro ⟨j, hj, rfl⟩
    rw [List.getElem_finRange]
    exact Nat.lt_of_lt_of_le hj (Nat.min_le_left _ _)
  · intro hlt
    refine ⟨i.val, ?_, ?_⟩
    · rw [List.length_finRange]
      exact Nat.lt_min.mpr ⟨hlt, i.isLt⟩
    · rw [List.getElem_finRange]
      rfl

-- The number of a tidy probe is the number of all slots that have to be freed.
theorem slots_freeConfs (h : Tidy memory id) (slot : ι × Fin SNOOPER_MAX) :
    (freeConfs id memory).slots slot = if slot.1 = id then none else memory.slots slot := by
  obtain ⟨other, j⟩ := slot
  rw [freeConfs, slots_foldl_freeSlot]
  simp only [mem_take_finRange]
  by_cases heq : other = id
  · subst heq
    rw [if_pos rfl]
    split_ifs with hlt
    · rfl
    · exact h.above j (Nat.le_of_not_lt fun hj => hlt ⟨rfl, hj⟩)
  · rw [if_neg heq, if_neg fun h => heq h.1]

end Free

section Add

variable {malloc : Malloc}

-- What one more configuration does: it stands in the first slot that is not in use.
structure Added (id : ι) (conf : SnooperConf) (before after : Memory ι) : Prop where
  intro ::
  step : ∃ (place : Fin SNOOPER_MAX) (ptr : Ptr), place.val = before.num id ∧
    before.heap ptr = none ∧
    after.slots = Function.update before.slots (id, place) (some ptr) ∧
    after.num = Function.update before.num id (before.num id + 1) ∧
    after.heap =
      free (before.slots (id, place)) (Function.update before.heap ptr (some conf))

theorem addSnooperConf_cases {conf : Option SnooperConf}
    (h : addSnooperConf malloc id conf memory = some after) :
    (conf = none ∧ after = memory) ∨ ∃ value, conf = some value ∧ Added id value memory after := by
  rw [addSnooperConf] at h
  dsimp only at h
  split_ifs at h with hroom
  cases conf with
  | none =>
      cases h
      exact .inl ⟨rfl, rfl⟩
  | some value =>
      dsimp only at h
      cases hgrant : malloc.grant memory.heap with
      | none =>
          rw [hgrant] at h
          cases h
      | some ptr =>
          rw [hgrant] at h
          cases h
          refine .inr ⟨value, rfl, ⟨⟨⟨_, hroom⟩, ptr, rfl, malloc.fresh _ _ hgrant, ?_, ?_, rfl⟩⟩⟩
          · rw [slots_setConfNum, slots_setConf, slots_freeSlot, Function.update_idem]
            rfl
          · rw [num_setConfNum, num_setConf, num_freeSlot]
            rfl

theorem Added.grown {conf : SnooperConf} (h : Added id conf memory after) :
    Grown id memory after := by
  obtain ⟨place, ptr, hplace, hunused, hslots, hnum, hheap⟩ := h.step
  refine ⟨fun hseparate => ?_, fun hpacked => ?_, fun other hne => ?_, fun other hne i => ?_⟩
  · have hother := hseparate.ne_of_unused hunused
    have hreleased := (hseparate.alloc ptr conf).release (id, place)
    have hused : (free (memory.slots (id, place))
        (Function.update memory.heap ptr (some conf)) ptr).isSome := by
      rw [Separate.free_of_ne (hother _), Function.update_self]
      rfl
    have hfilled := hreleased.fill (id, place) hused fun slot => by
      rw [Function.update_apply]
      split_ifs
      · exact fun h => nomatch h
      · exact hother slot
    rw [Function.update_idem] at hfilled
    rw [hslots, hheap]
    exact hfilled
  · have hself : after.num id = memory.num id + 1 := by
      rw [hnum, Function.update_self]
    have hroom := place.isLt
    refine ⟨⟨by omega, fun i hi => ?_⟩, fun i hi => ?_⟩
    · have hne : (id, i) ≠ (id, place) := fun heq => by
        have := congrArg Fin.val (Prod.mk.inj heq).2
        omega
      rw [hslots, Function.update_of_ne hne]
      exact hpacked.above i (by omega)
    · rw [hslots, Function.update_apply]
      split_ifs with heq
      · exact fun h => nomatch h
      · have hvalue : i.val ≠ place.val := fun h => heq (congrArg (Prod.mk id) (Fin.ext h))
        exact hpacked.below i (by omega)
  · rw [hnum, Function.update_of_ne hne]
  · rw [hslots, Function.update_of_ne fun heq => hne (Prod.mk.inj heq).1]

theorem grown_addSnooperConf {conf : Option SnooperConf}
    (h : addSnooperConf malloc id conf memory = some after) : Grown id memory after := by
  obtain ⟨-, rfl⟩ | ⟨value, -, hadded⟩ := addSnooperConf_cases h
  · exact .refl after
  · exact hadded.grown

theorem grown_addEach (read : Json → Option (Option SnooperConf)) (objects : List Json)
    (memory : Memory ι) : Grown id memory (addEach malloc id read objects memory).1 := by
  induction objects generalizing memory with
  | nil => exact .refl memory
  | cons object objects ih =>
      rw [addEach]
      cases hadd : (read object).bind fun conf => addSnooperConf malloc id conf memory with
      | none => exact .refl memory
      | some middle =>
          obtain ⟨conf, -, hconf⟩ := Option.bind_eq_some_iff.mp hadd
          exact (grown_addSnooperConf hconf).trans (ih middle)

-- What was added in front of a failure stays, in good order.
theorem grown_parseSections (json : Json) (sections : List SnooperSection) (memory : Memory ι) :
    Grown id memory (parseSections malloc id json sections memory).1 := by
  induction sections generalizing memory with
  | nil => exact .refl memory
  | cons sect sections ih =>
      have hgrown : Grown id memory (addEach malloc id sect.read (sect.items json) memory).1 :=
        grown_addEach sect.read (sect.items json) memory
      rw [parseSections]
      rcases hadd : addEach malloc id sect.read (sect.items json) memory with ⟨middle, accepted⟩
      rw [hadd] at hgrown
      cases accepted with
      | false => exact hgrown
      | true => exact hgrown.trans (ih middle)

end Add

section Parse

variable {malloc : Malloc} {json : Json}

-- The probe without its configurations.
def cleared (id : ι) (memory : Memory ι) : Memory ι := setConfNum id 0 (freeConfs id memory)

theorem separate_cleared (h : Separate memory.slots memory.heap) :
    Separate (cleared id memory).slots (cleared id memory).heap := by
  rw [cleared, slots_setConfNum]
  exact separate_freeConfs h

theorem slots_cleared (h : Tidy memory id) (slot : ι × Fin SNOOPER_MAX) :
    (cleared id memory).slots slot = if slot.1 = id then none else memory.slots slot := by
  rw [cleared, slots_setConfNum, slots_freeConfs h]

theorem num_cleared : (cleared id memory).num = Function.update memory.num id 0 := by
  rw [cleared, num_setConfNum, freeConfs, num_foldl_freeSlot]

theorem packed_cleared (h : Tidy memory id) : Packed (cleared id memory) id := by
  refine packed_of_zero ?_ fun i => ?_
  · rw [num_cleared, Function.update_self]
  · rw [slots_cleared h, if_pos rfl]

theorem grown_parseSnooper :
    Grown id (cleared id memory) (parseSnooper malloc id json memory).1 :=
  grown_parseSections json SnooperSection.all (cleared id memory)

-- A probe has all its configurations in order behind a request, also behind one that fails.
theorem packed_parseSnooper (h : Tidy memory id) :
    Packed (parseSnooper malloc id json memory).1 id :=
  grown_parseSnooper.packed (packed_cleared h)

theorem separate_parseSnooper (h : Separate memory.slots memory.heap) :
    Separate (parseSnooper malloc id json memory).1.slots
      (parseSnooper malloc id json memory).1.heap :=
  grown_parseSnooper.separate (separate_cleared h)

theorem num_parseSnooper_of_ne (hne : other ≠ id) :
    (parseSnooper malloc id json memory).1.num other = memory.num other := by
  rw [grown_parseSnooper.nums other hne, num_cleared, Function.update_of_ne hne]

theorem slots_parseSnooper_of_ne (h : Tidy memory id) (hne : other ≠ id) :
    (parseSnooper malloc id json memory).1.slots (other, i) = memory.slots (other, i) := by
  rw [grown_parseSnooper.slots other hne, slots_cleared h, if_neg hne]

end Parse

section Moves

variable {backup : ι}

theorem slots_backupSnooper (slot : ι × Fin SNOOPER_MAX) :
    (backupSnooper id backup memory).slots slot =
      if slot.1 = id then none
      else if slot.1 = backup then memory.slots (id, slot.2) else memory.slots slot := by
  rw [backupSnooper, slots_setProbe]
  dsimp only
  rw [slots_setProbe]
  dsimp only
  rw [slots_setConfNum]
  split_ifs
  · rfl
  · exact congrFun (slots_setConfNum _) (id, slot.2)
  · rfl

theorem num_backupSnooper :
    (backupSnooper id backup memory).num other =
      if other = backup then memory.num id else memory.num other := by
  rw [backupSnooper, num_setConfs, num_setConfs, num_setConfNum, Function.update_apply]
  rfl

theorem separate_backupSnooper (h : Separate memory.slots memory.heap) :
    Separate (backupSnooper id backup memory).slots (backupSnooper id backup memory).heap := by
  have hinjective : Function.Injective fun slot : ι × Fin SNOOPER_MAX =>
      (Equiv.swap id backup slot.1, slot.2) :=
    (Equiv.swap id backup).injective.prodMap Function.injective_id
  refine h.move hinjective fun slot ptr hslot => ?_
  rw [slots_backupSnooper] at hslot
  split_ifs at hslot with hid hbackup
  · rwa [hbackup, Equiv.swap_apply_right]
  · rwa [Equiv.swap_apply_of_ne_of_ne hid hbackup]

theorem slots_rollbackSlot :
    (rollbackSlot id backup memory i).slots =
      Function.update (Function.update memory.slots (id, i) (memory.slots (backup, i)))
        (backup, i) none := by
  rw [rollbackSlot, slots_setConf, slots_setConf]
  rfl

theorem num_rollbackSlot : (rollbackSlot id backup memory i).num = memory.num := by
  rw [rollbackSlot, num_setConf, num_setConf]
  rfl

-- What was in the slot is freed, and the pointer of the backup takes its place.
theorem separate_rollbackSlot (h : Separate memory.slots memory.heap) :
    Separate (rollbackSlot id backup memory i).slots (rollbackSlot id backup memory i).heap := by
  refine (h.release (id, i)).move (Equiv.swap (id, i) (backup, i)).injective
    fun slot ptr hslot => ?_
  rw [slots_rollbackSlot, Function.update_apply] at hslot
  split_ifs at hslot with hbackup
  rw [Function.update_apply] at hslot
  split_ifs at hslot with hid
  · rw [hid, Equiv.swap_apply_left, Function.update_of_ne (hid ▸ Ne.symm hbackup)]
    exact hslot
  · rwa [Equiv.swap_apply_of_ne_of_ne hid hbackup, Function.update_of_ne hid]

theorem slots_foldl_rollbackSlot {places : List (Fin SNOOPER_MAX)} (hplaces : places.Nodup)
    (slot : ι × Fin SNOOPER_MAX) :
    (places.foldl (rollbackSlot id backup) memory).slots slot =
      if slot.2 ∈ places then
        if slot.1 = backup then none
        else if slot.1 = id then memory.slots (backup, slot.2) else memory.slots slot
      else memory.slots slot := by
  induction places generalizing memory with
  | nil => rfl
  | cons place places ih =>
      obtain ⟨hplace, hrest⟩ := List.nodup_cons.mp hplaces
      obtain ⟨other, j⟩ := slot
      rw [List.foldl_cons, ih hrest]
      simp only [slots_rollbackSlot, Function.update_apply, List.mem_cons, Prod.mk.injEq]
      by_cases hj : j = place
      · subst hj
        simp only [hplace, if_false, and_true, true_or, if_true]
      · simp only [hj, and_false, if_false, false_or]

theorem num_foldl_rollbackSlot {places : List (Fin SNOOPER_MAX)} :
    (places.foldl (rollbackSlot id backup) memory).num = memory.num := by
  induction places generalizing memory with
  | nil => rfl
  | cons place places ih => rw [List.foldl_cons, ih, num_rollbackSlot]

theorem slots_rollbackSnooper (slot : ι × Fin SNOOPER_MAX) :
    (rollbackSnooper id backup memory).slots slot =
      if slot.1 = backup then none
      else if slot.1 = id then memory.slots (backup, slot.2) else memory.slots slot := by
  rw [rollbackSnooper, slots_setConfNum, slots_setConfNum,
    slots_foldl_rollbackSlot (List.nodup_finRange _), if_pos (List.mem_finRange _)]

theorem num_rollbackSnooper :
    (rollbackSnooper id backup memory).num other =
      if other = backup then 0 else if other = id then memory.num backup else memory.num other := by
  rw [rollbackSnooper, num_setConfNum, num_setConfNum, num_foldl_rollbackSlot,
    Function.update_apply, Function.update_apply]
  have hnum : ((((List.finRange SNOOPER_MAX).foldl (rollbackSlot id backup) memory).probes
      backup).snooperConfNum) = memory.num backup :=
    congrFun num_foldl_rollbackSlot backup
  rw [hnum]

theorem separate_rollbackSnooper (h : Separate memory.slots memory.heap) :
    Separate (rollbackSnooper id backup memory).slots (rollbackSnooper id backup memory).heap := by
  rw [rollbackSnooper, slots_setConfNum, slots_setConfNum, heap_setConfNum, heap_setConfNum]
  exact separate_foldl (fun _ _ => separate_rollbackSlot) h

theorem separate_zeroProbe (h : Separate memory.slots memory.heap) :
    Separate (setProbe id zeroProbe memory).slots (setProbe id zeroProbe memory).heap := by
  refine h.move Function.injective_id fun slot ptr hslot => ?_
  rw [slots_setProbe] at hslot
  split_ifs at hslot
  · cases hslot
  · exact hslot

end Moves

section Steps

variable {op : Op ι}

-- The fields of a probe after a step are those of some probe before it, or in good order,
-- unless its array has just been moved away.
theorem step_cases (hinv : Inv memory) (op : Op ι) (id : ι) :
    (∃ source, (step memory op).num id = memory.num source ∧
      ∀ i, (step memory op).slots (id, i) = memory.slots (source, i)) ∨
    Packed (step memory op) id ∨
    ∃ backup, op = .backupSnooper id backup ∧ (step memory op).num id = memory.num id ∧
      ∀ i, (step memory op).slots (id, i) = none := by
  cases op with
  | newProbe new =>
      by_cases heq : id = new
      · refine .inr (.inl (packed_of_zero ?_ fun i => ?_))
        · rw [step, num_setProbe, if_pos heq]
          rfl
        · rw [step, slots_setProbe, if_pos heq]
          rfl
      · refine .inl ⟨id, ?_, fun i => ?_⟩
        · rw [step, num_setProbe, if_neg heq]
        · rw [step, slots_setProbe, if_neg heq]
  | parseSnooper malloc probe json =>
      by_cases heq : id = probe
      · rw [heq]
        exact .inr (.inl (packed_parseSnooper (hinv.tidy probe)))
      · exact .inl ⟨id, num_parseSnooper_of_ne heq,
          fun i => slots_parseSnooper_of_ne (hinv.tidy probe) heq⟩
  | backupSnooper probe backup =>
      simp only [step, num_backupSnooper, slots_backupSnooper]
      by_cases hprobe : id = probe
      · refine .inr (.inr ⟨backup, by rw [hprobe], ?_, fun i => if_pos hprobe⟩)
        rw [hprobe]
        split_ifs <;> rfl
      · simp only [hprobe, if_false]
        by_cases hbackup : id = backup
        · exact .inl ⟨probe, if_pos hbackup, fun i => if_pos hbackup⟩
        · exact .inl ⟨id, if_neg hbackup, fun i => if_neg hbackup⟩
  | rollbackSnooper probe backup =>
      by_cases hbackup : id = backup
      · refine .inr (.inl (packed_of_zero ?_ fun i => ?_))
        · rw [step, num_rollbackSnooper, if_pos hbackup]
        · rw [step, slots_rollbackSnooper, if_pos hbackup]
      · simp only [step, num_rollbackSnooper, slots_rollbackSnooper, hbackup, if_false]
        by_cases hprobe : id = probe
        · exact .inl ⟨backup, if_pos hprobe, fun i => if_pos hprobe⟩
        · exact .inl ⟨id, if_neg hprobe, fun i => if_neg hprobe⟩
  | destroyProbe probe =>
      by_cases heq : id = probe
      · refine .inr (.inl (packed_of_zero ?_ fun i => ?_))
        · rw [step, destroyProbe, num_setProbe, if_pos heq]
          rfl
        · rw [step, destroyProbe, slots_setProbe, if_pos heq]
          rfl
      · refine .inl ⟨id, ?_, fun i => ?_⟩
        · rw [step, destroyProbe, num_setProbe, if_neg heq, ← cleared, num_cleared,
            Function.update_of_ne heq]
        · rw [step, destroyProbe, slots_setProbe, if_neg heq, ← cleared,
            slots_cleared (hinv.tidy probe), if_neg heq]

theorem separate_step (h : Separate memory.slots memory.heap) (op : Op ι) :
    Separate (step memory op).slots (step memory op).heap := by
  cases op with
  | newProbe id => exact separate_zeroProbe h
  | parseSnooper malloc id json => exact separate_parseSnooper h
  | backupSnooper id backup => exact separate_backupSnooper h
  | rollbackSnooper id backup => exact separate_rollbackSnooper h
  | destroyProbe id => exact separate_zeroProbe (separate_cleared h)

theorem Inv.step (h : Inv memory) (op : Op ι) : Inv (step memory op) where
  tidy id := by
    obtain ⟨source, hnum, hslots⟩ | hpacked | ⟨backup, rfl, hnum, hslots⟩ := step_cases h op id
    · exact (h.tidy source).of_eq hnum hslots
    · exact hpacked.toTidy
    · exact ⟨by rw [hnum]; exact (h.tidy id).bound, fun i _ => hslots i⟩
  separate := separate_step h.separate op

-- A backup is made of a probe that has no configuration.
def Allowed (memory : Memory ι) : Op ι → Prop
  | .backupSnooper id _ => (memory.probes id).snooperConfNum = 0
  | _ => True

theorem ConfArrays.step (h : ConfArrays memory) (op : Op ι) (hallowed : Allowed memory op) :
    ConfArrays (step memory op) where
  packed id := by
    obtain ⟨source, hnum, hslots⟩ | hpacked | ⟨backup, rfl, hnum, hslots⟩ := step_cases h.inv op id
    · exact (h.packed source).of_eq hnum hslots
    · exact hpacked
    · exact packed_of_zero (hnum.trans hallowed) hslots
  separate := separate_step h.separate op

-- The number that a backup leaves is too great for an array of which all slots are NULL.
theorem allowed_of_packed (hafter : ∀ id, Packed (step memory op) id) : Allowed memory op := by
  cases op with
  | backupSnooper id backup =>
      by_contra hpos
      have hpacked := hafter id
      have hnum : (step memory (.backupSnooper id backup)).num id = memory.num id := by
        rw [step, num_backupSnooper]
        split_ifs <;> rfl
      have hroom : 0 < SNOOPER_MAX := by decide
      refine hpacked.below ⟨0, hroom⟩ ?_ ?_
      · rw [hnum]
        exact Nat.pos_of_ne_zero hpos
      · rw [step, slots_backupSnooper, if_pos rfl]
  | _ => trivial

-- In every run no configuration is reachable twice, and none stands behind the number.
theorem inv_run (ops : List (Op ι)) : Inv (ops.foldl ConfArray.step initial) :=
  List.foldlRecOn ops ConfArray.step confArrays_initial.inv fun _ h op _ => h.step op

-- Every probe and every backup is in order all the time exactly if no backup is made of a
-- probe that has configurations.
theorem confArrays_iff (ops : List (Op ι)) :
    Throughout step initial (fun _ memory => ConfArrays memory) ops ↔
      EachStep step initial (fun _ memory op => Allowed memory op) ops :=
  have hlegal : EachStep step initial (fun _ (_ : Memory ι) _ => True) ops := fun _ _ _ _ => trivial
  throughout_iff_eachStep (fun _ memory => ConfArrays memory) confArrays_initial
    (fun _ _ h => h) (fun _ _ op h _ hallowed => h.step op hallowed)
    (fun _ _ _ _ _ hafter => allowed_of_packed hafter.packed) hlegal

end Steps

section Example

-- Memory for one configuration.
def oneConf : Malloc where
  grant heap := if heap 1 = none then some 1 else none
  fresh heap ptr h := by
    split_ifs at h with hunused
    cases h
    exact hunused

def oneProcId : Json := .object [(SNOOPER_OBJNAME_PROCID, .array [.number 1])]

theorem not_confArrays :
    ¬∀ ops : List (Op Bool), Throughout step initial (fun _ memory => ConfArrays memory) ops := by
  intro h
  have hlast := (h [.parseSnooper oneConf false oneProcId, .backupSnooper false true]).last
  exact (hlast.packed false).below ⟨0, by decide⟩ (by decide +kernel) (by decide +kernel)

end Example

section Requests

-- What a request for the configuration does: `failed` where one of the parsers fails.
structure Request (ι : Type*) where
  malloc : Malloc
  probe : ι
  backup : ι
  json : Json
  failed : Bool

def Request.ops (request : Request ι) : List (Op ι) :=
  [.newProbe request.backup, .backupSnooper request.probe request.backup,
    .parseSnooper request.malloc request.probe request.json] ++
  (if request.failed then [.rollbackSnooper request.probe request.backup] else []) ++
  [.destroyProbe request.backup]

-- The configurations are parsed right behind the backup, which sets the number right.
theorem ConfArrays.backup_parse (h : ConfArrays memory) (id : ι) (malloc : Malloc) (backup : ι)
    (json : Json) :
    ConfArrays (ConfArray.step (ConfArray.step memory (.backupSnooper id backup))
      (.parseSnooper malloc id json)) := by
  have hbackup := h.inv.step (.backupSnooper id backup)
  refine ⟨fun other => ?_, (hbackup.step _).separate⟩
  by_cases heq : other = id
  · rw [heq]
    exact packed_parseSnooper (hbackup.tidy id)
  · have hother : Packed (ConfArray.step memory (.backupSnooper id backup)) other := by
      obtain ⟨source, hnum, hslots⟩ | hpacked | ⟨_, hop, -⟩ :=
        step_cases h.inv (.backupSnooper id backup) other
      · exact (h.packed source).of_eq hnum hslots
      · exact hpacked
      · cases hop
        exact absurd rfl heq
    exact hother.of_eq (num_parseSnooper_of_ne heq)
      fun i => slots_parseSnooper_of_ne (hbackup.tidy id) heq

theorem ConfArrays.request (h : ConfArrays memory) (request : Request ι) :
    ConfArrays (request.ops.foldl ConfArray.step memory) := by
  obtain ⟨malloc, probe, backup, json, failed⟩ := request
  have hnew := h.step (.newProbe backup) trivial
  have hparse := hnew.backup_parse probe malloc backup json
  cases failed with
  | false => exact hparse.step (.destroyProbe backup) trivial
  | true =>
      exact (hparse.step (.rollbackSnooper probe backup) trivial).step (.destroyProbe backup)
        trivial

-- Between requests every probe is in order.
theorem confArrays_requests (requests : List (Request ι)) :
    ConfArrays (requests.foldl (fun memory request => request.ops.foldl step memory) initial) :=
  List.foldlRecOn requests _ confArrays_initial fun _ h request _ => h.request request

end Requests

end Gopher.Probe.ConfArray
