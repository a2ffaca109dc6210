import Gopher.Lib.BpfMap
import Gopher.Lib.Run
import Gopher.Lib.Text
import Mathlib.Algebra.Group.Int.Defs
import Mathlib.Data.Int.Notation

namespace Gopher.StackProbe.MemleakFp

open Lib

def toAllocateMaxEntries : ℕ := 1000
def mmapAllocsMaxEntries : ℕ := 1000000

-- struct stack_id_s, with the fields of its struct stack_pid_s
structure StackId where
  comm : Text
  userStackId : ℤ
  kernStackId : ℤ
  realStartTime : ℕ
  procId : ℕ
  deriving DecidableEq

structure PidAddr where
  tgid : ℕ
  addr : UInt64
  deriving DecidableEq

structure MmapInfo where
  size : Int64
  stackId : StackId
  deriving DecidableEq

-- What is sent through `stackmap_perf_a` or through `stackmap_perf_b`.
structure RawTrace where
  stackmapA : Bool
  count : Int64
  stackId : StackId
  deriving DecidableEq

-- The maps, and all that has been sent.
structure Maps where
  toAllocate : BpfMap ℕ UInt64
  mmapAllocs : BpfMap PidAddr MmapInfo
  emitted : List RawTrace

-- What a program finds when it runs: the current channel, and the ids of its stacks.
structure Context where
  stackmapCur : Bool
  stackId : StackId

def getStackId (ctx : Context) : Option StackId :=
  if ctx.stackId.kernStackId < 0 ∧ ctx.stackId.userStackId < 0 then none else some ctx.stackId

def updateStatistics (stackmapCur : Bool) (count : Int64) (stackId : StackId) (maps : Maps) : Maps :=
  { maps with emitted := maps.emitted ++ [⟨stackmapCur, count, stackId⟩] }

def allocEnter (tgid : ℕ) (size : UInt64) (maps : Maps) : Maps :=
  { maps with toAllocate := maps.toAllocate.update toAllocateMaxEntries tgid size }

def allocExit (ctx : Context) (tgid : ℕ) (addr : UInt64) (maps : Maps) : Maps :=
  match maps.toAllocate.lookup tgid with
  | none => maps
  | some allocSize =>
      let maps := { maps with toAllocate := maps.toAllocate.delete tgid }
      if addr ≠ 0 then
        match getStackId ctx with
        | none => maps
        | some stackId =>
            let mmapInfo := { size := allocSize.toInt64, stackId }
            updateStatistics ctx.stackmapCur mmapInfo.size stackId
              { maps with
                mmapAllocs := maps.mmapAllocs.update mmapAllocsMaxEntries ⟨tgid, addr⟩ mmapInfo }
      else maps

def freeEnter (ctx : Context) (tgid : ℕ) (addr : UInt64) (maps : Maps) : Maps :=
  match maps.mmapAllocs.lookup ⟨tgid, addr⟩ with
  | none => maps
  | some mmapInfo =>
      updateStatistics ctx.stackmapCur (-mmapInfo.size) mmapInfo.stackId
        { maps with mmapAllocs := maps.mmapAllocs.delete ⟨tgid, addr⟩ }

-- A thread of a process.
structure Thread where
  tgid : ℕ
  pid : ℕ
  deriving DecidableEq

inductive Event
  | sysEnterMmap (thread : Thread) (len : UInt64)
  | sysExitMmap (thread : Thread) (ret : Int64) (ctx : Context)
  | sysEnterMunmap (thread : Thread) (addr : UInt64) (ctx : Context)

def run (maps : Maps) : Event → Maps
  | .sysEnterMmap thread len => allocEnter thread.tgid len maps
  | .sysExitMmap thread ret ctx => allocExit ctx thread.tgid ret.toUInt64 maps
  | .sysEnterMunmap thread addr ctx => freeEnter ctx thread.tgid addr maps

-- The maps beside what they should hold: the sizes that threads have passed and not yet
-- got an answer for, and the sizes of the allocations that were answered.
structure Traced where
  maps : Maps
  passed : Thread → Option UInt64
  due : PidAddr → Option Int64

def Traced.initial : Traced :=
  { maps := { toAllocate := [], mmapAllocs := [], emitted := [] }
    passed := fun _ => none, due := fun _ => none }

def step (traced : Traced) (event : Event) : Traced :=
  let maps := run traced.maps event
  match event with
  | .sysEnterMmap thread len =>
      { traced with maps, passed := Function.update traced.passed thread (some len) }
  | .sysExitMmap thread ret _ =>
      { maps
        passed := Function.update traced.passed thread none
        due :=
          if ret < 0 then traced.due
          else Function.update traced.due ⟨thread.tgid, ret.toUInt64⟩
            ((traced.passed thread).map UInt64.toInt64) }
  | .sysEnterMunmap thread addr _ =>
      { traced with maps, due := Function.update traced.due ⟨thread.tgid, addr⟩ none }

-- A thread is in one call at a time, and leaves the one that it has entered.
def Legal (_ : List Event) (traced : Traced) : Event → Prop
  | .sysEnterMmap thread _ => traced.passed thread = none
  | .sysExitMmap thread _ _ => (traced.passed thread).isSome
  | .sysEnterMunmap thread _ _ => traced.passed thread = none

-- The size of an allocation that came from the stack.
def MmapInfo.sizeOf (stackId : StackId) (info : MmapInfo) : ℤ :=
  if info.stackId = stackId then info.size.toInt else 0

def RawTrace.countOf (stackId : StackId) (trace : RawTrace) : ℤ :=
  if trace.stackId = stackId then trace.count.toInt else 0

-- All counts sent for a stack.
def sent (maps : Maps) (stackId : StackId) : ℤ :=
  (maps.emitted.map (RawTrace.countOf stackId)).sum

def outstanding (maps : Maps) (stackId : StackId) : ℤ :=
  maps.mmapAllocs.total (MmapInfo.sizeOf stackId)

-- The map holds the allocations that were answered, with the sizes their own threads
-- passed, and the counts sent add up to what is outstanding.
def Accounted (_ : List Event) (traced : Traced) : Prop :=
  (∀ pa, (traced.maps.mmapAllocs.lookup pa).map MmapInfo.size = traced.due pa) ∧
    ∀ stackId, sent traced.maps stackId = outstanding traced.maps stackId

-- What the end of a call puts into the map of allocations.
def recording (maps : Maps) (tgid : ℕ) (addr : UInt64) (ctx : Context) : Option MmapInfo :=
  (maps.toAllocate.lookup tgid).bind fun allocSize =>
    if addr = 0 then none
    else (getStackId ctx).map fun stackId => { size := allocSize.toInt64, stackId }

-- A failed call finds no size, or no stack. A successful one finds the size its own
-- thread has passed, a stack, room in the map, and no other allocation at its address. What
-- is given back has a size whose negation is an `s64`.
def Allowed (_ : List Event) (traced : Traced) : Event → Prop
  | .sysExitMmap thread ret ctx =>
      let pa : PidAddr := ⟨thread.tgid, ret.toUInt64⟩
      let own := (traced.passed thread).map UInt64.toInt64
      let found := traced.maps.mmapAllocs.lookup pa
      match recording traced.maps thread.tgid ret.toUInt64 ctx with
      | none => ret < 0 ∨ found.map MmapInfo.size = own
      | some info =>
          if ret < 0 then
            ¬ traced.maps.mmapAllocs.Fits mmapAllocsMaxEntries pa ∧ info.size = 0
          else
            traced.maps.mmapAllocs.Fits mmapAllocsMaxEntries pa ∧ some info.size = own ∧
              ∀ old ∈ found, old.size = 0
  | .sysEnterMunmap thread addr _ =>
      ∀ info ∈ traced.maps.mmapAllocs.lookup ⟨thread.tgid, addr⟩, info.size ≠ Int64.minValue
  | .sysEnterMmap _ _ => True

structure Inv (traced : Traced) : Prop where
  nodup : (traced.maps.mmapAllocs.map Prod.fst).Nodup
  accounted : Accounted [] traced
  answered : ∀ pa, traced.due pa ≠ none → ∃ ret : Int64, ¬ ret < 0 ∧ pa.addr = ret.toUInt64

variable {traced : Traced} {maps : Maps} {tgid : ℕ} {addr : UInt64} {ctx : Context}

-- The end of a call sends what it records.
theorem allocExit_eq (ctx : Context) (tgid : ℕ) (addr : UInt64) (maps : Maps) :
    (allocExit ctx tgid addr maps).mmapAllocs =
        ((recording maps tgid addr ctx).elim maps.mmapAllocs fun info =>
          maps.mmapAllocs.update mmapAllocsMaxEntries ⟨tgid, addr⟩ info) ∧
      (allocExit ctx tgid addr maps).emitted =
        maps.emitted ++ (recording maps tgid addr ctx).toList.map fun info =>
          ⟨ctx.stackmapCur, info.size, info.stackId⟩ := by
  rw [allocExit, recording]
  cases maps.toAllocate.lookup tgid with
  | none => simp
  | some allocSize =>
      by_cases haddr : addr = 0
      · simp [haddr]
      · cases hstack : getStackId ctx with
        | none => simp [haddr]
        | some stackId => simp [haddr, updateStatistics]

theorem freeEnter_eq (ctx : Context) (tgid : ℕ) (addr : UInt64) (maps : Maps)
    (hnodup : (maps.mmapAllocs.map Prod.fst).Nodup) :
    (∀ pa, (freeEnter ctx tgid addr maps).mmapAllocs.lookup pa =
        if pa = ⟨tgid, addr⟩ then none else maps.mmapAllocs.lookup pa) ∧
      ((freeEnter ctx tgid addr maps).mmapAllocs.map Prod.fst).Nodup := by
  rw [freeEnter]
  cases hfind : maps.mmapAllocs.lookup ⟨tgid, addr⟩ with
  | none =>
      refine ⟨fun pa => ?_, hnodup⟩
      split_ifs with heq
      · rw [heq, hfind]
      · rfl
  | some info => exact ⟨fun pa => BpfMap.lookup_delete hnodup, BpfMap.nodup_delete hnodup⟩

theorem toInt_neg_iff {size : Int64} : (-size).toInt = -size.toInt ↔ size ≠ Int64.minValue := by
  have hlow := size.le_toInt
  have hhigh := size.toInt_lt
  have hleast : size ≠ Int64.minValue ↔ size.toInt ≠ -2 ^ 63 := by
    rw [Ne, ← Int64.toInt_inj, Int64.toInt_minValue]
  rw [hleast, Int64.toInt_neg, Int.bmod_eq_iff (by decide)]
  omega

-- What is given back is taken from both sides, if its size can be negated.
theorem freeEnter_balanced_iff (ctx : Context) (tgid : ℕ) (addr : UInt64) (maps : Maps) :
    (∀ stackId, sent (freeEnter ctx tgid addr maps) stackId - sent maps stackId =
        outstanding (freeEnter ctx tgid addr maps) stackId - outstanding maps stackId) ↔
      ∀ info ∈ maps.mmapAllocs.lookup ⟨tgid, addr⟩, info.size ≠ Int64.minValue := by
  rw [freeEnter]
  cases hfind : maps.mmapAllocs.lookup ⟨tgid, addr⟩ with
  | none => simp
  | some info =>
      have hsent (stackId : StackId) : sent (updateStatistics ctx.stackmapCur (-info.size)
          info.stackId { maps with mmapAllocs := maps.mmapAllocs.delete ⟨tgid, addr⟩ }) stackId -
            sent maps stackId = if info.stackId = stackId then (-info.size).toInt else 0 := by
        simp only [updateStatistics, sent, List.map_append, List.sum_append, List.map_singleton,
          List.sum_singleton, RawTrace.countOf]
        omega
      have hout (stackId : StackId) : outstanding (updateStatistics ctx.stackmapCur (-info.size)
          info.stackId { maps with mmapAllocs := maps.mmapAllocs.delete ⟨tgid, addr⟩ }) stackId -
            outstanding maps stackId = if info.stackId = stackId then -info.size.toInt else 0 := by
        simp only [updateStatistics, outstanding, BpfMap.total_delete, hfind, Option.map_some,
          Option.getD_some, MmapInfo.sizeOf]
        split_ifs <;> omega
      simp only [hsent, hout, Option.mem_some_iff, forall_eq']
      rw [← toInt_neg_iff]
      refine ⟨fun h => ?_, fun h stackId => by rw [h]⟩
      simpa using h info.stackId

-- A record changes what is sent and what is outstanding by the same size, but for an
-- older allocation that it overwrites.
theorem sent_allocExit {info : MmapInfo} (hrecording : recording maps tgid addr ctx = some info)
    (stackId : StackId) :
    sent (allocExit ctx tgid addr maps) stackId = sent maps stackId + info.sizeOf stackId := by
  rw [sent, (allocExit_eq ctx tgid addr maps).2, hrecording, List.map_append, List.sum_append]
  simp [sent, RawTrace.countOf, MmapInfo.sizeOf]

theorem outstanding_allocExit {info : MmapInfo}
    (hrecording : recording maps tgid addr ctx = some info)
    (hfits : maps.mmapAllocs.Fits mmapAllocsMaxEntries ⟨tgid, addr⟩) (stackId : StackId) :
    outstanding (allocExit ctx tgid addr maps) stackId = outstanding maps stackId -
      ((maps.mmapAllocs.lookup ⟨tgid, addr⟩).map (MmapInfo.sizeOf stackId)).getD 0 +
        info.sizeOf stackId := by
  rw [outstanding, (allocExit_eq ctx tgid addr maps).1, hrecording]
  exact BpfMap.total_update hfits

-- Nothing is recorded: the map stays, and nothing is sent.
theorem allocExit_of_none (hrecording : recording maps tgid addr ctx = none) :
    (allocExit ctx tgid addr maps).mmapAllocs = maps.mmapAllocs ∧
      (allocExit ctx tgid addr maps).emitted = maps.emitted := by
  obtain ⟨hallocs, hemitted⟩ := allocExit_eq ctx tgid addr maps
  rw [hrecording] at hallocs hemitted
  exact ⟨hallocs, by simpa using hemitted⟩

theorem allocExit_of_full {info : MmapInfo} (hrecording : recording maps tgid addr ctx = some info)
    (hfits : ¬ maps.mmapAllocs.Fits mmapAllocsMaxEntries ⟨tgid, addr⟩) :
    (allocExit ctx tgid addr maps).mmapAllocs = maps.mmapAllocs := by
  rw [(allocExit_eq ctx tgid addr maps).1, hrecording]
  exact BpfMap.update_of_not_fits hfits

theorem lookup_of_not_fits {pa : PidAddr}
    (hfits : ¬ maps.mmapAllocs.Fits mmapAllocsMaxEntries pa) : maps.mmapAllocs.lookup pa = none := by
  rw [BpfMap.Fits, not_or] at hfits
  simpa using hfits.1

theorem lookup_allocExit {info : MmapInfo} (hrecording : recording maps tgid addr ctx = some info)
    (hfits : maps.mmapAllocs.Fits mmapAllocsMaxEntries ⟨tgid, addr⟩) (pa : PidAddr) :
    (allocExit ctx tgid addr maps).mmapAllocs.lookup pa =
      if pa = ⟨tgid, addr⟩ then some info else maps.mmapAllocs.lookup pa := by
  rw [(allocExit_eq ctx tgid addr maps).1, hrecording]
  exact BpfMap.lookup_update hfits

theorem nodup_allocExit (hnodup : (maps.mmapAllocs.map Prod.fst).Nodup) :
    ((allocExit ctx tgid addr maps).mmapAllocs.map Prod.fst).Nodup := by
  rw [(allocExit_eq ctx tgid addr maps).1]
  cases recording maps tgid addr ctx with
  | none => exact hnodup
  | some info => exact BpfMap.nodup_update hnodup

theorem inv_initial : Inv Traced.initial :=
  ⟨List.nodup_nil, ⟨fun _ => rfl, fun _ => rfl⟩, fun _ hdue => absurd rfl hdue⟩

-- The end of a call that records nothing.
theorem Accounted.exit_unrecorded (h : Accounted [] traced) {thread : Thread} {ret : Int64}
    (hallowed : Allowed [] traced (.sysExitMmap thread ret ctx))
    (hrecording : recording traced.maps thread.tgid ret.toUInt64 ctx = none) :
    Accounted [] (step traced (.sysExitMmap thread ret ctx)) := by
  obtain ⟨hsizes, hsums⟩ := h
  obtain ⟨hallocs, hemitted⟩ := allocExit_of_none hrecording
  simp only [Allowed, hrecording] at hallowed
  refine ⟨fun pa => ?_, fun stackId => ?_⟩
  · simp only [step, run, hallocs]
    split_ifs with hret
    · exact hsizes pa
    · rw [Function.update_apply]
      split_ifs with heq
      · rw [heq]
        exact hallowed.resolve_left hret
      · exact hsizes pa
  · simp only [step, run, sent, outstanding, hallocs, hemitted]
    exact hsums stackId

-- A failed call whose record does not get into the map, with a size of 0.
theorem Accounted.exit_failed (h : Accounted [] traced) {thread : Thread} {ret : Int64}
    {info : MmapInfo} (hallowed : Allowed [] traced (.sysExitMmap thread ret ctx))
    (hrecording : recording traced.maps thread.tgid ret.toUInt64 ctx = some info)
    (hret : ret < 0) : Accounted [] (step traced (.sysExitMmap thread ret ctx)) := by
  obtain ⟨hsizes, hsums⟩ := h
  simp only [Allowed, hrecording] at hallowed
  rw [if_pos hret] at hallowed
  obtain ⟨hfits, hzero⟩ := hallowed
  have hallocs := allocExit_of_full hrecording hfits
  refine ⟨fun pa => ?_, fun stackId => ?_⟩
  · simp only [step, run, hallocs, if_pos hret]
    exact hsizes pa
  · have hsent := sent_allocExit hrecording stackId
    have hweight : info.sizeOf stackId = 0 := by simp [MmapInfo.sizeOf, hzero]
    have hsum := hsums stackId
    simp only [step, run, outstanding, hallocs] at hsum hsent ⊢
    omega

-- A successful call whose record gets into the map.
theorem Accounted.exit_stored (h : Accounted [] traced) {thread : Thread} {ret : Int64}
    {info : MmapInfo} (hallowed : Allowed [] traced (.sysExitMmap thread ret ctx))
    (hrecording : recording traced.maps thread.tgid ret.toUInt64 ctx = some info)
    (hret : ¬ ret < 0) : Accounted [] (step traced (.sysExitMmap thread ret ctx)) := by
  obtain ⟨hsizes, hsums⟩ := h
  simp only [Allowed, hrecording] at hallowed
  rw [if_neg hret] at hallowed
  obtain ⟨hfits, hown, hold⟩ := hallowed
  refine ⟨fun pa => ?_, fun stackId => ?_⟩
  · simp only [step, run, lookup_allocExit hrecording hfits, if_neg hret,
      Function.update_apply]
    split_ifs
    · exact hown
    · exact hsizes pa
  · have hsent := sent_allocExit hrecording stackId
    have hout := outstanding_allocExit hrecording hfits stackId
    have hweight : ((traced.maps.mmapAllocs.lookup ⟨thread.tgid, ret.toUInt64⟩).map
        (MmapInfo.sizeOf stackId)).getD 0 = 0 := by
      cases hfind : traced.maps.mmapAllocs.lookup ⟨thread.tgid, ret.toUInt64⟩ with
      | none => rfl
      | some old => simp [MmapInfo.sizeOf, hold old hfind]
    have hsum := hsums stackId
    simp only [step, run]
    omega

theorem Inv.sysExitMmap (h : Inv traced) {thread : Thread} {ret : Int64}
    (hallowed : Allowed [] traced (.sysExitMmap thread ret ctx)) :
    Inv (step traced (.sysExitMmap thread ret ctx)) := by
  refine ⟨nodup_allocExit h.nodup, ?_, fun pa hdue => ?_⟩
  · cases hrecording : recording traced.maps thread.tgid ret.toUInt64 ctx with
    | none => exact h.accounted.exit_unrecorded hallowed hrecording
    | some info =>
        by_cases hret : ret < 0
        · exact h.accounted.exit_failed hallowed hrecording hret
        · exact h.accounted.exit_stored hallowed hrecording hret
  · by_cases hret : ret < 0
    · simp only [step, if_pos hret] at hdue
      exact h.answered pa hdue
    · simp only [step, if_neg hret, Function.update_apply] at hdue
      split_ifs at hdue with heq
      · rw [heq]
        exact ⟨ret, hret, rfl⟩
      · exact h.answered pa hdue

theorem Inv.sysEnterMunmap (h : Inv traced) {thread : Thread} {addr : UInt64}
    (hallowed : Allowed [] traced (.sysEnterMunmap thread addr ctx)) :
    Inv (step traced (.sysEnterMunmap thread addr ctx)) := by
  obtain ⟨hlookup, hnodup⟩ := freeEnter_eq ctx thread.tgid addr traced.maps h.nodup
  have hsums := (freeEnter_balanced_iff ctx thread.tgid addr traced.maps).mpr hallowed
  refine ⟨hnodup, ⟨fun pa => ?_, fun stackId => ?_⟩, fun pa hdue => ?_⟩
  · simp only [step, run, hlookup, Function.update_apply]
    split_ifs
    · rfl
    · exact h.accounted.1 pa
  · have hbefore := h.accounted.2 stackId
    have hchange := hsums stackId
    simp only [step, run]
    omega
  · simp only [step, Function.update_apply] at hdue
    split_ifs at hdue
    · exact absurd rfl hdue
    · exact h.answered pa hdue

theorem Inv.step (h : Inv traced) {done : List Event} {event : Event}
    (hallowed : Allowed done traced event) : Inv (step traced event) := by
  cases event with
  | sysEnterMmap thread len => exact ⟨h.nodup, h.accounted, h.answered⟩
  | sysExitMmap thread ret ctx => exact h.sysExitMmap hallowed
  | sysEnterMunmap thread addr ctx => exact h.sysEnterMunmap hallowed

instance (done : List Event) (traced : Traced) : ∀ event, Decidable (Legal done traced event)
  | .sysEnterMmap thread _ => inferInstanceAs (Decidable (traced.passed thread = none))
  | .sysExitMmap thread _ _ => inferInstanceAs (Decidable ((traced.passed thread).isSome))
  | .sysEnterMunmap thread _ _ => inferInstanceAs (Decidable (traced.passed thread = none))

end Gopher.StackProbe.MemleakFp
