import Gopher.Lib.Run
import Mathlib.Data.Int.Notation
import Mathlib.Logic.Function.Basic
import Mathlib.Tactic.SplitIfs

namespace Gopher.Object

inductive CgpType
  | cpuacct
  | mem
  | blkio
  | pids
  | net
  | hugetlb
  deriving DecidableEq, Repr

inductive NmType
  | cgrp
  | mnt
  | net
  | pid
  deriving DecidableEq, Repr

structure ProcS where
  procId : UInt32
  deriving DecidableEq, Repr

structure CgroupS where
  knid : UInt32
  type : CgpType
  deriving DecidableEq, Repr

structure NmS where
  id : UInt32
  type : NmType
  deriving DecidableEq, Repr

structure ObjRefS where
  count : UInt32
  deriving DecidableEq, Repr

-- A BPF map behind its descriptor, which is positive once the map is open.
structure ObjMap (κ : Type*) where
  fd : ℤ
  elems : κ → Option ObjRefS

section Map

variable {κ : Type*} [DecidableEq κ]

-- 0 and the stored value, or a negative number and the buffer as it was.
def bpfMapLookupElem (map : ObjMap κ) (key : κ) (ref : ObjRefS) : ℤ × ObjRefS :=
  match map.elems key with
  | some stored => (0, stored)
  | none => (-1, ref)

-- `BPF_ANY`: the element is created or overwritten.
def bpfMapUpdateElem (map : ObjMap κ) (key : κ) (ref : ObjRefS) : ℤ × ObjMap κ :=
  (0, { map with elems := Function.update map.elems key (some ref) })

def bpfMapDeleteElem (map : ObjMap κ) (key : κ) : ℤ × ObjMap κ :=
  match map.elems key with
  | some _ => (0, { map with elems := Function.update map.elems key none })
  | none => (-1, map)

def objPut (map : ObjMap κ) (obj : κ) : ℤ × ObjMap κ :=
  if map.fd ≤ 0 then (-1, map)
  else
    let (ret, ref) := bpfMapLookupElem map obj ⟨0⟩
    if ret < 0 then (ret, map)
    else
      let ref : ObjRefS := if 0 < ref.count then ⟨ref.count - 1⟩ else ref
      if ref.count = 0 then bpfMapDeleteElem map obj else bpfMapUpdateElem map obj ref

-- The count becomes 1 when the lookup returns 0, that is when the object is present.
def objAdd (map : ObjMap κ) (obj : κ) : ℤ × ObjMap κ :=
  if map.fd ≤ 0 then (-1, map)
  else
    let (ret, ref) := bpfMapLookupElem map obj ⟨0⟩
    if ret = 0 then bpfMapUpdateElem map obj ⟨1⟩
    else bpfMapUpdateElem map obj ⟨ref.count + 1⟩

end Map

-- The three maps of `struct __obj_s`.
structure ObjModule where
  procMap : ObjMap ProcS
  cgrpMap : ObjMap CgroupS
  nmMap : ObjMap NmS

def procPut (objs : ObjModule) (obj : ProcS) : ℤ × ObjModule :=
  let (ret, map) := objPut objs.procMap obj
  (ret, { objs with procMap := map })

def procAdd (objs : ObjModule) (obj : ProcS) : ℤ × ObjModule :=
  let (ret, map) := objAdd objs.procMap obj
  (ret, { objs with procMap := map })

def cgrpPut (objs : ObjModule) (obj : CgroupS) : ℤ × ObjModule :=
  let (ret, map) := objPut objs.cgrpMap obj
  (ret, { objs with cgrpMap := map })

def cgrpAdd (objs : ObjModule) (obj : CgroupS) : ℤ × ObjModule :=
  let (ret, map) := objAdd objs.cgrpMap obj
  (ret, { objs with cgrpMap := map })

def nmPut (objs : ObjModule) (obj : NmS) : ℤ × ObjModule :=
  let (ret, map) := objPut objs.nmMap obj
  (ret, { objs with nmMap := map })

def nmAdd (objs : ObjModule) (obj : NmS) : ℤ × ObjModule :=
  let (ret, map) := objAdd objs.nmMap obj
  (ret, { objs with nmMap := map })

-- An object of any of the three kinds.
inductive Obj
  | proc (obj : ProcS)
  | cgrp (obj : CgroupS)
  | nm (obj : NmS)
  deriving DecidableEq, Repr

inductive ObjCall
  | add (obj : Obj)
  | put (obj : Obj)
  deriving DecidableEq, Repr

namespace ObjModule

def call (objs : ObjModule) : ObjCall → ObjModule
  | .add (.proc obj) => (procAdd objs obj).2
  | .add (.cgrp obj) => (cgrpAdd objs obj).2
  | .add (.nm obj) => (nmAdd objs obj).2
  | .put (.proc obj) => (procPut objs obj).2
  | .put (.cgrp obj) => (cgrpPut objs obj).2
  | .put (.nm obj) => (nmPut objs obj).2

def fd (objs : ObjModule) : Obj → ℤ
  | .proc _ => objs.procMap.fd
  | .cgrp _ => objs.cgrpMap.fd
  | .nm _ => objs.nmMap.fd

def elems (objs : ObjModule) : Obj → Option ObjRefS
  | .proc obj => objs.procMap.elems obj
  | .cgrp obj => objs.cgrpMap.elems obj
  | .nm obj => objs.nmMap.elems obj

-- The maps under these descriptors before the first call.
def init (procFd cgrpFd nmFd : ℤ) : ObjModule where
  procMap := ⟨procFd, fun _ => none⟩
  cgrpMap := ⟨cgrpFd, fun _ => none⟩
  nmMap := ⟨nmFd, fun _ => none⟩

end ObjModule

open Gopher.Lib

section Map

variable {κ : Type*} [DecidableEq κ] (map : ObjMap κ) (obj : κ)

theorem objAdd_fd : (objAdd map obj).2.fd = map.fd := by
  unfold objAdd bpfMapUpdateElem
  dsimp only
  split_ifs <;> rfl

theorem objPut_fd : (objPut map obj).2.fd = map.fd := by
  unfold objPut bpfMapUpdateElem bpfMapDeleteElem
  dsimp only
  split_ifs <;> first | rfl | (split <;> rfl)

-- Whether the object is present or not, an add leaves the count at 1.
theorem objAdd_elems (hfd : 0 < map.fd) :
    (objAdd map obj).2.elems = Function.update map.elems obj (some ⟨1⟩) := by
  unfold objAdd bpfMapLookupElem
  rw [if_neg (by omega)]
  cases map.elems obj with
  | none => rfl
  | some ref => rfl

theorem objAdd_closed (hfd : ¬0 < map.fd) : (objAdd map obj).2 = map := by
  unfold objAdd
  rw [if_pos (by omega)]

theorem objPut_elems_of_one (hfd : 0 < map.fd) {ref : ObjRefS} (href : map.elems obj = some ref)
    (hcount : ref.count.toNat = 1) :
    (objPut map obj).2.elems = Function.update map.elems obj none := by
  have hone : ref.count = 1 := UInt32.toNat_inj.mp hcount
  unfold objPut bpfMapLookupElem bpfMapDeleteElem
  rw [if_neg (by omega)]
  simp [href, hone]

end Map

namespace ObjModule

@[simp] theorem fd_call (objs : ObjModule) (call : ObjCall) (obj : Obj) :
    (objs.call call).fd obj = objs.fd obj := by
  cases call with
  | add other =>
      cases other <;> cases obj <;>
        simp [ObjModule.call, fd, procAdd, cgrpAdd, nmAdd, objAdd_fd]
  | put other =>
      cases other <;> cases obj <;>
        simp [ObjModule.call, fd, procPut, cgrpPut, nmPut, objPut_fd]

theorem elems_add {objs : ObjModule} {obj : Obj} (hfd : 0 < objs.fd obj) :
    (objs.call (.add obj)).elems = Function.update objs.elems obj (some ⟨1⟩) := by
  funext other
  cases obj <;> cases other <;>
    simp_all [call, fd, elems, procAdd, cgrpAdd, nmAdd, objAdd_elems, Function.update_apply]

theorem call_closed {objs : ObjModule} {obj : Obj} (hfd : ¬0 < objs.fd obj) :
    objs.call (.add obj) = objs := by
  cases obj <;> simp_all [call, fd, procAdd, cgrpAdd, nmAdd, objAdd_closed]

theorem elems_put {objs : ObjModule} {obj : Obj} (hfd : 0 < objs.fd obj) {ref : ObjRefS}
    (href : objs.elems obj = some ref) (hcount : ref.count.toNat = 1) :
    (objs.call (.put obj)).elems = Function.update objs.elems obj none := by
  funext other
  cases obj <;> cases other <;>
    simp_all [call, fd, elems, procPut, cgrpPut, nmPut, Function.update_apply,
      objPut_elems_of_one _ _ _ href hcount]

end ObjModule

def adds (calls : List ObjCall) (obj : Obj) : ℕ := calls.count (.add obj)

def puts (calls : List ObjCall) (obj : Obj) : ℕ := calls.count (.put obj)

-- An object is in its map exactly while it was added more often than put, and the
-- stored count is the difference.
def Counted (calls : List ObjCall) (objs : ObjModule) : Prop :=
  ∀ obj, ((objs.elems obj).isSome ↔ puts calls obj < adds calls obj) ∧
    ∀ ref, objs.elems obj = some ref → ref.count.toNat = adds calls obj - puts calls obj

-- Nothing is put more often than it was added before.
def PutsAdded (calls : List ObjCall) (_objs : ObjModule) : ObjCall → Prop
  | .add _ => True
  | .put obj => puts calls obj < adds calls obj

-- An add finds its map open and no reference to the object left.
def AddsReleased (calls : List ObjCall) (objs : ObjModule) : ObjCall → Prop
  | .add obj => 0 < objs.fd obj ∧ adds calls obj = puts calls obj
  | .put _ => True

instance (calls : List ObjCall) (objs : ObjModule) : ∀ call, Decidable (PutsAdded calls objs call)
  | .add _ => inferInstanceAs (Decidable True)
  | .put obj => inferInstanceAs (Decidable (puts calls obj < adds calls obj))

instance (calls : List ObjCall) (objs : ObjModule) :
    ∀ call, Decidable (AddsReleased calls objs call)
  | .add obj => inferInstanceAs (Decidable (0 < objs.fd obj ∧ adds calls obj = puts calls obj))
  | .put _ => inferInstanceAs (Decidable True)

-- What holds while no object is added twice: every count is at most 1, and what is
-- counted lies in an open map.
structure SingleRefs (calls : List ObjCall) (objs : ObjModule) : Prop where
  counted : Counted calls objs
  balanced : ∀ obj, puts calls obj ≤ adds calls obj ∧ adds calls obj ≤ puts calls obj + 1
  opened : ∀ obj, puts calls obj < adds calls obj → 0 < objs.fd obj

section Step

variable {calls : List ObjCall} {objs : ObjModule} {obj : Obj}

theorem counts_add (calls : List ObjCall) (obj other : Obj) :
    adds (calls ++ [.add obj]) other = adds calls other + (if other = obj then 1 else 0) ∧
      puts (calls ++ [.add obj]) other = puts calls other := by
  constructor
  · simp only [adds, List.count_append, List.count_singleton, beq_iff_eq, ObjCall.add.injEq]
    simp only [eq_comm]
  · simp [puts, List.count_append]

theorem counts_put (calls : List ObjCall) (obj other : Obj) :
    adds (calls ++ [.put obj]) other = adds calls other ∧
      puts (calls ++ [.put obj]) other = puts calls other + (if other = obj then 1 else 0) := by
  constructor
  · simp [adds, List.count_append]
  · simp only [puts, List.count_append, List.count_singleton, beq_iff_eq, ObjCall.put.injEq]
    simp only [eq_comm]

theorem SingleRefs.add (h : SingleRefs calls objs) (hfd : 0 < objs.fd obj)
    (hreleased : adds calls obj = puts calls obj) :
    SingleRefs (calls ++ [.add obj]) (objs.call (.add obj)) := by
  refine ⟨fun other => ?_, fun other => ?_, fun other => ?_⟩
  · obtain ⟨hadds, hputs⟩ := counts_add calls obj other
    rw [ObjModule.elems_add hfd, hadds, hputs]
    by_cases hother : other = obj
    · subst hother
      simp [hreleased]
    · simpa [Function.update_of_ne hother, hother] using h.counted other
  · obtain ⟨hadds, hputs⟩ := counts_add calls obj other
    have hbalanced := h.balanced other
    split_ifs at hadds with hother
    · subst hother
      omega
    · omega
  · obtain ⟨hadds, hputs⟩ := counts_add calls obj other
    rw [ObjModule.fd_call]
    intro hheld
    split_ifs at hadds with hother
    · subst hother
      exact hfd
    · exact h.opened other (by omega)

theorem SingleRefs.put (h : SingleRefs calls objs) (hheld : puts calls obj < adds calls obj) :
    SingleRefs (calls ++ [.put obj]) (objs.call (.put obj)) := by
  obtain ⟨hpresent, hcount⟩ := h.counted obj
  obtain ⟨ref, href⟩ := Option.isSome_iff_exists.mp (hpresent.mpr hheld)
  have hone : ref.count.toNat = 1 := by
    have hle := (h.balanced obj).2
    have hdiff := hcount ref href
    omega
  refine ⟨fun other => ?_, fun other => ?_, fun other => ?_⟩
  · obtain ⟨hadds, hputs⟩ := counts_put calls obj other
    rw [ObjModule.elems_put (h.opened obj hheld) href hone, hadds, hputs]
    by_cases hother : other = obj
    · subst hother
      have hle := (h.balanced other).2
      simp only [Function.update_self, Option.isSome_none, Bool.false_eq_true, ite_true, false_iff,
        reduceCtorEq, false_implies, implies_true, and_true]
      omega
    · simpa [Function.update_of_ne hother, hother] using h.counted other
  · obtain ⟨hadds, hputs⟩ := counts_put calls obj other
    have hbalanced := h.balanced other
    split_ifs at hputs with hother
    · subst hother
      omega
    · omega
  · obtain ⟨hadds, hputs⟩ := counts_put calls obj other
    rw [ObjModule.fd_call]
    intro hstill
    exact h.opened other (by omega)

-- A second add of a held object stores 1 again, and an add to a closed map nothing.
theorem released_of_counted (h : SingleRefs calls objs)
    (hcounted : Counted (calls ++ [.add obj]) (objs.call (.add obj))) :
    0 < objs.fd obj ∧ adds calls obj = puts calls obj := by
  obtain ⟨hadds, hputs⟩ := counts_add calls obj obj
  rw [if_pos rfl] at hadds
  have hbalanced := h.balanced obj
  by_cases hfd : 0 < objs.fd obj
  · refine ⟨hfd, ?_⟩
    have hcount := (hcounted obj).2 ⟨1⟩ (by rw [ObjModule.elems_add hfd, Function.update_self])
    have hone : (1 : UInt32).toNat = 1 := rfl
    dsimp only at hcount
    omega
  · have hpresent := (hcounted obj).1.mpr (by omega)
    rw [ObjModule.call_closed hfd] at hpresent
    exact absurd (h.opened obj ((h.counted obj).1.mp hpresent)) hfd

end Step

theorem counted_iff (procFd cgrpFd nmFd : ℤ) (calls : List ObjCall)
    (hputs : EachStep ObjModule.call (.init procFd cgrpFd nmFd) PutsAdded calls) :
    Throughout ObjModule.call (.init procFd cgrpFd nmFd) Counted calls ↔
      EachStep ObjModule.call (.init procFd cgrpFd nmFd) AddsReleased calls := by
  have hfirst : SingleRefs [] (.init procFd cgrpFd nmFd) := by
    refine ⟨fun obj => ?_, fun obj => ?_, fun obj => ?_⟩
    · cases obj <;> simp [adds, puts, ObjModule.elems, ObjModule.init]
    · simp [adds, puts]
    · simp [adds, puts]
  refine throughout_iff_eachStep SingleRefs hfirst (fun _ _ h => h.counted) ?_ ?_ hputs
  · intro done state call hinv hlegal hallowed
    cases call with
    | add obj => exact hinv.add hallowed.1 hallowed.2
    | put obj => exact hinv.put hlegal
  · intro done state call hinv hlegal hcounted
    cases call with
    | add obj => exact released_of_counted hinv hcounted
    | put obj => trivial

-- Two objects of different kinds, one of them put and added again.
theorem counted_iff_addedAgain :
    Throughout ObjModule.call (.init 3 4 5) Counted
      [.add (.proc ⟨7⟩), .add (.nm ⟨7, .net⟩), .put (.proc ⟨7⟩), .add (.proc ⟨7⟩)] :=
  (counted_iff 3 4 5 _ (by decide)).mpr (by decide)

-- The second add of process 7 stores 1 for two references.
theorem secondAdd_not_counted :
    ¬∀ calls, EachStep ObjModule.call (.init 3 4 5) PutsAdded calls →
      Throughout ObjModule.call (.init 3 4 5) Counted calls := by
  intro h
  have hcounted := (h [.add (.proc ⟨7⟩), .add (.proc ⟨7⟩)] (by decide)).last (.proc ⟨7⟩)
  have hcount := hcounted.2 ⟨1⟩ (by decide)
  exact absurd hcount (by decide)

end Gopher.Object
