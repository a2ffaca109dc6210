import Gopher.Lib.HashTable
import Gopher.Lib.Text
import Gopher.Object
import Mathlib.Data.List.Count
import Mathlib.Data.List.Perm.Basic

namespace Gopher.NsProbe

open Lib Object

def CONTAINER_ABBR_ID_LEN : ℕ := 12

inductive ContainerStatus
  | running
  | restarting
  | stop
  deriving DecidableEq

structure ContainerInfo where
  status : ContainerStatus
  abbrContainerId : Text
  deriving DecidableEq

-- struct container_value, as far as objects are concerned. `valid` is the bit
-- CONTAINER_FLAGS_VALID of `flags`.
structure ContainerValue where
  valid : Bool
  procId : UInt32
  cpucgInode : UInt32
  memcgInode : UInt32
  pidcgInode : UInt32
  mntNsId : UInt32
  netNsId : UInt32
  deriving DecidableEq

-- struct container_hash_t
structure ContainerHash where
  containerId : Text
  v : ContainerValue
  deriving DecidableEq

structure ProbeParams where
  filterTaskProbe : Bool
  filterPid : UInt32

-- What one round finds: the list of containers, what the filter is told about them, and
-- the ids read for a container that is added. `none` is a failed call.
structure Round where
  params : ProbeParams
  containers : Option (List ContainerInfo)
  getContainerPid : Text → Option UInt32
  isProcExist : UInt32 → Bool
  procId : Text → Option UInt32
  cpucgInode : Text → Option UInt32
  memcgInode : Text → Option UInt32
  pidcgInode : Text → Option UInt32
  mntNsId : Text → Option UInt32
  netNsId : Text → Option UInt32

-- The table behind `*pphead`, the item added last first, and the calls made to the
-- object module.
structure State where
  table : List ContainerHash
  calls : List ObjCall

def State.initial : State := { table := [], calls := [] }

-- The objects of a container, in the order in which they are added and put.
def cgrpObjs (container : ContainerValue) : List Obj :=
  [.cgrp ⟨container.cpucgInode, .cpuacct⟩, .cgrp ⟨container.memcgInode, .mem⟩,
    .cgrp ⟨container.pidcgInode, .pids⟩]

def nmObjs (container : ContainerValue) : List Obj :=
  [.nm ⟨container.mntNsId, .mnt⟩, .nm ⟨container.netNsId, .net⟩]

def addCgrpObj (container : ContainerValue) : List ObjCall :=
  (cgrpObjs container).map .add

def putCgrpObj (container : ContainerValue) : List ObjCall :=
  (cgrpObjs container).map .put

def addNmObj (container : ContainerValue) : List ObjCall :=
  (nmObjs container).map .add

def putNmObj (container : ContainerValue) : List ObjCall :=
  (nmObjs container).map .put

def isValidTgid (round : Round) (pid : UInt32) : Bool :=
  if round.params.filterTaskProbe then round.isProcExist pid
  else if round.params.filterPid ≠ 0 then pid == round.params.filterPid
  else true

def filterContainer (round : Round) (containerId : Text) : Bool :=
  match round.getContainerPid containerId with
  | none => true
  | some pid => !isValidTgid round pid

-- The value is all zeros before, so every id is read.
def initContainer (round : Round) (containerId : Text) : ContainerValue :=
  { valid := true
    procId := (round.procId containerId).getD 0
    cpucgInode := (round.cpucgInode containerId).getD 0
    memcgInode := (round.memcgInode containerId).getD 0
    pidcgInode := (round.pidcgInode containerId).getD 0
    mntNsId := (round.mntNsId containerId).getD 0
    netNsId := (round.netNsId containerId).getD 0 }

def putObjs (item : ContainerHash) : List ObjCall := putCgrpObj item.v ++ putNmObj item.v

def clearInvalidItems (state : State) : State :=
  { table := state.table.filter fun item => item.v.valid
    calls := state.calls ++
      (state.table.reverse.filter fun item => !item.v.valid).flatMap putObjs }

def setContainerInvalid (table : List ContainerHash) : List ContainerHash :=
  table.map fun item => { item with v := { item.v with valid := false } }

def addContainer (round : Round) (containerId : Text) (state : State) : State :=
  let containerId := containerId.take CONTAINER_ABBR_ID_LEN
  let v := initContainer round containerId
  { table := { containerId, v } :: state.table
    calls := state.calls ++ addCgrpObj v ++ addNmObj v }

def findContainer (containerId : Text) (table : List ContainerHash) : Option ContainerHash :=
  HashTable.find ContainerHash.containerId table (containerId.take CONTAINER_ABBR_ID_LEN)

-- One container of the list.
def getContainer (round : Round) (state : State) (info : ContainerInfo) : State :=
  if info.status ≠ .running then state
  else if filterContainer round info.abbrContainerId then state
  else
    match findContainer info.abbrContainerId state.table with
    | none => addContainer round info.abbrContainerId state
    | some item =>
        { state with
          table := HashTable.modify ContainerHash.containerId
            (fun item => { item with v := { item.v with valid := true } })
            state.table item.containerId }

def getContainers (round : Round) (state : State) : State :=
  clearInvalidItems
    ((round.containers.getD []).foldl (getContainer round)
      { state with table := setContainerInvalid state.table })

def putContainers (state : State) : State :=
  { table := [], calls := state.calls ++ state.table.reverse.flatMap putObjs }

-- The objects an item refers to.
def ContainerHash.objs (item : ContainerHash) : List Obj := cgrpObjs item.v ++ nmObjs item.v

-- The containers of a table with their objects, whatever the flags.
def entries (table : List ContainerHash) : List (Text × List Obj) :=
  table.map fun item => (item.containerId, item.objs)

def addsOf (entered : List (Text × List Obj)) : List ObjCall :=
  entered.flatMap fun entry => entry.2.map .add

def putsOf (left : List (Text × List Obj)) : List ObjCall :=
  left.flatMap fun entry => entry.2.map .put

-- The container is running and passes the filter.
def Listed (round : Round) (infos : List ContainerInfo) (containerId : Text) : Prop :=
  ∃ info ∈ infos, info.status = .running ∧ filterContainer round info.abbrContainerId = false ∧
    info.abbrContainerId.take CONTAINER_ABBR_ID_LEN = containerId

-- While the list is gone through: the valid items are those seen in it, and the items
-- are the old ones and the ones that entered.
structure Marked (round : Round) (infos : List ContainerInfo) (before : State)
    (entered : List (Text × List Obj)) (state : State) : Prop where
  nodup : (state.table.map ContainerHash.containerId).Nodup
  calls_eq : state.calls = before.calls ++ addsOf entered
  perm : (entered ++ entries before.table).Perm (entries state.table)
  valid_iff : ∀ item ∈ state.table, item.v.valid = true ↔ Listed round infos item.containerId
  held : ∀ containerId, Listed round infos containerId →
    ∃ item ∈ state.table, item.containerId = containerId
  entered : ∀ entry ∈ entered, Listed round infos entry.1 ∧
    ∀ item ∈ before.table, item.containerId ≠ entry.1

variable {round : Round} {infos : List ContainerInfo} {info : ContainerInfo}
  {before state : State} {entered : List (Text × List Obj)}

theorem listed_concat (containerId : Text) : Listed round (infos ++ [info]) containerId ↔
    Listed round infos containerId ∨ info.status = .running ∧
      filterContainer round info.abbrContainerId = false ∧
      info.abbrContainerId.take CONTAINER_ABBR_ID_LEN = containerId := by
  constructor
  · rintro ⟨other, hother, hlisted⟩
    rcases List.mem_append.mp hother with hold | hnew
    · exact .inl ⟨other, hold, hlisted⟩
    · rw [List.mem_singleton.mp hnew] at hlisted
      exact .inr hlisted
  · rintro (⟨other, hother, hlisted⟩ | hlisted)
    · exact ⟨other, List.mem_append_left _ hother, hlisted⟩
    · exact ⟨info, List.mem_append_right _ (List.mem_singleton_self _), hlisted⟩

theorem listed_concat_of_running (hrunning : info.status = .running)
    (hpass : filterContainer round info.abbrContainerId = false) (containerId : Text) :
    Listed round (infos ++ [info]) containerId ↔ Listed round infos containerId ∨
      info.abbrContainerId.take CONTAINER_ABBR_ID_LEN = containerId := by
  rw [listed_concat]
  exact or_congr_right ⟨fun hboth => hboth.2.2, fun heq => ⟨hrunning, hpass, heq⟩⟩

theorem entries_setContainerInvalid (table : List ContainerHash) :
    entries (setContainerInvalid table) = entries table := by
  rw [entries, setContainerInvalid, List.map_map]
  rfl

theorem Marked.start (round : Round) (hnodup : (before.table.map ContainerHash.containerId).Nodup) :
    Marked round [] before [] { before with table := setContainerInvalid before.table } := by
  constructor
  · have hsame : (setContainerInvalid before.table).map ContainerHash.containerId =
        before.table.map ContainerHash.containerId := by
      rw [setContainerInvalid, List.map_map]
      rfl
    rwa [hsame]
  · exact (List.append_nil _).symm
  · rw [entries_setContainerInvalid]
    exact List.Perm.refl _
  · intro item hitem
    obtain ⟨old, -, rfl⟩ := List.mem_map.mp hitem
    refine iff_of_false Bool.false_ne_true ?_
    rintro ⟨info, hinfo, -⟩
    exact absurd hinfo List.not_mem_nil
  · rintro containerId ⟨info, hinfo, -⟩
    exact absurd hinfo List.not_mem_nil
  · intro entry hentry
    exact absurd hentry List.not_mem_nil

-- A container that is not running, or is filtered out.
theorem Marked.skip (h : Marked round infos before entered state)
    (hskip : ¬ (info.status = .running ∧ filterContainer round info.abbrContainerId = false)) :
    Marked round (infos ++ [info]) before entered state := by
  have hlisted : ∀ containerId, Listed round (infos ++ [info]) containerId ↔
      Listed round infos containerId := by
    intro containerId
    rw [listed_concat]
    refine or_iff_left ?_
    rintro ⟨hrunning, hpass, -⟩
    exact hskip ⟨hrunning, hpass⟩
  refine ⟨h.nodup, h.calls_eq, h.perm, ?_, ?_, ?_⟩
  · simpa only [hlisted] using h.valid_iff
  · simpa only [hlisted] using h.held
  · simpa only [hlisted] using h.entered

-- A container that is in the table already.
theorem Marked.keep (h : Marked round infos before entered state) {item : ContainerHash}
    (hrunning : info.status = .running)
    (hpass : filterContainer round info.abbrContainerId = false)
    (hfind : findContainer info.abbrContainerId state.table = some item) :
    Marked round (infos ++ [info]) before entered
      { state with
        table := HashTable.modify ContainerHash.containerId
          (fun item => { item with v := { item.v with valid := true } })
          state.table item.containerId } := by
  have hid : item.containerId = info.abbrContainerId.take CONTAINER_ABBR_ID_LEN :=
    HashTable.key_of_find hfind
  have hkey : ∀ item : ContainerHash, ContainerHash.containerId
      { item with v := { item.v with valid := true } } = item.containerId := fun _ => rfl
  have hlisted : ∀ containerId, Listed round (infos ++ [info]) containerId ↔
      Listed round infos containerId ∨ item.containerId = containerId := by
    rw [hid]
    exact listed_concat_of_running hrunning hpass
  have hmem : ∀ other : ContainerHash, other ∈ HashTable.modify ContainerHash.containerId
      (fun item => { item with v := { item.v with valid := true } }) state.table
        item.containerId ↔
      other ∈ state.table ∧ other.containerId ≠ item.containerId ∨
        other = { item with v := { item.v with valid := true } } := by
    intro other
    have hsame : HashTable.find ContainerHash.containerId state.table item.containerId =
        some item := by
      rw [hid]
      exact hfind
    rw [HashTable.mem_modify h.nodup, hsame]
    simp
  refine ⟨?_, h.calls_eq, ?_, fun other hother => ?_, fun containerId hcontainer => ?_,
    fun entry hentry => ?_⟩
  · rw [HashTable.map_key_modify hkey]
    exact h.nodup
  · have hentries : entries (HashTable.modify ContainerHash.containerId
        (fun item => { item with v := { item.v with valid := true } }) state.table
          item.containerId) = entries state.table := by
      apply HashTable.map_modify
      exact fun _ => rfl
    rw [hentries]
    exact h.perm
  · rw [hlisted]
    rcases (hmem other).mp hother with ⟨hold, hne⟩ | rfl
    · rw [h.valid_iff other hold]
      exact (or_iff_left (Ne.symm hne)).symm
    · exact iff_of_true rfl (.inr rfl)
  · rcases (hlisted containerId).mp hcontainer with hold | rfl
    · obtain ⟨other, hother, heq⟩ := h.held containerId hold
      by_cases hsame : other.containerId = item.containerId
      · exact ⟨_, (hmem _).mpr (.inr rfl), hsame.symm.trans heq⟩
      · exact ⟨other, (hmem _).mpr (.inl ⟨hother, hsame⟩), heq⟩
    · exact ⟨_, (hmem _).mpr (.inr rfl), rfl⟩
  · obtain ⟨hold, hfresh⟩ := h.entered entry hentry
    exact ⟨(hlisted entry.1).mpr (.inl hold), hfresh⟩

-- A container that is new in the table.
theorem Marked.add (h : Marked round infos before entered state)
    (hrunning : info.status = .running)
    (hpass : filterContainer round info.abbrContainerId = false)
    (hfind : findContainer info.abbrContainerId state.table = none) :
    ∃ entry, Marked round (infos ++ [info]) before (entered ++ [entry])
      (addContainer round info.abbrContainerId state) := by
  have hlisted : ∀ containerId, Listed round (infos ++ [info]) containerId ↔
      Listed round infos containerId ∨
        info.abbrContainerId.take CONTAINER_ABBR_ID_LEN = containerId :=
    listed_concat_of_running hrunning hpass
  have hfresh : HashTable.find ContainerHash.containerId state.table
      (info.abbrContainerId.take CONTAINER_ABBR_ID_LEN) = none := hfind
  have hnone := HashTable.find_eq_none.mp hfresh
  have hbefore : ∀ item ∈ before.table,
      item.containerId ≠ info.abbrContainerId.take CONTAINER_ABBR_ID_LEN := by
    intro item hitem
    have hentry : (item.containerId, item.objs) ∈ entries state.table :=
      h.perm.subset (List.mem_append_right _ (List.mem_map_of_mem hitem))
    obtain ⟨other, hother, heq⟩ := List.mem_map.mp hentry
    rw [← (Prod.mk.inj heq).1]
    exact hnone other hother
  have hvalid : (initContainer round
      (info.abbrContainerId.take CONTAINER_ABBR_ID_LEN)).valid = true := rfl
  rw [addContainer]
  generalize initContainer round (info.abbrContainerId.take CONTAINER_ABBR_ID_LEN) = v at hvalid
  clear hfind
  generalize info.abbrContainerId.take CONTAINER_ABBR_ID_LEN = containerId at *
  refine ⟨(containerId, cgrpObjs v ++ nmObjs v), ?_, ?_, ?_,
    fun item hitem => ?_, fun other hother => ?_, fun entry hentry => ?_⟩
  · apply HashTable.nodup_cons
    · exact hfresh
    · exact h.nodup
  · simp [h.calls_eq, addsOf, addCgrpObj, addNmObj]
  · have hnew : entries ({ containerId, v } :: state.table) =
        (containerId, cgrpObjs v ++ nmObjs v) :: entries state.table := rfl
    rw [hnew, List.append_assoc, List.singleton_append]
    exact List.perm_middle.trans (h.perm.cons _)
  · rw [hlisted]
    rcases List.mem_cons.mp hitem with rfl | hold
    · exact iff_of_true hvalid (.inr rfl)
    · rw [h.valid_iff item hold]
      exact (or_iff_left (Ne.symm (hnone item hold))).symm
  · rcases (hlisted other).mp hother with hold | rfl
    · obtain ⟨item, hitem, heq⟩ := h.held other hold
      exact ⟨item, List.mem_cons_of_mem _ hitem, heq⟩
    · exact ⟨_, List.mem_cons_self, rfl⟩
  · rcases List.mem_append.mp hentry with hold | hnew
    · obtain ⟨hentered, hfresh⟩ := h.entered entry hold
      exact ⟨(hlisted entry.1).mpr (.inl hentered), hfresh⟩
    · rw [List.mem_singleton.mp hnew]
      exact ⟨(hlisted containerId).mpr (.inr rfl), hbefore⟩

-- The whole list.
theorem Marked.foldl (round : Round) (infos : List ContainerInfo)
    (hnodup : (before.table.map ContainerHash.containerId).Nodup) :
    ∃ entered, Marked round infos before entered (infos.foldl (getContainer round)
      { before with table := setContainerInvalid before.table }) := by
  induction infos using List.reverseRecOn with
  | nil => exact ⟨[], Marked.start round hnodup⟩
  | append_singleton infos info ih =>
      obtain ⟨entered, h⟩ := ih
      rw [List.foldl_append, List.foldl_cons, List.foldl_nil]
      generalize infos.foldl (getContainer round)
        { before with table := setContainerInvalid before.table } = state at h
      rw [getContainer]
      split_ifs with hstatus hfilter
      · exact ⟨entered, h.skip fun hboth => hstatus hboth.1⟩
      · exact ⟨entered, h.skip fun hboth => by simp [hfilter] at hboth⟩
      · have hrunning : info.status = .running := not_not.mp hstatus
        have hpass : filterContainer round info.abbrContainerId = false := by simpa using hfilter
        cases hfind : findContainer info.abbrContainerId state.table with
        | none =>
            obtain ⟨entry, hadd⟩ := h.add hrunning hpass hfind
            exact ⟨entered ++ [entry], hadd⟩
        | some item => exact ⟨entered, h.keep hrunning hpass hfind⟩

-- One round: what enters is added, and what leaves is put once, with the ids that it had
-- in the table.
structure Swept (round : Round) (before after : State) (entered left : List (Text × List Obj)) :
    Prop where
  nodup : (after.table.map ContainerHash.containerId).Nodup
  once : ((left ++ entries after.table).map Prod.fst).Nodup
  holds : ∀ containerId, (∃ item ∈ after.table, item.containerId = containerId) ↔
    Listed round (round.containers.getD []) containerId
  calls_eq : after.calls = before.calls ++ addsOf entered ++ putsOf left
  perm : (entered ++ entries before.table).Perm (left ++ entries after.table)
  entered : ∀ entry ∈ entered, Listed round (round.containers.getD []) entry.1 ∧
    ∀ item ∈ before.table, item.containerId ≠ entry.1
  left : ∀ entry ∈ left, ¬ Listed round (round.containers.getD []) entry.1

theorem putObjs_eq (items : List ContainerHash) : items.flatMap putObjs = putsOf (entries items) := by
  induction items with
  | nil => rfl
  | cons item items ih =>
      rw [List.flatMap_cons, ih]
      simp [putsOf, entries, putObjs, putCgrpObj, putNmObj, ContainerHash.objs]

theorem getContainers_swept (round : Round)
    (hnodup : (before.table.map ContainerHash.containerId).Nodup) :
    ∃ entered left, Swept round before (getContainers round before) entered left := by
  obtain ⟨entered, h⟩ := Marked.foldl round (round.containers.getD []) hnodup
  rw [getContainers]
  generalize (round.containers.getD []).foldl (getContainer round)
    { before with table := setContainerInvalid before.table } = state at h
  have hperm : ((state.table.reverse.filter fun item => !item.v.valid) ++
      state.table.filter fun item => item.v.valid).Perm state.table :=
    (((List.reverse_perm state.table).filter _).append_right _).trans
      (List.perm_append_comm.trans (List.filter_append_perm _ _))
  have hentries := (hperm.map fun item => (item.containerId, item.objs)).symm
  rw [List.map_append] at hentries
  refine ⟨entered, entries (state.table.reverse.filter fun item => !item.v.valid), ?_, ?_, ?_, ?_,
    ?_, h.entered, ?_⟩
  · exact h.nodup.sublist (List.filter_sublist.map _)
  · have hids : (entries state.table).map Prod.fst = state.table.map ContainerHash.containerId := by
      rw [entries, List.map_map]
      rfl
    apply (hentries.map Prod.fst).nodup
    rw [← entries, hids]
    exact h.nodup
  · intro containerId
    constructor
    · rintro ⟨item, hitem, rfl⟩
      obtain ⟨hmem, hvalid⟩ := List.mem_filter.mp hitem
      exact (h.valid_iff item hmem).mp hvalid
    · intro hlisted
      obtain ⟨item, hitem, rfl⟩ := h.held containerId hlisted
      exact ⟨item, List.mem_filter.mpr ⟨hitem, (h.valid_iff item hitem).mpr hlisted⟩, rfl⟩
  · rw [clearInvalidItems, putObjs_eq, h.calls_eq]
  · exact h.perm.trans hentries
  · intro entry hentry
    obtain ⟨item, hitem, rfl⟩ := List.mem_map.mp hentry
    obtain ⟨hmem, hinvalid⟩ := List.mem_filter.mp hitem
    rw [← h.valid_iff item (List.mem_reverse.mp hmem)]
    simpa using hinvalid

-- How often the containers refer to an object.
def refs (containers : List (Text × List Obj)) (obj : Obj) : ℕ :=
  (containers.flatMap fun entry => entry.2).count obj

theorem refs_append (left right : List (Text × List Obj)) (obj : Obj) :
    refs (left ++ right) obj = refs left obj + refs right obj := by
  rw [refs, List.flatMap_append, List.count_append]
  rfl

theorem refs_perm {left right : List (Text × List Obj)} (hperm : left.Perm right) (obj : Obj) :
    refs left obj = refs right obj :=
  (hperm.flatMap_right _).count_eq obj

theorem ContainerHash.nodup_objs (item : ContainerHash) : item.objs.Nodup := by
  simp [ContainerHash.objs, cgrpObjs, nmObjs]

-- No container refers to an object twice.
theorem refs_entries (table : List ContainerHash) (obj : Obj) :
    refs (entries table) obj = (table.filter fun item => obj ∈ item.objs).length := by
  induction table with
  | nil => rfl
  | cons item table ih =>
      have hcons : refs (entries (item :: table)) obj =
          item.objs.count obj + refs (entries table) obj := by
        simp [refs, entries]
      rw [hcons, ih, List.filter_cons]
      by_cases hobj : obj ∈ item.objs
      · rw [List.count_eq_one_of_mem item.nodup_objs hobj]
        simp [hobj, Nat.add_comm]
      · rw [List.count_eq_zero_of_not_mem hobj]
        simp [hobj]

theorem adds_addsOf (calls : List ObjCall) (entered left : List (Text × List Obj)) (obj : Obj) :
    adds (calls ++ addsOf entered ++ putsOf left) obj = adds calls obj + refs entered obj := by
  have hadds : (addsOf entered).count (.add obj) = refs entered obj := by
    rw [addsOf, ← List.map_flatMap, List.count_map_of_injective _ _ fun _ _ => ObjCall.add.inj]
    rfl
  have hputs : (putsOf left).count (.add obj) = 0 := by
    simp [putsOf, List.count_eq_zero]
  simp only [adds, List.count_append, hadds, hputs, Nat.add_zero]

theorem puts_putsOf (calls : List ObjCall) (entered left : List (Text × List Obj)) (obj : Obj) :
    puts (calls ++ addsOf entered ++ putsOf left) obj = puts calls obj + refs left obj := by
  have hadds : (addsOf entered).count (.put obj) = 0 := by
    simp [addsOf, List.count_eq_zero]
  have hputs : (putsOf left).count (.put obj) = refs left obj := by
    rw [putsOf, ← List.map_flatMap, List.count_map_of_injective _ _ fun _ _ => ObjCall.put.inj]
    rfl
  simp only [puts, List.count_append, hadds, hputs, Nat.add_zero]

-- Every object is held once by each of the containers that refer to it.
structure Balanced (state : State) : Prop where
  nodup : (state.table.map ContainerHash.containerId).Nodup
  adds_eq : ∀ obj, adds state.calls obj =
    puts state.calls obj + (state.table.filter fun item => obj ∈ item.objs).length

theorem Balanced.getContainers (h : Balanced before) (round : Round) :
    Balanced (getContainers round before) := by
  obtain ⟨entered, left, hswept⟩ := getContainers_swept round h.nodup
  refine ⟨hswept.nodup, fun obj => ?_⟩
  have hrefs : refs entered obj + refs (entries before.table) obj =
      refs left obj + refs (entries (NsProbe.getContainers round before).table) obj := by
    rw [← refs_append, ← refs_append]
    exact refs_perm hswept.perm obj
  have hbefore := h.adds_eq obj
  rw [← refs_entries] at hbefore ⊢
  rw [hswept.calls_eq, adds_addsOf, puts_putsOf]
  omega

theorem Balanced.rounds (rounds : List Round) :
    Balanced (rounds.foldl (fun state round => NsProbe.getContainers round state) State.initial) := by
  induction rounds using List.reverseRecOn with
  | nil => exact ⟨List.nodup_nil, fun _ => rfl⟩
  | append_singleton rounds round ih =>
      rw [List.foldl_append]
      exact ih.getContainers round

-- After any rounds the table holds the listed containers, each once, and its objects are
-- those added and not put: what entered was added, and what left was put with the ids it
-- had in the table.
theorem getContainers_balanced (rounds : List Round) (round : Round) :
    let before := rounds.foldl (fun state round => getContainers round state) State.initial
    let after := getContainers round before
    (∃ entered left, Swept round before after entered left) ∧
      ∀ obj, adds after.calls obj =
        puts after.calls obj + (after.table.filter fun item => obj ∈ item.objs).length := by
  intro before after
  have hbalanced : Balanced before := Balanced.rounds rounds
  exact ⟨getContainers_swept round hbalanced.nodup, (hbalanced.getContainers round).adds_eq⟩

-- At the end everything is put.
theorem putContainers_released (rounds : List Round) (obj : Obj) :
    let after := putContainers
      (rounds.foldl (fun state round => getContainers round state) State.initial)
    adds after.calls obj = puts after.calls obj := by
  intro after
  have hbalanced := Balanced.rounds rounds
  have hcalls : after = putContainers
      (rounds.foldl (fun state round => getContainers round state) State.initial) := rfl
  generalize rounds.foldl (fun state round => getContainers round state) State.initial = before
    at hbalanced hcalls
  have hbefore := hbalanced.adds_eq obj
  have hrefs : refs (entries before.table.reverse) obj = refs (entries before.table) obj :=
    refs_perm ((List.reverse_perm before.table).map _) obj
  have hempty := adds_addsOf before.calls [] (entries before.table.reverse) obj
  have hput := puts_putsOf before.calls [] (entries before.table.reverse) obj
  rw [← refs_entries] at hbefore
  rw [hcalls, putContainers, putObjs_eq]
  simp only [addsOf, List.flatMap_nil, List.append_nil] at hempty hput
  rw [hempty, hput, hrefs, hbefore]
  rfl

end Gopher.NsProbe
