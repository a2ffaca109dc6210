import Gopher.Lib.Recent
import Gopher.Lib.Run
import Gopher.Lib.Text
import Mathlib.Data.Int.Notation
import Mathlib.Data.Nat.Notation
import Mathlib.Logic.Function.Basic

namespace Gopher.StackProbe

open Gopher.Lib

def PROC_CACHE_MAX_COUNT : ℕ := 100

-- The hash compares the bytes of the struct, those behind `proc_id` included.
structure StackPid where
  realStartTime : UInt64
  procId : Int32
  padding : UInt32
  deriving DecidableEq, Repr

inductive ModType
  | unknow
  | so
  | exec
  | jvm
  | map
  | vdso
  deriving DecidableEq, Repr

-- `symbsCount` is the one of `mod_symbs`, or `none` where that is NULL.
structure Mod where
  modType : ModType
  name : Text
  symbsCount : Option UInt32
  deriving DecidableEq, Repr

structure ProcSymbs where
  needUpdate : Bool
  mods : List (Option Mod)
  deriving DecidableEq, Repr

structure ProcCache where
  k : StackPid
  procSymbs : ProcSymbs
  deriving DecidableEq, Repr

abbrev Address := ℕ

-- The hash table and the first `proc_cache_mirro_count` slots of the array hold
-- pointers; `heap` says which items are allocated.
structure StackTrace where
  heap : Address → Option ProcCache
  procCache : List Address
  procCacheMirro : List Address
  pcacheCrt : UInt64
  pcacheDel : UInt64

-- A request with what it finds: the symbols `proc_load_all_symbs` loads, the item
-- `malloc` gives, and the symbols in the file of a JVM module.
structure Request where
  stackPid : StackPid
  procLoadAllSymbs : Option ProcSymbs
  malloc : Option Address
  updateSymbFromJvmSymFile : Text → Option UInt32

def searchProcCache (st : StackTrace) (stackPid : StackPid) : Option Address :=
  st.procCache.find? fun item => (st.heap item).map ProcCache.k = some stackPid

-- `none` is the read of an item that has been freed.
def agingProcCache (st : StackTrace) (agingItem : Address) : Option (StackTrace × ℤ) := do
  let aging ← st.heap agingItem
  match searchProcCache st aging.k with
  | some item => some ({ st with
      heap := Function.update st.heap item none
      procCache := st.procCache.erase item
      pcacheDel := st.pcacheDel + 1 }, 0)
  | none => some (st, -1)

-- Aging is by the time of creation.
def addProcCacheMirro (st : StackTrace) (newItem : Address) : Option (StackTrace × ℤ) :=
  if st.procCacheMirro.length < PROC_CACHE_MAX_COUNT then
    some ({ st with procCacheMirro := st.procCacheMirro ++ [newItem] }, 0)
  else do
    let agingItem ← st.procCacheMirro.head?
    agingProcCache { st with procCacheMirro := st.procCacheMirro.tail ++ [newItem] } agingItem

-- The result of adding to the array is logged only.
def createProcCache (st : StackTrace) (request : Request) : Option (StackTrace × Option Address) :=
  match request.procLoadAllSymbs, request.malloc with
  | some procSymbs, some newItem => do
      let (st, _) ← addProcCacheMirro { st with
        heap := Function.update st.heap newItem (some ⟨request.stackPid, procSymbs⟩)
        procCache := st.procCache ++ [newItem]
        pcacheCrt := st.pcacheCrt + 1 } newItem
      return (st, some newItem)
  | _, _ => some (st, none)

-- The first JVM module is read anew.
def updateMods (symbs : Text → Option UInt32) : List (Option Mod) → List (Option Mod) × Bool
  | [] => ([], false)
  | some mod :: mods =>
      if mod.modType = .jvm then
        (some { mod with symbsCount := symbs mod.name } :: mods,
          decide ((symbs mod.name).getD 0 ≠ 0))
      else
        let (mods, loaded) := updateMods symbs mods
        (some mod :: mods, loaded)
  | none :: mods =>
      let (mods, loaded) := updateMods symbs mods
      (none :: mods, loaded)

def updateProcCache (symbs : Text → Option UInt32) (procSymbs : ProcSymbs) : ProcSymbs :=
  let (mods, loaded) := updateMods symbs procSymbs.mods
  ⟨procSymbs.needUpdate && !loaded, mods⟩

-- The item that is returned, or NULL.
def getProcCache (st : StackTrace) (request : Request) : Option (StackTrace × Option Address) :=
  match searchProcCache st request.stackPid with
  | none => createProcCache st request
  | some item => do
      let cache ← st.heap item
      if cache.procSymbs.needUpdate then
        let procSymbs := updateProcCache request.updateSymbFromJvmSymFile cache.procSymbs
        return ({ st with heap := Function.update st.heap item (some { cache with
          procSymbs := procSymbs }) }, some item)
      else return (st, some item)

-- An item with its key, in the order of creation.
abbrev Entry := Address × StackPid

-- `malloc` gives memory that is not in use.
def Request.Fresh (st : StackTrace) (request : Request) : Prop :=
  ∀ item, request.malloc = some item → st.heap item = none

-- The item a request creates, if it does.
def creates (st : StackTrace) (request : Request) : Option Entry :=
  match searchProcCache st request.stackPid, request.procLoadAllSymbs, request.malloc with
  | none, some _, some item => some (item, request.stackPid)
  | _, _, _ => none

-- A request against a cache, and the items created so far.
def Called (before : StackTrace × List Entry) (request : Request)
    (after : StackTrace × List Entry) : Prop :=
  request.Fresh before.1 ∧ (∃ item, getProcCache before.1 request = some (after.1, item)) ∧
    after.2 = before.2 ++ (creates before.1 request).toList

def init (heap : Address → Option ProcCache) : StackTrace × List Entry :=
  (⟨heap, [], [], 0, 0⟩, [])

-- The table and the array hold the same items, alive and under their keys.
structure Holds (st : StackTrace) (entries : List Entry) : Prop where
  procCache : st.procCache = entries.map Prod.fst
  mirro : st.procCacheMirro = entries.map Prod.fst
  live : ∀ entry ∈ entries, (st.heap entry.1).map ProcCache.k = some entry.2
  items : (entries.map Prod.fst).Nodup
  keys : (entries.map Prod.snd).Nodup

variable {st : StackTrace} {entries : List Entry} {request : Request}

theorem Holds.search_eq_none (h : Holds st entries) {stackPid : StackPid} :
    searchProcCache st stackPid = none ↔ stackPid ∉ entries.map Prod.snd := by
  rw [searchProcCache, h.procCache, List.find?_eq_none]
  constructor
  · intro hnone hmem
    obtain ⟨entry, hentry, rfl⟩ := List.mem_map.mp hmem
    exact hnone entry.1 (List.mem_map_of_mem hentry) (by simpa using h.live entry hentry)
  · intro hnot item hitem
    obtain ⟨entry, hentry, rfl⟩ := List.mem_map.mp hitem
    rw [h.live entry hentry]
    simp only [Option.some.injEq, decide_eq_true_eq]
    rintro rfl
    exact hnot (List.mem_map_of_mem hentry)

theorem Holds.search_eq_some (h : Holds st entries) {stackPid : StackPid} {item : Address}
    (hsearch : searchProcCache st stackPid = some item) : (item, stackPid) ∈ entries := by
  have hmem := List.mem_of_find?_eq_some hsearch
  have hkey := List.find?_some hsearch
  rw [h.procCache] at hmem
  obtain ⟨entry, hentry, rfl⟩ := List.mem_map.mp hmem
  rw [h.live entry hentry] at hkey
  have hkey : entry.2 = stackPid := by simpa using hkey
  rwa [← hkey]

-- A write to an item that keeps its key.
theorem Holds.write (h : Holds st entries) {item : Address} {cache : ProcCache} {stackPid : StackPid}
    (hmem : (item, stackPid) ∈ entries) (hkey : cache.k = stackPid) :
    Holds { st with heap := Function.update st.heap item (some cache) } entries := by
  refine ⟨h.procCache, h.mirro, fun entry hentry => ?_, h.items, h.keys⟩
  change (Function.update st.heap item (some cache) entry.1).map ProcCache.k = some entry.2
  by_cases heq : entry.1 = item
  · have hentries := List.inj_on_of_nodup_map h.items hentry hmem heq
    rw [heq, Function.update_self, Option.map_some, hkey, hentries]
  · rw [Function.update_of_ne heq]
    exact h.live entry hentry

-- The new item is in the table, and the array still lacks it.
structure Added (st : StackTrace) (entries : List Entry) (new : Entry) : Prop where
  procCache : st.procCache = (entries ++ [new]).map Prod.fst
  mirro : st.procCacheMirro = entries.map Prod.fst
  live : ∀ entry ∈ entries ++ [new], (st.heap entry.1).map ProcCache.k = some entry.2
  items : ((entries ++ [new]).map Prod.fst).Nodup
  keys : ((entries ++ [new]).map Prod.snd).Nodup

def added (st : StackTrace) (item : Address) (cache : ProcCache) : StackTrace :=
  { st with
    heap := Function.update st.heap item (some cache)
    procCache := st.procCache ++ [item]
    pcacheCrt := st.pcacheCrt + 1 }

theorem Holds.ne_of_free (h : Holds st entries) {item : Address} (hfree : st.heap item = none)
    {entry : Entry} (hentry : entry ∈ entries) : entry.1 ≠ item := by
  rintro rfl
  have hlive := h.live entry hentry
  rw [hfree] at hlive
  cases hlive

theorem Holds.added (h : Holds st entries) {item : Address} (hfree : st.heap item = none)
    {cache : ProcCache} (hkey : cache.k ∉ entries.map Prod.snd) :
    Added (added st item cache) entries (item, cache.k) := by
  have hitem : item ∉ entries.map Prod.fst := by
    intro hmem
    obtain ⟨entry, hentry, heq⟩ := List.mem_map.mp hmem
    exact h.ne_of_free hfree hentry heq
  constructor
  · rw [List.map_append, StackProbe.added, h.procCache]
    rfl
  · exact h.mirro
  · intro entry hentry
    change (Function.update st.heap item (some cache) entry.1).map ProcCache.k = some entry.2
    rcases List.mem_append.mp hentry with hold | hnew
    · rw [Function.update_of_ne (h.ne_of_free hfree hold)]
      exact h.live entry hold
    · obtain rfl := List.mem_singleton.mp hnew
      rw [Function.update_self]
      rfl
  · rw [List.map_append, List.map_singleton, ← List.concat_eq_append]
    exact h.items.concat hitem
  · rw [List.map_append, List.map_singleton, ← List.concat_eq_append]
    exact h.keys.concat hkey

-- What stays when an item is created: everything, or all but the oldest.
def kept (entries : List Entry) : List Entry :=
  if entries.length < PROC_CACHE_MAX_COUNT then entries else entries.tail

theorem kept_sublist (entries : List Entry) : (kept entries).Sublist entries := by
  unfold kept
  split_ifs
  · exact List.Sublist.refl _
  · exact List.tail_sublist _

-- The oldest item is found by its key and goes, if there is no room.
theorem Added.addProcCacheMirro {new : Entry} (h : Added st entries new) :
    ∃ after, StackProbe.addProcCacheMirro st new.1 = some (after, 0) ∧
      Holds after (kept entries ++ [new]) ∧
      (∀ entry ∈ kept entries ++ [new], after.heap entry.1 = st.heap entry.1) ∧
      ∀ oldest ∈ entries.head?, PROC_CACHE_MAX_COUNT ≤ entries.length →
        after.heap oldest.1 = none := by
  unfold StackProbe.addProcCacheMirro kept
  by_cases hroom : entries.length < PROC_CACHE_MAX_COUNT
  · rw [if_pos (by rw [h.mirro, List.length_map]; exact hroom), if_pos hroom]
    refine ⟨_, rfl, ⟨h.procCache, ?_, h.live, h.items, h.keys⟩, fun _ _ => rfl, ?_⟩
    · rw [List.map_append, h.mirro]
      rfl
    · intro oldest _ hfull
      omega
  · rw [if_neg (by rw [h.mirro, List.length_map]; exact hroom), if_neg hroom]
    cases entries with
    | nil => exact absurd (show 0 < PROC_CACHE_MAX_COUNT by decide) hroom
    | cons oldest entries =>
        have hlive := h.live oldest List.mem_cons_self
        obtain ⟨aging, haging, hkey⟩ := Option.map_eq_some_iff.mp hlive
        have hsearch (mirro : List Address) :
            searchProcCache { st with procCacheMirro := mirro } aging.k = some oldest.1 := by
          rw [searchProcCache, h.procCache]
          exact List.find?_cons_of_pos (by simp [haging])
        have hne : ∀ entry ∈ entries ++ [new], entry.1 ≠ oldest.1 := by
          intro entry hentry heq
          have hitems := h.items
          rw [List.cons_append, List.map_cons, List.nodup_cons] at hitems
          exact hitems.1 (heq ▸ List.mem_map_of_mem hentry)
        rw [h.mirro, List.map_cons, List.head?_cons, List.tail_cons, List.tail_cons]
        simp only [Option.bind_eq_bind, Option.bind_some, agingProcCache, haging, hsearch]
        refine ⟨_, rfl, ⟨?_, ?_, ?_, ?_, ?_⟩, ?_, ?_⟩
        · rw [h.procCache, List.cons_append, List.map_cons, List.erase_cons_head]
        · rw [List.map_append]
          rfl
        · intro entry hentry
          change (Function.update st.heap oldest.1 none entry.1).map ProcCache.k = some entry.2
          rw [Function.update_of_ne (hne entry hentry)]
          exact h.live entry (List.mem_cons_of_mem _ hentry)
        · exact (List.nodup_cons.mp h.items).2
        · exact (List.nodup_cons.mp h.keys).2
        · intro entry hentry
          exact Function.update_of_ne (hne entry hentry) _ _
        · rintro _ ⟨⟩ _
          exact Function.update_self _ _ _

-- What one request does: it creates an item or leaves the items in place.
theorem Holds.getProcCache (h : Holds st entries) (hfresh : request.Fresh st) :
    ∃ after item, StackProbe.getProcCache st request = some (after, item) ∧
      match creates st request with
      | none => Holds after entries
      | some new => Holds after (kept entries ++ [new]) ∧
          (∀ entry ∈ kept entries, after.heap entry.1 = st.heap entry.1) ∧
          ∀ oldest ∈ entries.head?, PROC_CACHE_MAX_COUNT ≤ entries.length →
            after.heap oldest.1 = none := by
  unfold StackProbe.getProcCache creates
  cases hsearch : searchProcCache st request.stackPid with
  | some item =>
      have hmem := h.search_eq_some hsearch
      obtain ⟨cache, hcache, hkey⟩ := Option.map_eq_some_iff.mp (h.live _ hmem)
      simp only [hcache, Option.bind_eq_bind, Option.bind_some]
      split_ifs
      · exact ⟨_, _, rfl, h.write hmem hkey⟩
      · exact ⟨_, _, rfl, h⟩
  | none =>
      simp only [createProcCache]
      cases hload : request.procLoadAllSymbs with
      | none => exact ⟨_, _, rfl, h⟩
      | some procSymbs =>
          cases hmalloc : request.malloc with
          | none => exact ⟨_, _, rfl, h⟩
          | some item =>
              have hfree := hfresh item hmalloc
              have hadded : Added (StackProbe.added st item ⟨request.stackPid, procSymbs⟩) entries
                  (item, request.stackPid) := h.added hfree (h.search_eq_none.mp hsearch)
              obtain ⟨after, hadd, hholds, hothers, holdest⟩ := hadded.addProcCacheMirro
              refine ⟨after, some item, ?_, hholds, fun entry hentry => ?_, holdest⟩
              · simp only [StackProbe.added] at hadd
                simp only [hadd, Option.bind_eq_bind, Option.bind_some]
                rfl
              · rw [hothers entry (List.mem_append_left _ hentry)]
                exact Function.update_of_ne
                  (h.ne_of_free hfree ((kept_sublist entries).mem hentry)) _ _

theorem kept_concat (created : List Entry) (new : Entry) :
    kept (created.rtake PROC_CACHE_MAX_COUNT) ++ [new] =
      (created ++ [new]).rtake PROC_CACHE_MAX_COUNT := by
  unfold kept
  split_ifs with hroom
  · exact (rtake_concat_of_lt hroom).symm
  · exact (rtake_concat_of_full (by decide) (Nat.le_of_not_lt hroom)).symm

-- The items are the ones created last, as many as there is room for.
theorem holds_of_run {heap : Address → Option ProcCache} {requests : List Request}
    {last : StackTrace × List Entry} (hrun : Run Called (init heap) requests last) :
    Holds last.1 (last.2.rtake PROC_CACHE_MAX_COUNT) := by
  refine Run.invariant (fun state => Holds state.1 (state.2.rtake PROC_CACHE_MAX_COUNT)) ?_ hrun ?_
  · rintro ⟨st, created⟩ request ⟨after, created'⟩ hholds ⟨hfresh, ⟨item, hget⟩, hcreated⟩
    obtain ⟨after', item', hget', hafter⟩ := hholds.getProcCache hfresh
    obtain ⟨rfl, -⟩ := Prod.mk.inj (Option.some.inj (hget'.symm.trans hget))
    simp only at hcreated
    subst hcreated
    cases hcreates : creates st request with
    | none =>
        rw [hcreates] at hafter
        simpa using hafter
    | some new =>
        rw [hcreates] at hafter
        rw [Option.toList_some, ← kept_concat]
        exact hafter.1
  · rw [init, List.rtake_nil]
    exact ⟨rfl, rfl, by simp, List.nodup_nil, List.nodup_nil⟩

-- After any sequence of requests the table and the array hold the same items, each
-- key once, in the order of creation. The next request changes neither, or adds an
-- item behind them, for which the oldest one goes when there is no room.
theorem procCache_runs (heap : Address → Option ProcCache) (requests : List Request)
    (st : StackTrace) (created : List Entry) (hrun : Run Called (init heap) requests (st, created)) :
    st.procCache = st.procCacheMirro ∧
    st.procCache.length ≤ PROC_CACHE_MAX_COUNT ∧
    (st.procCache.map fun item => (st.heap item).map ProcCache.k).Nodup ∧
    (st.procCacheMirro.map fun item => (item, (st.heap item).map ProcCache.k)) =
      (created.rtake PROC_CACHE_MAX_COUNT).map (fun entry => (entry.1, some entry.2)) ∧
    ∀ request, request.Fresh st → ∃ after item, getProcCache st request = some (after, item) ∧
      match creates st request with
      | none => after.procCache = st.procCache ∧ after.procCacheMirro = st.procCacheMirro
      | some new =>
          let stay := if st.procCache.length < PROC_CACHE_MAX_COUNT then st.procCache
            else st.procCache.tail
          after.procCache = stay ++ [new.1] ∧ after.procCacheMirro = stay ++ [new.1] ∧
          (∀ item ∈ stay, after.heap item = st.heap item) ∧
          (st.procCache.length = PROC_CACHE_MAX_COUNT →
            ∀ oldest ∈ st.procCache.head?, after.heap oldest = none) := by
  have hholds : Holds st (created.rtake PROC_CACHE_MAX_COUNT) := holds_of_run hrun
  have hkeys : st.procCache.map (fun item => (st.heap item).map ProcCache.k) =
      ((created.rtake PROC_CACHE_MAX_COUNT).map Prod.snd).map some := by
    rw [hholds.procCache, List.map_map, List.map_map]
    exact List.map_congr_left fun entry hentry => hholds.live entry hentry
  have hlen : (created.rtake PROC_CACHE_MAX_COUNT).length ≤ PROC_CACHE_MAX_COUNT := by
    rw [length_rtake]
    exact Nat.min_le_right _ _
  refine ⟨hholds.procCache.trans hholds.mirro.symm, ?_, ?_, ?_, fun request hfresh => ?_⟩
  · rw [hholds.procCache, List.length_map]
    exact hlen
  · rw [hkeys]
    exact hholds.keys.map fun _ _ heq => Option.some.inj heq
  · rw [hholds.mirro, List.map_map]
    exact List.map_congr_left fun entry hentry => by rw [Function.comp, hholds.live entry hentry]
  · obtain ⟨after, item, hget, hafter⟩ := hholds.getProcCache hfresh
    refine ⟨after, item, hget, ?_⟩
    cases hcreates : creates st request with
    | none =>
        rw [hcreates] at hafter
        exact ⟨by rw [hafter.procCache, hholds.procCache], by rw [hafter.mirro, hholds.mirro]⟩
    | some new =>
        rw [hcreates] at hafter
        obtain ⟨hnext, hothers, holdest⟩ := hafter
        have hstay : (if st.procCache.length < PROC_CACHE_MAX_COUNT then st.procCache
            else st.procCache.tail) = (kept (created.rtake PROC_CACHE_MAX_COUNT)).map Prod.fst := by
          rw [hholds.procCache, List.length_map, kept]
          split_ifs
          · rfl
          · rw [List.map_tail]
        simp only [hstay]
        refine ⟨?_, ?_, ?_, ?_⟩
        · rw [hnext.procCache, List.map_append, List.map_singleton]
        · rw [hnext.mirro, List.map_append, List.map_singleton]
        · intro other hother
          obtain ⟨entry, hentry, rfl⟩ := List.mem_map.mp hother
          exact hothers entry hentry
        · rw [hholds.procCache, List.length_map, List.head?_map]
          intro hfull oldest hmem
          obtain ⟨entry, hentry, rfl⟩ := Option.map_eq_some_iff.mp hmem
          exact holdest entry hentry (Nat.le_of_eq hfull.symm)

def javaSymbs (symbsCount : Option UInt32) (needUpdate : Bool) : ProcSymbs :=
  ⟨needUpdate, [some ⟨.jvm, "java".toList, symbsCount⟩]⟩

def sampleRequest (stackPid : StackPid) (item : Address) : Request where
  stackPid := stackPid
  procLoadAllSymbs := some (javaSymbs none true)
  malloc := some item
  updateSymbFromJvmSymFile := fun _ => some 3

def firstPid : StackPid := ⟨5, 1, 0⟩
def secondPid : StackPid := ⟨6, 1, 0⟩
def thirdPid : StackPid := ⟨7, 1, 0⟩

-- Two items, the first of them asked for again, and one whose symbols cannot be loaded.
def sampleRequests : List Request :=
  [sampleRequest firstPid 8, sampleRequest secondPid 9, sampleRequest firstPid 10,
    { sampleRequest thirdPid 10 with procLoadAllSymbs := none }]

def oneItem : StackTrace × List Entry :=
  (⟨Function.update (fun _ => none) 8 (some ⟨firstPid, javaSymbs none true⟩), [8], [8], 1, 0⟩,
    [(8, firstPid)])

def twoItems : StackTrace × List Entry :=
  (⟨Function.update oneItem.1.heap 9 (some ⟨secondPid, javaSymbs none true⟩), [8, 9], [8, 9], 2, 0⟩,
    [(8, firstPid), (9, secondPid)])

-- The symbols of the first are read by now.
def updatedItems : StackTrace × List Entry :=
  ({ twoItems.1 with
    heap := Function.update twoItems.1.heap 8 (some ⟨firstPid, javaSymbs (some 3) false⟩) },
    twoItems.2)

theorem procCache_runs_created :
    Run Called (init fun _ => none) sampleRequests updatedItems ∧
      (updatedItems.1.procCache.map fun item =>
        (updatedItems.1.heap item).map ProcCache.k).Nodup ∧
      ∃ after item, getProcCache updatedItems.1 (sampleRequest thirdPid 10) = some (after, item) ∧
        after.procCache = [8, 9, 10] ∧ after.procCacheMirro = [8, 9, 10] := by
  have hfirst : Called (init fun _ => none) (sampleRequest firstPid 8) oneItem :=
    ⟨fun _ _ => rfl, ⟨some 8, rfl⟩, rfl⟩
  have hsecond : Called oneItem (sampleRequest secondPid 9) twoItems := by
    refine ⟨?_, ⟨some 9, rfl⟩, rfl⟩
    rintro _ ⟨⟩
    rfl
  have hagain : Called twoItems (sampleRequest firstPid 10) updatedItems := by
    refine ⟨?_, ⟨some 8, rfl⟩, rfl⟩
    rintro _ ⟨⟩
    rfl
  have hfails : Called updatedItems { sampleRequest thirdPid 10 with procLoadAllSymbs := none }
      updatedItems := by
    refine ⟨?_, ⟨none, rfl⟩, rfl⟩
    rintro _ ⟨⟩
    rfl
  have hrun : Run Called (init fun _ => none) sampleRequests updatedItems :=
    .cons hfirst (.cons hsecond (.cons hagain (.cons hfails (.nil _))))
  obtain ⟨-, -, hkeys, -, hnext⟩ := procCache_runs _ _ _ _ hrun
  have hfresh : (sampleRequest thirdPid 10).Fresh updatedItems.1 := by
    rintro _ ⟨⟩
    rfl
  obtain ⟨after, item, hget, hcache, hmirro, -⟩ := hnext _ hfresh
  exact ⟨hrun, hkeys, after, item, hget, hcache, hmirro⟩

end Gopher.StackProbe
