import Gopher.Lib.HashTable
import Gopher.Lib.Text
import Gopher.Lib.Throttle
import Mathlib.Algebra.Order.Group.Int
import Mathlib.Data.Int.Notation

namespace Gopher.Event

open Lib

def maxEntityNameLen : ℕ := 128
def maxEvtNum : ℕ := 1000

-- struct evt_ts_hash_t
structure EvtTsHash where
  entityId : Text
  evtTs : ℤ
  deriving DecidableEq

-- g_evt_head, the item added last first.
abbrev EvtHead := List EvtTsHash

def hashFindEvt (head : EvtHead) (entityId : Text) : Option EvtTsHash :=
  HashTable.find EvtTsHash.entityId head (truncated maxEntityNameLen entityId)

def hashClearOlderEvt (gEvtPeriod : ℕ) (head : EvtHead) (curTime : ℤ) : EvtHead :=
  head.filter fun item => curTime - item.evtTs ≤ gEvtPeriod

def hashCountEvt (head : EvtHead) : ℕ := head.length

-- One call of `is_evt_need_report`, with the outcome of the `malloc` it may make.
structure Call where
  entityId : Text
  curTime : ℤ
  malloc : Bool

section

-- `limit` is the number of items from which on older ones are cleared.
variable (gEvtPeriod limit : ℕ)

def hashAddEvt (head : EvtHead) (call : Call) : EvtHead :=
  let head := if limit ≤ hashCountEvt head then hashClearOlderEvt gEvtPeriod head call.curTime
    else head
  if call.malloc then
    { entityId := truncated maxEntityNameLen call.entityId, evtTs := call.curTime } :: head
  else head

def isEvtNeedReport (head : EvtHead) (call : Call) : Bool × EvtHead :=
  match hashFindEvt head call.entityId with
  | none =>
      let head := hashAddEvt gEvtPeriod limit head call
      ((hashFindEvt head call.entityId).isSome, head)
  | some item =>
      if item.evtTs < call.curTime ∧ (gEvtPeriod : ℤ) ≤ call.curTime - item.evtTs then
        (true, HashTable.modify EvtTsHash.entityId (fun item => { item with evtTs := call.curTime })
          head item.entityId)
      else (false, head)

-- The table after some calls, and what one more of them returns.
def headAfter (calls : List Call) : EvtHead :=
  calls.foldl (fun head call => (isEvtNeedReport gEvtPeriod limit head call).2) []

def returned (earlier : List Call) (call : Call) : Bool :=
  (isEvtNeedReport gEvtPeriod limit (headAfter gEvtPeriod limit earlier) call).1

end

open Lib Throttle

-- What an item says about the past: when its entity was reported last.
def EvtTsHash.report (item : EvtTsHash) : Text × ℤ := (item.entityId, item.evtTs)

-- The request a call makes of a throttle that remembers every report.
def Call.request (call : Call) : Text × ℤ :=
  (truncated maxEntityNameLen call.entityId, call.curTime)

-- The table answers from `now` on as the reports themselves would.
structure Stands (gEvtPeriod : ℕ) (now : ℤ) (head : EvtHead) (reports : List (Text × ℤ)) :
    Prop where
  nodup : (head.map EvtTsHash.entityId).Nodup
  same : Same (gEvtPeriod : ℤ) now (head.map EvtTsHash.report) reports

variable {gEvtPeriod limit : ℕ} {now curTime : ℤ} {head : EvtHead} {reports : List (Text × ℤ)}
  {call : Call} {item : EvtTsHash}

theorem Stands.mono {later : ℤ} (h : Stands gEvtPeriod now head reports) (hle : now ≤ later) :
    Stands gEvtPeriod later head reports :=
  ⟨h.nodup, h.same.mono hle⟩

theorem map_report_clear : (hashClearOlderEvt gEvtPeriod head curTime).map EvtTsHash.report =
    (head.map EvtTsHash.report).filter fun report => curTime - report.2 ≤ gEvtPeriod := by
  rw [List.filter_map]
  rfl

-- An item that is cleared is older than a period, so it no longer holds a report back.
theorem Stands.clear (h : Stands gEvtPeriod curTime head reports) :
    Stands gEvtPeriod curTime (hashClearOlderEvt gEvtPeriod head curTime) reports := by
  constructor
  · exact h.nodup.sublist (List.filter_sublist.map _)
  · rw [map_report_clear]
    refine (Same.filter _ fun report _ hold => ?_).trans h.same
    have hlt : ¬ curTime - report.2 ≤ gEvtPeriod := by simpa using hold
    omega

theorem find_clear_eq_none {key : Text} (hfind : HashTable.find EvtTsHash.entityId head key = none) :
    HashTable.find EvtTsHash.entityId (hashClearOlderEvt gEvtPeriod head curTime) key = none := by
  rw [HashTable.find_eq_none] at hfind ⊢
  intro item hitem
  exact hfind item (List.mem_filter.mp hitem).1

theorem due_of_find_none (h : Stands gEvtPeriod curTime head reports) {key : Text}
    (hfind : HashTable.find EvtTsHash.entityId head key = none) :
    Due (gEvtPeriod : ℤ) reports key curTime := by
  rw [← h.same key curTime le_rfl]
  intro report hreport hkey
  obtain ⟨item, hitem, rfl⟩ := List.mem_map.mp hreport
  exact absurd hkey (HashTable.find_eq_none.mp hfind item hitem)

theorem due_iff_of_find_some (h : Stands gEvtPeriod curTime head reports) {key : Text}
    (hfind : HashTable.find EvtTsHash.entityId head key = some item) :
    Due (gEvtPeriod : ℤ) reports key curTime ↔ (gEvtPeriod : ℤ) ≤ curTime - item.evtTs := by
  rw [← h.same key curTime le_rfl]
  constructor
  · intro hdue
    have hkey : item.entityId = key := HashTable.key_of_find hfind
    exact hdue item.report (List.mem_map_of_mem (HashTable.mem_of_find hfind)) hkey
  · intro hle report hreport hkey
    obtain ⟨other, hother, rfl⟩ := List.mem_map.mp hreport
    have hsome := (HashTable.find_eq_some h.nodup).mpr ⟨hother, hkey⟩
    rw [hfind] at hsome
    cases hsome
    exact hle

-- A new item for an entity that has none.
theorem Stands.add {entityId : Text} (h : Stands gEvtPeriod curTime head reports)
    (hfind : HashTable.find EvtTsHash.entityId head entityId = none) :
    Stands gEvtPeriod curTime ({ entityId := entityId, evtTs := curTime } :: head)
      ((entityId, curTime) :: reports) :=
  ⟨HashTable.nodup_cons hfind h.nodup, h.same.cons (entityId, curTime)⟩

-- The item of an entity whose last report is a period old gets the new time.
theorem Stands.renew (item : EvtTsHash) (h : Stands gEvtPeriod curTime head reports)
    (hfind : HashTable.find EvtTsHash.entityId head item.entityId = some item)
    (hdue : Due (gEvtPeriod : ℤ) reports item.entityId curTime) :
    Stands gEvtPeriod curTime (HashTable.modify EvtTsHash.entityId
        (fun item => { item with evtTs := curTime }) head item.entityId)
      ((item.entityId, curTime) :: reports) := by
  constructor
  · have hkey : ∀ item : EvtTsHash,
        EvtTsHash.entityId { item with evtTs := curTime } = item.entityId := fun _ => rfl
    rw [HashTable.map_key_modify hkey]
    exact h.nodup
  · refine (Same.replace ((h.same _ _ le_rfl).mpr hdue) fun report => ?_).trans
      (h.same.cons (item.entityId, curTime))
    constructor
    · intro hreport
      obtain ⟨other, hother, rfl⟩ := List.mem_map.mp hreport
      rcases (HashTable.mem_modify h.nodup).mp hother with ⟨hold, hne⟩ | ⟨found, hfound, rfl⟩
      · exact .inr ⟨List.mem_map_of_mem hold, hne⟩
      · rw [hfind] at hfound
        cases hfound
        exact .inl rfl
    · rintro (rfl | ⟨hreport, hne⟩)
      · exact List.mem_map_of_mem (f := EvtTsHash.report)
          ((HashTable.mem_modify h.nodup).mpr (.inr ⟨item, hfind, rfl⟩))
      · obtain ⟨other, hother, rfl⟩ := List.mem_map.mp hreport
        exact List.mem_map_of_mem ((HashTable.mem_modify h.nodup).mpr (.inl ⟨hother, hne⟩))

-- One call against the table is one request against the reports.
theorem Stands.serve (limit : ℕ) (hperiod : 0 < gEvtPeriod)
    (h : Stands gEvtPeriod call.curTime head reports)
    (hmalloc : call.malloc = true) :
    ((isEvtNeedReport gEvtPeriod limit head call).1 = true ↔
        Due (gEvtPeriod : ℤ) reports call.request.1 call.request.2) ∧
      Stands gEvtPeriod call.curTime (isEvtNeedReport gEvtPeriod limit head call).2
        (accept (gEvtPeriod : ℤ) reports call.request) := by
  cases hfind : hashFindEvt head call.entityId with
  | none =>
      have hdue : Due (gEvtPeriod : ℤ) reports call.request.1 call.request.2 :=
        due_of_find_none h hfind
      have hadd : ∀ table : EvtHead, Stands gEvtPeriod call.curTime table reports →
          hashFindEvt table call.entityId = none →
          Stands gEvtPeriod call.curTime
            ({ entityId := call.request.1, evtTs := call.request.2 } :: table)
            (call.request :: reports) :=
        fun _ htable hnone => htable.add hnone
      rw [isEvtNeedReport, hfind, accept, if_pos hdue]
      simp only [hashAddEvt, hmalloc, if_true]
      refine ⟨iff_of_true ?_ hdue, ?_⟩
      · rw [hashFindEvt, HashTable.find_cons_self rfl]
        rfl
      · split_ifs with hfull
        · exact hadd _ h.clear (find_clear_eq_none hfind)
        · exact hadd _ h hfind
  | some item =>
      have hkey : item.entityId = call.request.1 := HashTable.key_of_find hfind
      have hiff : Due (gEvtPeriod : ℤ) reports call.request.1 call.request.2 ↔
          (gEvtPeriod : ℤ) ≤ call.curTime - item.evtTs := due_iff_of_find_some h hfind
      rw [isEvtNeedReport, hfind, accept]
      dsimp only
      by_cases hdue : (gEvtPeriod : ℤ) ≤ call.curTime - item.evtTs
      · rw [if_pos ⟨by omega, hdue⟩, if_pos (hiff.mpr hdue)]
        refine ⟨iff_of_true rfl (hiff.mpr hdue), ?_⟩
        have hrenew := h.renew item (by rw [hkey]; exact hfind) (by rw [hkey]; exact hiff.mpr hdue)
        rw [hkey] at hrenew ⊢
        exact hrenew
      · rw [if_neg fun hboth => hdue hboth.2, if_neg fun hold => hdue (hiff.mp hold)]
        exact ⟨iff_of_false Bool.false_ne_true fun hold => hdue (hiff.mp hold), h⟩

theorem headAfter_concat (calls : List Call) (call : Call) :
    headAfter gEvtPeriod limit (calls ++ [call]) =
      (isEvtNeedReport gEvtPeriod limit (headAfter gEvtPeriod limit calls) call).2 := by
  rw [headAfter, List.foldl_append]
  rfl

-- The table after a run of calls stands for the reports of the run.
theorem stands_headAfter (limit : ℕ) (hperiod : 0 < gEvtPeriod) (calls : List Call)
    (hmalloc : ∀ call ∈ calls, call.malloc = true)
    (htimes : calls.Pairwise fun earlier later => earlier.curTime ≤ later.curTime)
    (hnow : ∀ call ∈ calls, call.curTime ≤ now) :
    Stands gEvtPeriod now (headAfter gEvtPeriod limit calls)
      (accepted (gEvtPeriod : ℤ) (calls.map Call.request)) := by
  induction calls using List.reverseRecOn generalizing now with
  | nil => exact ⟨List.nodup_nil, fun _ _ _ => Iff.rfl⟩
  | append_singleton calls call ih =>
      obtain ⟨hbefore, -, hlast⟩ := List.pairwise_append.mp htimes
      have h := ih (fun earlier hmem => hmalloc earlier (by simp [hmem])) hbefore
        (fun earlier hmem => hlast earlier hmem call (by simp))
      have hserve := (h.serve limit hperiod (hmalloc call (by simp))).2
      rw [headAfter_concat, List.map_append, List.map_singleton, accepted_concat]
      exact hserve.mono (hnow call (by simp))

-- What a call returns is decided by the reports before it, whatever the limit.
theorem returned_iff_due (limit : ℕ) (hperiod : 0 < gEvtPeriod) (earlier : List Call) (call : Call)
    (later : List Call)
    (hmalloc : ∀ other ∈ earlier ++ call :: later, other.malloc = true)
    (htimes : (earlier ++ call :: later).Pairwise fun first second =>
      first.curTime ≤ second.curTime) :
    returned gEvtPeriod limit earlier call = true ↔
      Due (gEvtPeriod : ℤ) (accepted (gEvtPeriod : ℤ) (earlier.map Call.request))
        call.request.1 call.request.2 := by
  obtain ⟨hbefore, -, hlast⟩ := List.pairwise_append.mp htimes
  have h := stands_headAfter limit hperiod earlier
    (fun other hmem => hmalloc other (by simp [hmem])) hbefore
    (fun other hmem => hlast other hmem call (by simp))
  exact (h.serve limit hperiod (hmalloc call (by simp))).1

-- An event is reported exactly if no earlier event of its entity was reported less
-- than a period before. Clearing older items changes no answer: with any other limit
-- they are the same.
theorem isEvtNeedReport_throttles (gEvtPeriod : ℕ) (hperiod : 0 < gEvtPeriod) (calls : List Call)
    (hmalloc : ∀ call ∈ calls, call.malloc = true)
    (htimes : calls.Pairwise fun earlier later => earlier.curTime ≤ later.curTime)
    (earlier : List Call) (call : Call) (later : List Call)
    (hcalls : calls = earlier ++ call :: later) :
    (returned gEvtPeriod maxEvtNum earlier call = true ↔
      ¬ ∃ before other after, earlier = before ++ other :: after ∧
        other.entityId.take (maxEntityNameLen - 1) = call.entityId.take (maxEntityNameLen - 1) ∧
        returned gEvtPeriod maxEvtNum before other = true ∧
        call.curTime - other.curTime < gEvtPeriod) ∧
    ∀ limit, returned gEvtPeriod limit earlier call = returned gEvtPeriod maxEvtNum earlier call := by
  subst hcalls
  have hiff := returned_iff_due maxEvtNum hperiod earlier call later hmalloc htimes
  refine ⟨?_, fun limit => ?_⟩
  · rw [hiff]
    constructor
    · rintro hdue ⟨before, other, after, rfl, hkey, hreturned, hlt⟩
      rw [List.append_assoc, List.cons_append] at hmalloc htimes
      have hbefore := (returned_iff_due maxEvtNum hperiod before other _ hmalloc htimes).mp hreturned
      have hmem : other.request ∈ accepted (gEvtPeriod : ℤ)
          ((before ++ other :: after).map Call.request) :=
        (mem_accepted _ _).mpr ⟨before.map Call.request, after.map Call.request, by simp, hbefore⟩
      have hle := hdue other.request hmem hkey
      exact absurd hlt (not_lt.mpr hle)
    · intro hnone report hreport hkey
      obtain ⟨before, after, heq, hdue⟩ := (mem_accepted _ _).mp hreport
      obtain ⟨front, back, rfl, rfl, hback⟩ := List.map_eq_append_iff.mp heq
      obtain ⟨other, rest, rfl, rfl, rfl⟩ := List.map_eq_cons_iff.mp hback
      rw [List.append_assoc, List.cons_append] at hmalloc htimes
      have hreturned := (returned_iff_due maxEvtNum hperiod front other _ hmalloc htimes).mpr hdue
      have hle := mt (fun hlt => ⟨front, other, rest, rfl, hkey, hreturned, hlt⟩) hnone
      exact not_lt.mp hle
  · rw [Bool.eq_iff_iff, hiff]
    exact returned_iff_due limit hperiod earlier call later hmalloc htimes

-- With a period of ten seconds: the first call, one that comes too early and one in time.
theorem isEvtNeedReport_throttles_witness :
    returned 10 maxEvtNum [⟨['a'], 0, true⟩, ⟨['a'], 9, true⟩] ⟨['a'], 10, true⟩ = true ∧
    ((returned 10 maxEvtNum [⟨['a'], 0, true⟩] ⟨['a'], 9, true⟩ = true ↔
      ¬ ∃ before other after, [(⟨['a'], 0, true⟩ : Call)] = before ++ other :: after ∧
        other.entityId.take (maxEntityNameLen - 1) = ['a'].take (maxEntityNameLen - 1) ∧
        returned 10 maxEvtNum before other = true ∧ (9 : ℤ) - other.curTime < (10 : ℕ)) ∧
    ∀ limit, returned 10 limit [⟨['a'], 0, true⟩] ⟨['a'], 9, true⟩ =
      returned 10 maxEvtNum [⟨['a'], 0, true⟩] ⟨['a'], 9, true⟩) :=
  ⟨by decide, isEvtNeedReport_throttles 10 (by decide)
    [⟨['a'], 0, true⟩, ⟨['a'], 9, true⟩, ⟨['a'], 10, true⟩] (by decide) (by decide)
    [⟨['a'], 0, true⟩] ⟨['a'], 9, true⟩ [⟨['a'], 10, true⟩] rfl⟩

end Gopher.Event
