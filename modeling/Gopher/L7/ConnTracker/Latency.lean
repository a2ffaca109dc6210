import Gopher.L7.ConnTracker.Links
import Gopher.L7.Histogram

namespace Gopher.L7

open Gopher.Lib

variable {φ ρ : Type*}

-- A batch of matched records of one tracker, or the reset of all statistics.
inductive StatsAction (ρ : Type*)
  | round (id : TrackerId) (records : RecordBuf ρ)
  | reset

def statsStep (mng : L7Mng φ) : StatsAction ρ → L7Mng φ
  | .round id records => addTrackerStats records mng id
  | .reset => resetL7Stats mng

def RecordBuf.allLatencies (records : RecordBuf ρ) : List UInt64 :=
  records.records.map RecordData.latency

-- The latencies of the chosen trackers since the last reset.
def latenciesSince (chosen : TrackerId → Bool) (actions : List (StatsAction ρ)) : List UInt64 :=
  actions.foldl (fun latencies action =>
    match action with
    | .round id records => if chosen id then latencies ++ records.allLatencies else latencies
    | .reset => []) []

def isTracker (id : TrackerId) (other : TrackerId) : Bool := other = id

-- The trackers of a link. Statistics change neither ids nor links.
def isOfLink (start : L7Mng φ) (linkId : LinkId) (id : TrackerId) : Bool :=
  (lkupConnTracker start id).map ConnTracker.linkId = some linkId

-- The buckets of a link. There are none without the link.
def linkBuckets (mng : L7Mng φ) (linkId : LinkId) : List HistoBucket :=
  ((lkupL7Link mng linkId).map L7Link.latencyBuckets).getD []

-- Each latency belongs to one bucket, and the buckets count them all.
structure Counted (latencies : List UInt64) (buckets : List HistoBucket) : Prop where
  once : ∀ latency ∈ latencies, buckets.countP (·.covers latency) = 1
  sum : (buckets.map HistoBucket.count).sum = latencies.length

structure Histograms (start : L7Mng φ) (actions : List (StatsAction ρ)) (mng : L7Mng φ) : Prop where
  trackers : ∀ tracker ∈ mng.trackers,
    Counted (latenciesSince (isTracker tracker.id) actions) tracker.latencyBuckets
  links : ∀ linkId,
    Counted (latenciesSince (isOfLink start linkId) actions) (linkBuckets mng linkId)

-- Tables without doubled ids, and all buckets as they are after a reset.
structure JustReset (mng : L7Mng φ) : Prop where
  trackerIds : UniqueIds mng
  linkIds : (mng.links.map L7Link.id).Nodup
  trackers : ∀ tracker ∈ mng.trackers, tracker.latencyBuckets = initLatencyBuckets
  links : ∀ link ∈ mng.links, link.latencyBuckets = initLatencyBuckets

-- The rounds whose records are all counted, for the tracker and for its link.
def CountsAll (mng : L7Mng φ) : StatsAction ρ → Prop
  | .round id records => ∀ tracker, lkupConnTracker mng id = some tracker →
      (∀ latency ∈ records.allLatencies, 0 < latency ∧ latency ≤ 10000) ∧
        records.records.length ≤ RECORD_BUF_SIZE ∧
        (records.records = [] ∨ (findL7Link mng tracker).isSome)
  | .reset => True

section Buckets

variable {latencies : List UInt64} {buckets : List HistoBucket}

-- Buckets of the table that have counted exactly the given latencies.
structure Filled (latencies : List UInt64) (buckets : List HistoBucket) : Prop where
  table : ranges buckets = latencyHistios
  total : countSum buckets = latencies.length
  inside : ∀ latency ∈ latencies, 0 < latency ∧ latency ≤ 10000

theorem countP_latencyHistios (latency : UInt64) :
    latencyHistios.countP (inRange latency) = if 0 < latency ∧ latency ≤ 10000 then 1 else 0 := by
  have htable : latencyHistios = consecutive [0, 1, 3, 10, 20, 50, 100, 300, 500, 1000, 10000] := rfl
  have hsorted : [(0 : UInt64), 1, 3, 10, 20, 50, 100, 300, 500, 1000, 10000].Pairwise (· < ·) := by
    decide
  rw [htable, countP_consecutive 0 _ hsorted]
  simp [inRange]

theorem covered_iff (hranges : ranges buckets = latencyHistios) (latency : UInt64) :
    covered buckets latency = true ↔ 0 < latency ∧ latency ≤ 10000 := by
  have hcount := countP_latencyHistios latency
  rw [covered_eq_any, hranges, List.any_eq_true, ← List.countP_pos_iff, hcount]
  split_ifs with h
  · simp [h]
  · simp [h]

theorem Filled.counted (h : Filled latencies buckets) : Counted latencies buckets := by
  refine ⟨fun latency hlatency => ?_, h.total⟩
  rw [countP_covers, h.table, countP_latencyHistios, if_pos (h.inside latency hlatency)]

theorem filled_init : Filled [] initLatencyBuckets :=
  ⟨by decide, by decide, by simp⟩

theorem filled_reset (h : ranges buckets = latencyHistios) : Filled [] (histoBucketReset buckets) :=
  ⟨ranges_reset.trans h, countSum_reset, by simp⟩

theorem latencies_of_length {records : RecordBuf ρ}
    (hlength : records.records.length ≤ RECORD_BUF_SIZE) :
    records.latencies = records.allLatencies := by
  unfold RecordBuf.latencies RecordBuf.allLatencies
  rw [List.take_of_length_le hlength]

theorem Filled.addValues (h : Filled latencies buckets) {records : RecordBuf ρ}
    (hinside : ∀ latency ∈ records.allLatencies, 0 < latency ∧ latency ≤ 10000)
    (hlength : records.records.length ≤ RECORD_BUF_SIZE) :
    Filled (latencies ++ records.allLatencies)
      (histoBucketAddValues buckets records.latencies) := by
  rw [latencies_of_length hlength]
  refine ⟨(ranges_addValues _ _).trans h.table, ?_, ?_⟩
  · have hall : records.allLatencies.countP (covered buckets) = records.allLatencies.length :=
      List.countP_eq_length.mpr fun latency hlatency =>
        (covered_iff h.table latency).mpr (hinside latency hlatency)
    rw [countSum_addValues, hall, h.total, List.length_append]
  · intro latency hlatency
    rcases List.mem_append.mp hlatency with hold | hnew
    · exact h.inside latency hold
    · exact hinside latency hnew

-- When the sum is right after a batch, all of the batch was counted.
theorem Filled.of_counted (h : Filled latencies buckets) {records : RecordBuf ρ}
    (hcounted : Counted (latencies ++ records.allLatencies)
      (histoBucketAddValues buckets records.latencies)) :
    (∀ latency ∈ records.allLatencies, 0 < latency ∧ latency ≤ 10000) ∧
      records.records.length ≤ RECORD_BUF_SIZE := by
  have hsum : countSum (histoBucketAddValues buckets records.latencies) = _ := hcounted.sum
  rw [countSum_addValues, h.total, List.length_append] at hsum
  have hcount := List.countP_le_length (p := covered buckets) (l := records.latencies)
  have htaken : records.latencies.length = min RECORD_BUF_SIZE records.records.length := by
    simp [RecordBuf.latencies]
  have hall : records.allLatencies.length = records.records.length := by
    simp [RecordBuf.allLatencies]
  have hlength : records.records.length ≤ RECORD_BUF_SIZE := by omega
  rw [latencies_of_length hlength] at hsum
  have hcovered := List.countP_eq_length.mp (Nat.add_left_cancel hsum)
  exact ⟨fun latency hlatency => (covered_iff h.table latency).mp (hcovered latency hlatency),
    hlength⟩

end Buckets

section Tables

variable {start mng : L7Mng φ} {done : List (StatsAction ρ)} {id : TrackerId}
  {records : RecordBuf ρ}

theorem latenciesSince_round (chosen : TrackerId → Bool) (done : List (StatsAction ρ))
    (id : TrackerId) (records : RecordBuf ρ) :
    latenciesSince chosen (done ++ [.round id records]) =
      if chosen id then latenciesSince chosen done ++ records.allLatencies
      else latenciesSince chosen done := by
  simp [latenciesSince, List.foldl_append]

theorem latenciesSince_reset (chosen : TrackerId → Bool) (done : List (StatsAction ρ)) :
    latenciesSince chosen (done ++ [.reset]) = [] := by
  simp [latenciesSince, List.foldl_append]

-- Every table entry is filled with its own latencies since the last reset.
structure AllFilled (start : L7Mng φ) (done : List (StatsAction ρ)) (mng : L7Mng φ) : Prop where
  trackerIds : UniqueIds mng
  linkIds : (mng.links.map L7Link.id).Nodup
  sameLinks : ∀ id, (lkupConnTracker mng id).map ConnTracker.linkId =
    (lkupConnTracker start id).map ConnTracker.linkId
  trackers : ∀ tracker ∈ mng.trackers,
    Filled (latenciesSince (isTracker tracker.id) done) tracker.latencyBuckets
  links : ∀ link ∈ mng.links, Filled (latenciesSince (isOfLink start link.id) done) link.latencyBuckets
  missing : ∀ linkId, lkupL7Link mng linkId = none →
    latenciesSince (isOfLink start linkId) done = []

theorem allFilled_start (h : JustReset start) : AllFilled start ([] : List (StatsAction ρ)) start where
  trackerIds := h.trackerIds
  linkIds := h.linkIds
  sameLinks _ := rfl
  trackers tracker htracker := by
    rw [h.trackers tracker htracker]
    exact filled_init
  links link hlink := by
    rw [h.links link hlink]
    exact filled_init
  missing _ _ := rfl

theorem AllFilled.histograms (h : AllFilled start done mng) : Histograms start done mng where
  trackers tracker htracker := (h.trackers tracker htracker).counted
  links linkId := by
    unfold linkBuckets
    cases hlink : lkupL7Link mng linkId with
    | none =>
        rw [h.missing linkId hlink]
        exact ⟨by simp, rfl⟩
    | some link =>
        obtain rfl : link.id = linkId := HashTable.key_of_find hlink
        exact (h.links link (HashTable.mem_of_find hlink)).counted

theorem ConnTracker.addRecords_id (records : RecordBuf ρ) (tracker : ConnTracker φ) :
    (tracker.addRecords records).id = tracker.id := rfl

theorem L7Link.addRecords_id (records : RecordBuf ρ) (link : L7Link) :
    (link.addRecords records).id = link.id := rfl

theorem lkupConnTracker_changeTracker (mng : L7Mng φ) {change : ConnTracker φ → ConnTracker φ}
    (hchange : ∀ tracker, (change tracker).id = tracker.id) (id other : TrackerId) :
    lkupConnTracker (changeTracker change mng id) other =
      if other = id then (lkupConnTracker mng id).map change else lkupConnTracker mng other :=
  HashTable.find_modify hchange

theorem lkupConnTracker_reset (id : TrackerId) :
    lkupConnTracker (resetL7Stats mng) id =
      (lkupConnTracker mng id).map ConnTracker.resetStats := by
  unfold lkupConnTracker resetL7Stats HashTable.find
  rw [List.find?_map]
  rfl

theorem AllFilled.reset (h : AllFilled start done mng) :
    AllFilled start (done ++ [.reset]) (resetL7Stats mng) where
  trackerIds := by
    have hids : UniqueIds (resetL7Stats mng) ↔ UniqueIds mng := by
      unfold UniqueIds resetL7Stats
      rw [List.map_map]
      rfl
    exact hids.mpr h.trackerIds
  linkIds := by
    have hids : (resetL7Stats mng).links.map L7Link.id = mng.links.map L7Link.id := by
      unfold resetL7Stats
      rw [List.map_map]
      rfl
    rw [hids]
    exact h.linkIds
  sameLinks id := by
    rw [lkupConnTracker_reset, Option.map_map, ← h.sameLinks id]
    rfl
  trackers := by
    rintro tracker htracker
    obtain ⟨before, hbefore, rfl⟩ := List.mem_map.mp htracker
    rw [latenciesSince_reset]
    exact filled_reset (h.trackers before hbefore).table
  links := by
    rintro link hlink
    obtain ⟨before, hbefore, rfl⟩ := List.mem_map.mp hlink
    rw [latenciesSince_reset]
    exact filled_reset (h.links before hbefore).table
  missing linkId hnone := latenciesSince_reset _ _

theorem AllFilled.isOfLink_iff (h : AllFilled start done mng) {tracker : ConnTracker φ}
    (hfind : lkupConnTracker mng id = some tracker) (linkId : LinkId) :
    isOfLink start linkId id = true ↔ tracker.linkId = linkId := by
  unfold isOfLink
  rw [← h.sameLinks id, hfind]
  simp

theorem AllFilled.isOfLink_none (h : AllFilled start done mng)
    (hfind : lkupConnTracker mng id = none) (linkId : LinkId) :
    isOfLink start linkId id = false := by
  unfold isOfLink
  rw [← h.sameLinks id, hfind]
  simp

-- A round of a connection that has no tracker.
theorem AllFilled.skip (h : AllFilled start done mng) (hfind : lkupConnTracker mng id = none)
    (records : RecordBuf ρ) : AllFilled start (done ++ [.round id records]) mng where
  trackerIds := h.trackerIds
  linkIds := h.linkIds
  sameLinks := h.sameLinks
  trackers tracker htracker := by
    have hother : isTracker tracker.id id = false := by
      have hne := HashTable.find_eq_none.mp hfind tracker htracker
      simpa [isTracker] using Ne.symm hne
    rw [latenciesSince_round, hother, if_neg Bool.false_ne_true]
    exact h.trackers tracker htracker
  links link hlink := by
    rw [latenciesSince_round, h.isOfLink_none hfind, if_neg Bool.false_ne_true]
    exact h.links link hlink
  missing linkId hnone := by
    rw [latenciesSince_round, h.isOfLink_none hfind, if_neg Bool.false_ne_true]
    exact h.missing linkId hnone

theorem addTrackerStats_eq {tracker : ConnTracker φ} (hfind : lkupConnTracker mng id = some tracker)
    (records : RecordBuf ρ) :
    addTrackerStats records mng id = changeLink (L7Link.addRecords records)
      (changeTracker (ConnTracker.addRecords records) mng id) tracker.linkId := by
  unfold addTrackerStats
  rw [hfind]

theorem lkupL7Link_round {tracker : ConnTracker φ} (records : RecordBuf ρ) (linkId : LinkId) :
    (lkupL7Link (changeLink (L7Link.addRecords records)
      (changeTracker (ConnTracker.addRecords records) mng id) tracker.linkId) linkId).isSome =
      (lkupL7Link mng linkId).isSome :=
  lkupL7Link_changeLink (changeTracker (ConnTracker.addRecords records) mng id)
    (L7Link.addRecords_id records) _ _

theorem AllFilled.round (h : AllFilled start done mng) {tracker : ConnTracker φ}
    (hfind : lkupConnTracker mng id = some tracker)
    (hcounts : CountsAll mng (.round id records)) :
    AllFilled start (done ++ [.round id records]) (addTrackerStats records mng id) := by
  obtain ⟨hinside, hlength, hlink⟩ := hcounts tracker hfind
  rw [addTrackerStats_eq hfind]
  constructor
  case trackerIds => exact uniqueIds_changeTracker h.trackerIds (ConnTracker.addRecords_id records)
  case linkIds =>
    have hids : (HashTable.modify L7Link.id (L7Link.addRecords records) mng.links
        tracker.linkId).map L7Link.id = mng.links.map L7Link.id :=
      HashTable.map_key_modify (L7Link.addRecords_id records)
    exact hids ▸ h.linkIds
  case sameLinks =>
    intro other
    have hother := lkupConnTracker_changeTracker mng (ConnTracker.addRecords_id records) id other
    show (lkupConnTracker (changeTracker (ConnTracker.addRecords records) mng id) other).map
      ConnTracker.linkId = _
    rw [hother, ← h.sameLinks other]
    split_ifs with heq
    · rw [heq, Option.map_map]
      rfl
    · rfl
  case trackers =>
    intro found hfound
    rw [latenciesSince_round]
    rcases (HashTable.mem_modify h.trackerIds).mp hfound with ⟨hmem, hne⟩ | ⟨before, hbefore, rfl⟩
    · have hother : isTracker found.id id = false := by simpa [isTracker] using Ne.symm hne
      rw [hother, if_neg Bool.false_ne_true]
      exact h.trackers found hmem
    · have hid : isTracker before.id id = true := by
        simp [isTracker, HashTable.key_of_find hbefore]
      show Filled (if isTracker before.id id then _ else _) _
      rw [if_pos hid]
      exact (h.trackers before (HashTable.mem_of_find hbefore)).addValues hinside hlength
  case links =>
    intro found hfound
    rw [latenciesSince_round]
    rcases (HashTable.mem_modify h.linkIds).mp hfound with ⟨hmem, hne⟩ | ⟨before, hbefore, rfl⟩
    · have hother : ¬isOfLink start found.id id = true :=
        fun hof => hne ((h.isOfLink_iff hfind _).mp hof).symm
      rw [if_neg hother]
      exact h.links found hmem
    · have hid : isOfLink start before.id id = true :=
        (h.isOfLink_iff hfind _).mpr (HashTable.key_of_find hbefore).symm
      show Filled (if isOfLink start before.id id then _ else _) _
      rw [if_pos hid]
      exact (h.links before (HashTable.mem_of_find hbefore)).addValues hinside hlength
  case missing =>
    intro linkId hnone
    have hbefore : lkupL7Link mng linkId = none := by
      rw [← Option.not_isSome_iff_eq_none, ← lkupL7Link_round records linkId, hnone]
      exact Bool.false_ne_true
    rw [latenciesSince_round, h.missing linkId hbefore]
    split_ifs with hof
    · have heq := (h.isOfLink_iff hfind linkId).mp hof
      have hno : ¬(findL7Link mng tracker).isSome = true := by
        unfold findL7Link
        rw [heq, hbefore]
        exact Bool.false_ne_true
      have hempty := hlink.resolve_right hno
      simp [RecordBuf.allLatencies, hempty]
    · rfl

-- The histograms are only right after a round that counts all of its records.
theorem AllFilled.countsAll (h : AllFilled start done mng)
    (hafter : Histograms start (done ++ [.round id records]) (addTrackerStats records mng id)) :
    CountsAll mng (.round id records) := by
  intro tracker hfind
  rw [addTrackerStats_eq hfind] at hafter
  have hmem : tracker ∈ mng.trackers := HashTable.mem_of_find hfind
  have hid : tracker.id = id := HashTable.key_of_find hfind
  have htracker := hafter.trackers (tracker.addRecords records)
    ((HashTable.mem_modify h.trackerIds).mpr (.inr ⟨tracker, hfind, rfl⟩))
  have hmine : isTracker tracker.id id = true := by simp [isTracker, hid]
  have hlatencies : latenciesSince (isTracker (tracker.addRecords records).id)
      (done ++ [.round id records]) =
      latenciesSince (isTracker tracker.id) done ++ records.allLatencies := by
    rw [latenciesSince_round]
    exact if_pos hmine
  rw [hlatencies] at htracker
  obtain ⟨hinside, hlength⟩ := (h.trackers tracker hmem).of_counted htracker
  refine ⟨hinside, hlength, ?_⟩
  cases hlink : findL7Link mng tracker with
  | some link => exact .inr rfl
  | none =>
      have hsum := (hafter.links tracker.linkId).sum
      have hnone : lkupL7Link (changeLink (L7Link.addRecords records)
          (changeTracker (ConnTracker.addRecords records) mng id) tracker.linkId)
          tracker.linkId = none := by
        rw [← Option.not_isSome_iff_eq_none, lkupL7Link_round records tracker.linkId]
        exact Option.not_isSome_iff_eq_none.mpr hlink
      have hof := (h.isOfLink_iff hfind tracker.linkId).mpr rfl
      rw [latenciesSince_round, if_pos hof, linkBuckets, hnone] at hsum
      refine .inl (List.length_eq_zero_iff.mp ?_)
      simp only [Option.map_none, Option.getD_none, List.map_nil, List.sum_nil,
        List.length_append, RecordBuf.allLatencies, List.length_map] at hsum
      omega

end Tables

section Run

-- From any tables that were just reset, over any rounds and resets, the histograms of
-- the trackers and of their links agree with the records after every action exactly if
-- each round counts all of its records.
theorem histograms_iff (start : L7Mng φ) (hstart : JustReset start)
    (actions : List (StatsAction ρ)) :
    Throughout statsStep start (Histograms start) actions ↔
      EachStep statsStep start (fun _ mng action => CountsAll mng action) actions := by
  have hlegal : EachStep statsStep start (fun _ _ (_ : StatsAction ρ) => True) actions :=
    fun _ _ _ _ => trivial
  refine throughout_iff_eachStep (AllFilled start) (allFilled_start hstart)
    (fun _ _ => AllFilled.histograms) ?_ ?_ hlegal
  · intro done mng action hinv _ hcounts
    cases action with
    | reset => exact hinv.reset
    | round id records =>
        cases hfind : lkupConnTracker mng id with
        | none =>
            have hskip : statsStep mng (.round id records) = mng := by
              simp [statsStep, addTrackerStats, hfind]
            rw [hskip]
            exact hinv.skip hfind records
        | some tracker => exact hinv.round hfind hcounts
  · intro done mng action hinv _ hafter
    cases action with
    | reset => trivial
    | round id records => exact hinv.countsAll hafter

end Run

-- One connection with its link.
def oneConnection : L7Mng Unit where
  trackers := [createConnTracker ⟨7, 3⟩]
  links := [createL7Link (createConnTracker ⟨7, 3⟩ : ConnTracker Unit).linkId]
  crashed := false

theorem justReset_oneConnection : JustReset oneConnection where
  trackerIds := List.nodup_singleton _
  linkIds := List.nodup_singleton _
  trackers := by simp [oneConnection, createConnTracker]
  links := by simp [oneConnection, createL7Link]

def oneRecord (latency : UInt64) : RecordBuf Unit where
  records := [⟨(), latency⟩]
  errCount := 0
  reqCount := 1
  respCount := 1

-- A latency of 20 nanoseconds is counted.
theorem histograms_iff_oneConnection :
    Throughout statsStep oneConnection (Histograms oneConnection)
      [.round ⟨7, 3⟩ (oneRecord 20), .reset] := by
  refine (histograms_iff oneConnection justReset_oneConnection _).mpr ?_
  refine eachStep_cons.mpr ⟨?_, eachStep_cons.mpr ⟨trivial, eachStep_nil⟩⟩
  intro tracker hfind
  obtain rfl : createConnTracker ⟨7, 3⟩ = tracker := Option.some.inj hfind
  refine ⟨fun latency hlatency => ?_, by decide, .inr (by decide)⟩
  obtain rfl : latency = 20 := List.mem_singleton.mp hlatency
  exact ⟨by decide, by decide⟩

-- A latency of one millisecond is not.
theorem millisecond_not_counted :
    ¬∀ start : L7Mng Unit, JustReset start → ∀ actions : List (StatsAction Unit),
      Throughout statsStep start (Histograms start) actions := by
  intro h
  have hlast := (h oneConnection justReset_oneConnection
    [.round ⟨7, 3⟩ (oneRecord 1000000)]).last
  have hsum := (hlast.links (createConnTracker ⟨7, 3⟩ : ConnTracker Unit).linkId).sum
  revert hsum
  decide

end Gopher.L7
