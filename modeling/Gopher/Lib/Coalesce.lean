import Mathlib.Algebra.BigOperators.Ring.Finset
import Mathlib.Data.List.Chain

-- Merging what follows closely. Intervals that arrive one behind the other are put together
-- until one of them reaches the end of the window that opened with the first.

namespace Gopher.Lib.Coalesce

variable {τ ι ν : Type*}

-- A stretch of time with what is known of it.
structure Interval (τ ι : Type*) where
  start : τ
  stop : τ
  info : ι
  deriving DecidableEq, Repr

-- Intervals put together, with their number as far as it can be held. What is known is that
-- of the first.
structure Batch (τ ι ν : Type*) where
  start : τ
  stop : τ
  duration : τ
  count : ν
  info : ι
  deriving DecidableEq, Repr

-- One interval and those behind it.
structure Group (τ ι : Type*) where
  first : Interval τ ι
  rest : List (Interval τ ι)

namespace Group

def single (interval : Interval τ ι) : Group τ ι := ⟨interval, []⟩

def push (group : Group τ ι) (interval : Interval τ ι) : Group τ ι :=
  { group with rest := group.rest ++ [interval] }

def intervals (group : Group τ ι) : List (Interval τ ι) := group.first :: group.rest

def last (group : Group τ ι) : Interval τ ι := group.rest.getLastD group.first

@[simp] theorem intervals_single (interval : Interval τ ι) :
    (single interval).intervals = [interval] := rfl

@[simp] theorem intervals_push (group : Group τ ι) (interval : Interval τ ι) :
    (group.push interval).intervals = group.intervals ++ [interval] := rfl

@[simp] theorem last_push (group : Group τ ι) (interval : Interval τ ι) :
    (group.push interval).last = interval := by
  simp [push, last]

variable (reaches : τ → τ → Bool)

-- An interval as long as the window.
def Long (group : Group τ ι) : Prop :=
  group.rest = [] ∧ reaches group.first.start group.first.stop = true

-- No interval reaches the end of the window.
def Within (group : Group τ ι) : Prop :=
  ∀ interval ∈ group.intervals, reaches group.first.start interval.stop = false

-- The next group had to be opened.
def Before (group next : Group τ ι) : Prop :=
  group.Long reaches ∨ reaches group.first.start next.first.stop = true

end Group

-- The groups that intervals fall into when each takes as much as its window allows, the
-- last one of them still waiting.
structure Grouping (reaches : τ → τ → Bool) (intervals : List (Interval τ ι))
    (done : List (Group τ ι)) (waiting : Option (Group τ ι)) : Prop where
  intervals_eq : intervals = (done ++ waiting.toList).flatMap Group.intervals
  done_fits : ∀ group ∈ done, group.Long reaches ∨ group.Within reaches
  waiting_fits : ∀ group ∈ waiting, group.Within reaches
  before : (done ++ waiting.toList).IsChain (Group.Before reaches)

namespace Grouping

variable {reaches : τ → τ → Bool} {intervals : List (Interval τ ι)} {done : List (Group τ ι)}
  {group : Group τ ι} {interval : Interval τ ι}

-- What waits is closed.
theorem close (h : Grouping reaches intervals done (some group)) :
    Grouping reaches intervals (done ++ [group]) none where
  intervals_eq := by
    rw [h.intervals_eq, Option.toList_none, List.append_nil]
    rfl
  done_fits := by
    intro other hother
    rcases List.mem_append.mp hother with hother | hother
    · exact h.done_fits other hother
    · rw [List.mem_singleton.mp hother]
      exact .inr (h.waiting_fits group rfl)
  waiting_fits := by simp
  before := by
    rw [Option.toList_none, List.append_nil]
    exact h.before

-- What waits takes one more.
theorem push (h : Grouping reaches intervals done (some group))
    (hwithin : reaches group.first.start interval.stop = false) :
    Grouping reaches (intervals ++ [interval]) done (some (group.push interval)) where
  intervals_eq := by
    rw [h.intervals_eq, List.flatMap_append, List.flatMap_append, List.append_assoc]
    simp
  done_fits := h.done_fits
  waiting_fits := by
    intro other hother
    rw [Option.mem_some_iff] at hother
    rw [← hother]
    intro one hone
    rw [Group.intervals_push] at hone
    rcases List.mem_append.mp hone with hone | hone
    · exact h.waiting_fits group rfl one hone
    · rw [List.mem_singleton.mp hone]
      exact hwithin
  before := by
    obtain ⟨hdone, -, hlast⟩ := List.isChain_append.mp h.before
    refine hdone.append (.singleton _) fun one hone next hnext => ?_
    rw [Option.toList_some, List.head?_cons, Option.mem_some_iff] at hnext
    rw [← hnext]
    exact hlast one hone group (by simp)

-- A group behind those that had to be closed for it.
theorem before_single (h : Grouping reaches intervals done none)
    (hbefore : ∀ group ∈ done.getLast?, group.Before reaches (.single interval)) :
    (done ++ [Group.single interval]).IsChain (Group.Before reaches) := by
  have hdone := h.before
  rw [Option.toList_none, List.append_nil] at hdone
  refine hdone.append (.singleton _) fun group hgroup next hnext => ?_
  rw [List.head?_cons, Option.mem_some_iff] at hnext
  rw [← hnext]
  exact hbefore group hgroup

theorem intervals_single (h : Grouping reaches intervals done none) :
    intervals ++ [interval] = (done ++ [Group.single interval]).flatMap Group.intervals := by
  rw [h.intervals_eq, Option.toList_none, List.append_nil, List.flatMap_append]
  rfl

-- One that goes out alone.
theorem long (h : Grouping reaches intervals done none)
    (hbefore : ∀ group ∈ done.getLast?, group.Before reaches (.single interval))
    (hlong : reaches interval.start interval.stop = true) :
    Grouping reaches (intervals ++ [interval]) (done ++ [.single interval]) none where
  intervals_eq := by rw [h.intervals_single, Option.toList_none, List.append_nil]
  done_fits := by
    intro group hgroup
    rcases List.mem_append.mp hgroup with hgroup | hgroup
    · exact h.done_fits group hgroup
    · rw [List.mem_singleton.mp hgroup]
      exact .inl ⟨rfl, hlong⟩
  waiting_fits := by simp
  before := by
    rw [Option.toList_none, List.append_nil]
    exact h.before_single hbefore

-- One that waits.
theorem wait (h : Grouping reaches intervals done none)
    (hbefore : ∀ group ∈ done.getLast?, group.Before reaches (.single interval))
    (hshort : reaches interval.start interval.stop = false) :
    Grouping reaches (intervals ++ [interval]) done (some (.single interval)) where
  intervals_eq := h.intervals_single
  done_fits := h.done_fits
  waiting_fits := by
    intro group hgroup other hother
    rw [Option.mem_some_iff] at hgroup
    rw [← hgroup, Group.intervals_single] at hother
    rw [← hgroup, List.mem_singleton.mp hother]
    exact hshort
  before := h.before_single hbefore

end Grouping

variable [Add τ] [Sub τ] [AddMonoidWithOne ν]

def Interval.length (interval : Interval τ ι) : τ := interval.stop - interval.start

def Batch.single (interval : Interval τ ι) : Batch τ ι ν where
  start := interval.start
  stop := interval.stop
  duration := interval.length
  count := 1
  info := interval.info

def Batch.merge (batch : Batch τ ι ν) (interval : Interval τ ι) : Batch τ ι ν :=
  { batch with
    stop := interval.stop
    duration := batch.duration + interval.length
    count := batch.count + 1 }

-- What a group is to become.
def Group.batch (group : Group τ ι) : Batch τ ι ν where
  start := group.first.start
  stop := group.last.stop
  duration := group.rest.foldl (fun total interval => total + interval.length) group.first.length
  count := group.intervals.length
  info := group.first.info

theorem Group.batch_single (interval : Interval τ ι) :
    ((single interval).batch : Batch τ ι ν) = .single interval := by
  simp only [batch, Batch.single, intervals_single, List.length_singleton, Nat.cast_one]
  rfl

theorem Group.batch_push (group : Group τ ι) (interval : Interval τ ι) :
    (group.push interval).batch = (group.batch : Batch τ ι ν).merge interval := by
  have hlast := group.last_push interval
  simp only [batch, Batch.merge, hlast, intervals_push, List.length_append]
  simp [push]

variable (reaches : τ → τ → Bool)

-- An interval that reaches the end of its own window goes out alone, another one waits.
def openBatch (interval : Interval τ ι) : Option (Batch τ ι ν) × List (Batch τ ι ν) :=
  if reaches interval.start interval.stop then (none, [.single interval])
  else (some (.single interval), [])

-- What waits behind the interval, and what goes out for it.
def coalesce (waiting : Option (Batch τ ι ν)) (interval : Interval τ ι) :
    Option (Batch τ ι ν) × List (Batch τ ι ν) :=
  match waiting with
  | none => openBatch reaches interval
  | some batch =>
      if reaches batch.start interval.stop then
        ((openBatch reaches interval).1, batch :: (openBatch reaches interval).2)
      else (some (batch.merge interval), [])

variable {reaches} {batch : Batch τ ι ν} {interval : Interval τ ι}

theorem coalesce_none :
    coalesce reaches (none : Option (Batch τ ι ν)) interval = openBatch reaches interval := rfl

theorem coalesce_of_reaches (hreaches : reaches batch.start interval.stop = true) :
    coalesce reaches (some batch) interval =
      ((openBatch reaches interval).1, batch :: (openBatch reaches interval).2) :=
  if_pos hreaches

theorem coalesce_of_within (hwithin : reaches batch.start interval.stop = false) :
    coalesce reaches (some batch) interval = (some (batch.merge interval), []) :=
  if_neg (ne_true_of_eq_false hwithin)

-- What holds of single intervals and is kept by merging holds of all batches.
omit [Add τ] in
variable (reaches) in
theorem forall_openBatch {property : Batch τ ι ν → Prop}
    (hsingle : property (.single interval)) :
    (∀ batch ∈ (openBatch reaches interval).1, property batch) ∧
      ∀ batch ∈ (openBatch reaches interval).2, property batch := by
  rw [openBatch]
  split_ifs <;> simpa using hsingle

variable (reaches interval) in
theorem forall_coalesce {property : Batch τ ι ν → Prop} {waiting : Option (Batch τ ι ν)}
    (hwaiting : ∀ batch ∈ waiting, property batch) (hsingle : property (.single interval))
    (hmerge : ∀ batch ∈ waiting, reaches batch.start interval.stop = false →
      property (batch.merge interval)) :
    (∀ batch ∈ (coalesce reaches waiting interval).1, property batch) ∧
      ∀ batch ∈ (coalesce reaches waiting interval).2, property batch := by
  obtain ⟨hopen, hout⟩ := forall_openBatch reaches hsingle
  cases waiting with
  | none => exact ⟨hopen, hout⟩
  | some batch =>
      by_cases hreaches : reaches batch.start interval.stop = true
      · rw [coalesce_of_reaches hreaches]
        exact ⟨hopen, List.forall_mem_cons.mpr ⟨hwaiting batch rfl, hout⟩⟩
      · have hwithin := eq_false_of_ne_true hreaches
        rw [coalesce_of_within hwithin]
        simpa using hmerge batch rfl hwithin

variable (reaches)

-- What went out and what waits are the batches of such groups. Nothing waits behind an
-- interval that went out alone.
def Coalesced (intervals : List (Interval τ ι)) (out : List (Batch τ ι ν))
    (waiting : Option (Batch τ ι ν)) : Prop :=
  ∃ done pending, Grouping reaches intervals done pending ∧
    (pending = none → ∀ group ∈ done.getLast?, group.Long reaches) ∧
    out = done.map Group.batch ∧ waiting = pending.map Group.batch

variable {reaches} {intervals : List (Interval τ ι)} {done : List (Group τ ι)}
  {out : List (Batch τ ι ν)} {waiting : Option (Batch τ ι ν)}

theorem coalesced_nil :
    Coalesced reaches ([] : List (Interval τ ι)) ([] : List (Batch τ ι ν)) none :=
  ⟨[], none, ⟨rfl, by simp, by simp, .nil⟩, by simp, rfl, rfl⟩

variable (ν) in
-- A new group behind groups that had to be closed for it.
theorem Grouping.openBatch (h : Grouping reaches intervals done none)
    (hbefore : ∀ group ∈ done.getLast?, group.Before reaches (.single interval)) :
    Coalesced reaches (intervals ++ [interval])
      (done.map Group.batch ++ (openBatch reaches interval).2 : List (Batch τ ι ν))
      (openBatch reaches interval).1 := by
  rw [Coalesce.openBatch]
  split_ifs with hlong
  · refine ⟨done ++ [.single interval], none, h.long hbefore hlong, ?_, ?_, rfl⟩
    · intro _ group hgroup
      rw [List.getLast?_concat, Option.mem_some_iff] at hgroup
      exact hgroup ▸ ⟨rfl, hlong⟩
    · rw [List.map_append, List.map_singleton, Group.batch_single]
  · refine ⟨done, some (.single interval), h.wait hbefore (eq_false_of_ne_true hlong), ?_, ?_, ?_⟩
    · intro hnone
      cases hnone
    · rw [List.append_nil]
    · rw [Option.map_some, Group.batch_single]

-- One more interval.
theorem Coalesced.step (h : Coalesced reaches intervals out waiting)
    (interval : Interval τ ι) :
    Coalesced reaches (intervals ++ [interval]) (out ++ (coalesce reaches waiting interval).2)
      (coalesce reaches waiting interval).1 := by
  obtain ⟨done, pending, hgroups, hidle, rfl, rfl⟩ := h
  cases pending with
  | none =>
      exact hgroups.openBatch ν fun group hgroup => .inl (hidle rfl group hgroup)
  | some group =>
      rw [Option.map_some]
      by_cases hreaches : reaches group.first.start interval.stop = true
      · rw [coalesce_of_reaches hreaches]
        have hlast : ∀ other ∈ (done ++ [group]).getLast?,
            other.Before reaches (.single interval) := by
          intro other hother
          rw [List.getLast?_concat, Option.mem_some_iff] at hother
          exact hother ▸ .inr hreaches
        have hopen := hgroups.close.openBatch ν hlast
        rwa [List.map_append, List.append_assoc] at hopen
      · rw [coalesce_of_within (eq_false_of_ne_true hreaches), List.append_nil]
        refine ⟨done, some (group.push interval), hgroups.push (eq_false_of_ne_true hreaches), ?_,
          rfl, ?_⟩
        · intro hnone
          cases hnone
        · rw [Option.map_some, Group.batch_push]

-- Every interval is counted once.
theorem Coalesced.count_eq (h : Coalesced reaches intervals out waiting) :
    ((out ++ waiting.toList).map Batch.count).sum = (intervals.length : ν) := by
  obtain ⟨done, pending, hgroups, -, rfl, rfl⟩ := h
  have hmap : (done.map Group.batch ++ (pending.map Group.batch).toList : List (Batch τ ι ν)) =
      (done ++ pending.toList).map Group.batch := by
    cases pending <;> simp
  rw [hmap, hgroups.intervals_eq, List.length_flatMap, List.map_map, Nat.cast_list_sum,
    List.map_map]
  rfl

section Order

variable [LE τ]

-- The next batch starts where the last one is over.
def Follows (batch next : Batch τ ι ν) : Prop := batch.stop ≤ next.start

omit [Add τ] [LE τ] in
theorem trail_openBatch :
    (openBatch reaches interval).2 ++ (openBatch reaches interval).1.toList =
      [(.single interval : Batch τ ι ν)] := by
  rw [openBatch]
  split_ifs <;> rfl

-- An interval behind all batches keeps them in order.
theorem ordered_coalesce (hordered : (out ++ waiting.toList).IsChain Follows)
    (hlast : ∀ batch ∈ (out ++ waiting.toList).getLast?, batch.stop ≤ interval.start) :
    (out ++ ((coalesce reaches waiting interval).2 ++
      (coalesce reaches waiting interval).1.toList)).IsChain Follows := by
  have hsingle : ((out ++ waiting.toList) ++
      [(.single interval : Batch τ ι ν)]).IsChain Follows := by
    refine hordered.append (.singleton _) fun batch hbatch next hnext => ?_
    rw [List.head?_cons, Option.mem_some_iff] at hnext
    rw [← hnext]
    exact hlast batch hbatch
  cases waiting with
  | none =>
      rw [coalesce_none, trail_openBatch]
      rwa [Option.toList_none, List.append_nil] at hsingle
  | some batch =>
      by_cases hreaches : reaches batch.start interval.stop = true
      · rw [coalesce_of_reaches hreaches, List.cons_append, trail_openBatch]
        rwa [List.append_assoc] at hsingle
      · rw [coalesce_of_within (eq_false_of_ne_true hreaches)]
        obtain ⟨hout, -, hbefore⟩ := List.isChain_append.mp hordered
        refine hout.append (.singleton _) fun one hone next hnext => ?_
        rw [List.nil_append, Option.toList_some, List.head?_cons, Option.mem_some_iff] at hnext
        rw [← hnext]
        exact hbefore one hone batch rfl

end Order

end Gopher.Lib.Coalesce
