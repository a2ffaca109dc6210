import Gopher.L7.ConnTracker
import Gopher.L7.Histogram.Percentiles
import Gopher.Lib.Run

namespace Gopher.L7

open Gopher.Lib

-- A value, the reset of the statistics or their report. The three calls of
-- `calc_tracker_stats` and of `calc_link_stats` only read the buckets.
inductive HistoAction
  | add (value : UInt64)
  | reset
  | report
  deriving DecidableEq, Repr

def histoStep (buckets : List HistoBucket) : HistoAction → List HistoBucket
  | .add value => (histoBucketAddValue buckets value).1
  | .reset => histoBucketReset buckets
  | .report => buckets

def calcLatency (fl : Rounding FLT_MANT_DIG) (buckets : List HistoBucket) : List HistoValue :=
  [.HISTO_P50, .HISTO_P90, .HISTO_P99].map (histoBucketValue fl buckets)

-- No report divides by zero.
def NeverDivides (fl : Rounding FLT_MANT_DIG) (start : List HistoBucket)
    (actions : List HistoAction) : Prop :=
  EachStep histoStep start
    (fun _ buckets action => action = .report → .divByZero ∉ calcLatency fl buckets) actions

-- The values since the last reset.
def valuesSince (actions : List HistoAction) : List UInt64 :=
  actions.foldl (fun values action =>
    match action with
    | .add value => values ++ [value]
    | .reset => []
    | .report => values) []

-- Two values that the buckets cover, or one that the first of them covers.
def Enough (start : List HistoBucket) (values : List UInt64) : Prop :=
  start = [] ∨ 2 ≤ values.countP (covered start) ∨
    start.head?.any (fun first => values.any first.covers) = true

instance (start : List HistoBucket) (values : List UInt64) : Decidable (Enough start values) :=
  inferInstanceAs (Decidable (_ ∨ _ ∨ _))

variable {fl : Rounding FLT_MANT_DIG} {start buckets : List HistoBucket} {values : List UInt64}
  {value : UInt64}

section Division

theorem value_eq_divByZero_iff (type : HistoType) :
    histoBucketValue fl buckets type = .divByZero ↔ buckets ≠ [] ∧ ¬Divisible buckets := by
  constructor
  · intro h
    unfold histoBucketValue at h
    cases hfind : findHistoBucket buckets (histoCount fl (countSum buckets) type) with
    | none =>
        rw [hfind] at h
        cases h
    | some found =>
        obtain ⟨bucket, offset⟩ := found
        rw [hfind] at h
        obtain ⟨before, after, hlocated⟩ := exists_located hfind
        have hempty : bucket.count = 0 := by
          by_contra hcount
          unfold interpolate at h
          dsimp only at h
          rw [if_neg (mt (fl.natCast_eq_zero_iff _).mp hcount)] at h
          cases h
        constructor
        · rintro rfl
          cases hfind
        · intro hdivisible
          have hpos := hlocated.count_pos (hdivisible.imp (histoCount_pos fl · type) id)
          omega
  · rintro ⟨hne, hnot⟩
    obtain ⟨htwo, hfirst⟩ := not_or.mp hnot
    have hone : countSum buckets ≤ 1 := by omega
    cases buckets with
    | nil => exact absurd rfl hne
    | cons first buckets =>
        have hempty : first.count = 0 := by
          by_contra hcount
          exact hfirst ⟨first, rfl, hcount⟩
        unfold histoBucketValue
        rw [histoCount_zero fl hone type, findHistoBucket, if_neg (Nat.not_lt_zero _)]
        exact interpolate_empty fl hempty

theorem divByZero_mem_iff :
    .divByZero ∈ calcLatency fl buckets ↔ buckets ≠ [] ∧ ¬Divisible buckets := by
  unfold calcLatency
  rw [List.mem_map]
  constructor
  · rintro ⟨type, -, heq⟩
    exact (value_eq_divByZero_iff type).mp heq
  · intro h
    exact ⟨.HISTO_P50, by simp, (value_eq_divByZero_iff _).mpr h⟩

end Division

section Filling

-- The buckets hold exactly these values, and the first bucket those it covers.
structure Holds (start : List HistoBucket) (values : List UInt64) (buckets : List HistoBucket) :
    Prop where
  ranges : ranges buckets = ranges start
  sum : countSum buckets = values.countP (covered start)
  first : buckets.head?.map HistoBucket.count =
    start.head?.map fun first => values.countP first.covers

theorem Holds.add (h : Holds start values buckets) :
    Holds start (values ++ [value]) (histoBucketAddValue buckets value).1 where
  ranges := ranges_addValue.trans h.ranges
  sum := by
    have hcovered : covered buckets value = covered start value := by
      rw [covered_eq_any, covered_eq_any, h.ranges]
    rw [countSum_addValue, h.sum, hcovered, List.countP_append, List.countP_singleton]
  first := by
    have hfirst := h.first
    have hranges := h.ranges
    cases buckets with
    | nil =>
        cases start with
        | nil => rfl
        | cons first start => cases hfirst
    | cons bucket buckets =>
        cases start with
        | nil => cases hfirst
        | cons first start =>
            simp only [List.head?_cons, Option.map_some, Option.some.injEq] at hfirst ⊢
            have hrange := (List.cons.inj hranges).1
            have hcovers : bucket.covers value = first.covers value :=
              congrArg (inRange value) hrange
            rw [List.countP_append, List.countP_singleton, ← hcovers, ← hfirst,
              histoBucketAddValue]
            cases bucket.covers value with
            | true => rfl
            | false => rfl

theorem Holds.reset (h : Holds start values buckets) :
    Holds start [] (histoBucketReset buckets) where
  ranges := ranges_reset.trans h.ranges
  sum := countSum_reset
  first := by
    have hfirst := h.first
    cases buckets with
    | nil =>
        cases start with
        | nil => rfl
        | cons first start => cases hfirst
    | cons bucket buckets =>
        cases start with
        | nil => cases hfirst
        | cons first start => rfl

theorem holds_start (hstart : countSum start = 0) : Holds start [] start where
  ranges := rfl
  sum := hstart
  first := by
    cases start with
    | nil => rfl
    | cons first start =>
        rw [countSum_cons] at hstart
        have hzero : first.count = 0 := by omega
        simp [hzero]

theorem holds_step (done : List HistoAction) (buckets : List HistoBucket) (action : HistoAction)
    (h : Holds start (valuesSince done) buckets) :
    Holds start (valuesSince (done ++ [action])) (histoStep buckets action) := by
  have hvalues : valuesSince (done ++ [action]) =
      match action with
      | .add value => valuesSince done ++ [value]
      | .reset => []
      | .report => valuesSince done := by
    unfold valuesSince
    rw [List.foldl_append]
    rfl
  rw [hvalues]
  cases action with
  | add value => exact h.add
  | reset => exact h.reset
  | report => exact h

theorem Holds.enough_iff (h : Holds start values buckets) :
    Enough start values ↔ buckets = [] ∨ Divisible buckets := by
  have hfirst := h.first
  unfold Enough Divisible
  rw [h.sum]
  cases buckets with
  | nil =>
      cases start with
      | nil => simp
      | cons first start => cases hfirst
  | cons bucket buckets =>
      cases start with
      | nil => cases hfirst
      | cons first start =>
          have hcount : bucket.count = values.countP first.covers := by simpa using hfirst
          have hany : values.any first.covers = true ↔ bucket.count ≠ 0 := by
            rw [hcount, ← Nat.pos_iff_ne_zero, List.countP_pos_iff, List.any_eq_true]
          simp [hany]

end Filling

-- A report divides by zero exactly if fewer than two values were counted since the last
-- reset and none of them in the first bucket.
theorem histoBucketValue_neverDivides_iff (fl : Rounding FLT_MANT_DIG) (start : List HistoBucket)
    (hstart : countSum start = 0) (actions : List HistoAction) :
    NeverDivides fl start actions ↔
      EachStep histoStep start
        (fun done _ action => action = .report → Enough start (valuesSince done)) actions := by
  have hiff {done : List HistoAction} {buckets : List HistoBucket}
      (h : Holds start (valuesSince done) buckets) :
      .divByZero ∉ calcLatency fl buckets ↔ Enough start (valuesSince done) := by
    rw [divByZero_mem_iff, h.enough_iff, not_and_or, not_ne_iff, not_not]
  constructor
  · intro h
    refine h.imp (fun done => Holds start (valuesSince done)) (holds_start hstart) ?_ ?_
    · exact fun done buckets action hholds _ => holds_step done buckets action hholds
    · exact fun done buckets action hholds hnot hreport => (hiff hholds).mp (hnot hreport)
  · intro h
    refine h.imp (fun done => Holds start (valuesSince done)) (holds_start hstart) ?_ ?_
    · exact fun done buckets action hholds _ => holds_step done buckets action hholds
    · exact fun done buckets action hholds henough hreport => (hiff hholds).mpr (henough hreport)

-- A report after one value of the first bucket, and one after two others.
theorem histoBucketValue_neverDivides_iff_counted :
    NeverDivides unrounded initLatencyBuckets
      [.add 1, .report, .reset, .add 2, .add 700, .report] :=
  (histoBucketValue_neverDivides_iff unrounded _ (by decide) _).mpr (by decide)

-- The report of a tracker that has counted nothing.
theorem emptyHistogram_divides :
    ¬∀ fl start actions, countSum start = 0 → NeverDivides fl start actions := by
  intro h
  have hreport := h unrounded initLatencyBuckets [.report] (by decide) [] .report [] rfl rfl
  have hholds : Holds initLatencyBuckets [] initLatencyBuckets := holds_start (by decide)
  refine hreport (divByZero_mem_iff.mpr ⟨by decide, fun hdivisible => ?_⟩)
  have henough := hholds.enough_iff.mpr (.inr hdivisible)
  revert henough
  decide

end Gopher.L7
