import Gopher.L7.Histogram
import Gopher.Lib.Rounding
import Mathlib.Algebra.Order.Floor.Semifield
import Mathlib.Algebra.Order.Floor.Semiring
import Mathlib.Data.List.Chain
import Mathlib.Data.Rat.Floor

namespace Gopher.L7

open Gopher.Lib

inductive HistoType
  | HISTO_P50
  | HISTO_P90
  | HISTO_P99
  deriving DecidableEq, Repr

-- What the constants are written as. They are rounded to a `float`.
def histoP : HistoType → ℚ
  | .HISTO_P50 => 1 / 2
  | .HISTO_P90 => 9 / 10
  | .HISTO_P99 => 99 / 100

-- The bits of the significand of a `float`.
def FLT_MANT_DIG : ℕ := 24

-- `histo_count`, with the way in which results are rounded. `__get_histo_bucket_sum` is
-- `countSum`.
def histoCount (fl : Rounding FLT_MANT_DIG) (sum : ℕ) (type : HistoType) : ℕ :=
  ⌊fl (fl sum * fl (histoP type))⌋₊

-- The bucket with the offset. `none` is NULL, with which the offset stays 0.
def findHistoBucket : List HistoBucket → ℕ → Option (HistoBucket × ℕ)
  | [], _ => none
  | bucket :: buckets, remain =>
      if remain > bucket.count then findHistoBucket buckets (remain - bucket.count)
      else some (bucket, bucket.count - remain)

-- The return value -1, a quotient with the divisor 0 or what is written to `value`.
inductive HistoValue
  | failed
  | divByZero
  | value (value : ℚ)
  deriving DecidableEq

def interpolate (fl : Rounding FLT_MANT_DIG) (bucket : HistoBucket) (offset : ℕ) : HistoValue :=
  let offset := if offset = 0 then offset + 1 else offset
  if fl bucket.count = 0 then .divByZero
  else .value (fl (fl (fl (bucket.max - bucket.min).toNat * fl (fl offset / fl bucket.count)) +
    fl bucket.min.toNat))

def histoBucketValue (fl : Rounding FLT_MANT_DIG) (buckets : List HistoBucket) (type : HistoType) :
    HistoValue :=
  match findHistoBucket buckets (histoCount fl (countSum buckets) type) with
  | none => .failed
  | some (bucket, offset) => interpolate fl bucket offset

variable {buckets : List HistoBucket} {bucket : HistoBucket} {rank offset : ℕ}

section Rank

variable (fl : Rounding FLT_MANT_DIG)

-- However results are rounded, the rank of one value or none is 0.
theorem histoCount_zero {sum : ℕ} (h : sum ≤ 1) (type : HistoType) :
    histoCount fl sum type = 0 := by
  have hp : histoP type ≤ Rounding.predOne FLT_MANT_DIG := by
    cases type <;> norm_num [histoP, Rounding.predOne, FLT_MANT_DIG]
  have hlt : fl (fl sum * fl (histoP type)) < 1 := by
    rcases Nat.le_one_iff_eq_zero_or_eq_one.mp h with rfl | rfl
    · rw [Nat.cast_zero, fl.zero, zero_mul, fl.zero]
      exact zero_lt_one
    · rw [Nat.cast_one, fl.one, one_mul]
      exact lt_of_le_of_lt (fl.le_predOne (fl.le_predOne hp)) (Rounding.predOne_lt_one _)
  exact Nat.floor_eq_zero.mpr hlt

-- And that of two values or more is not.
theorem histoCount_pos {sum : ℕ} (h : 2 ≤ sum) (type : HistoType) :
    1 ≤ histoCount fl sum type := by
  have hp : (1 / 2 : ℚ) ≤ fl (histoP type) := by
    rw [← fl.half]
    refine fl.mono _ _ ?_
    cases type <;> norm_num [histoP]
  have hsum : (2 : ℚ) ≤ fl sum := by
    rw [← fl.two]
    exact fl.mono _ _ (by exact_mod_cast h)
  have hmul : (1 : ℚ) ≤ fl sum * fl (histoP type) := by
    have hle := mul_le_mul hsum hp (by norm_num) (by linarith)
    linarith
  have hone := fl.mono _ _ hmul
  rw [fl.one] at hone
  exact Nat.one_le_floor_iff _ |>.mpr hone

end Rank

-- The bucket in which the rank lies, and how many of its values come behind it. Only rank
-- 0 lies in no bucket, the first one is taken for it.
structure Located (buckets : List HistoBucket) (rank : ℕ) (bucket : HistoBucket) (offset : ℕ)
    (before after : List HistoBucket) : Prop where
  split : buckets = before ++ bucket :: after
  behind : countSum before + bucket.count = rank + offset
  reached : before = [] ∨ countSum before < rank

theorem exists_located (h : findHistoBucket buckets rank = some (bucket, offset)) :
    ∃ before after, Located buckets rank bucket offset before after := by
  induction buckets generalizing rank with
  | nil => cases h
  | cons first buckets ih =>
      rw [findHistoBucket] at h
      split_ifs at h with hmore
      · obtain ⟨before, after, hsplit, hbehind, hreached⟩ := ih h
        refine ⟨first :: before, after, by rw [hsplit]; rfl, ?_, .inr ?_⟩
        · rw [countSum_cons]
          omega
        · rw [countSum_cons]
          rcases hreached with rfl | hlt
          · have hzero : countSum [] = 0 := rfl
            omega
          · omega
      · cases h
        refine ⟨[], buckets, rfl, ?_, .inl rfl⟩
        have hzero : countSum [] = 0 := rfl
        omega

-- A rank that lies in a bucket is found there.
theorem find_of_split {before after : List HistoBucket} (hlt : countSum before < rank)
    (hle : rank ≤ countSum before + bucket.count) :
    findHistoBucket (before ++ bucket :: after) rank =
      some (bucket, countSum before + bucket.count - rank) := by
  induction before generalizing rank with
  | nil =>
      have hzero : countSum [] = 0 := rfl
      rw [List.nil_append, findHistoBucket, if_neg (by omega)]
      have hoffset : bucket.count - rank = countSum [] + bucket.count - rank := by omega
      rw [hoffset]
  | cons first before ih =>
      rw [countSum_cons] at hlt hle
      have hoffset : countSum before + bucket.count - (rank - first.count) =
          countSum (first :: before) + bucket.count - rank := by
        rw [countSum_cons]
        omega
      have hrest := @ih (rank - first.count) (by omega) (by omega)
      rw [List.cons_append, findHistoBucket, if_pos (by omega), hrest, hoffset]

theorem find_isSome (hne : buckets ≠ []) (hle : rank ≤ countSum buckets) :
    ∃ bucket offset, findHistoBucket buckets rank = some (bucket, offset) := by
  induction buckets generalizing rank with
  | nil => exact absurd rfl hne
  | cons first buckets ih =>
      rw [countSum_cons] at hle
      rw [findHistoBucket]
      split_ifs with hmore
      · refine ih ?_ (by omega)
        rintro rfl
        have hzero : countSum [] = 0 := rfl
        omega
      · exact ⟨first, first.count - rank, rfl⟩

variable {buckets before after before' after' : List HistoBucket} {bucket bucket' : HistoBucket}
  {rank rank' offset offset' : ℕ}

-- Buckets with a width, each of which begins where the one before ends.
structure Adjacent (buckets : List HistoBucket) : Prop where
  increasing : ∀ bucket ∈ buckets, bucket.min < bucket.max
  adjacent : buckets.IsChain fun bucket next => bucket.max = next.min

def unrounded : Rounding FLT_MANT_DIG := .ideal FLT_MANT_DIG

-- What the percentiles of a histogram have to be where the calls succeed.
structure Ordered (buckets : List HistoBucket) : Prop where
  inBucket : ∀ type, histoBucketValue unrounded buckets type ≠ .failed → ∃ bucket offset value,
    findHistoBucket buckets (histoCount unrounded (countSum buckets) type) = some (bucket, offset) ∧
    histoBucketValue unrounded buckets type = .value value ∧
    (bucket.min.toNat : ℚ) ≤ value ∧ value ≤ bucket.max.toNat
  p50_le_p90 : ∀ value value', histoBucketValue unrounded buckets .HISTO_P50 = .value value →
    histoBucketValue unrounded buckets .HISTO_P90 = .value value' → value ≤ value'
  p90_le_p99 : ∀ value value', histoBucketValue unrounded buckets .HISTO_P90 = .value value →
    histoBucketValue unrounded buckets .HISTO_P99 = .value value' → value ≤ value'

-- Two or more values, or the only one in the first bucket.
def Divisible (buckets : List HistoBucket) : Prop :=
  2 ≤ countSum buckets ∨ ∃ first, buckets.head? = some first ∧ first.count ≠ 0

-- Two ranks in one bucket are the same, or at most one value of it comes behind the first.
def Steady (buckets : List HistoBucket) (rank rank' : ℕ) : Prop :=
  ∀ before bucket after, buckets = before ++ bucket :: after → countSum before < rank →
    rank' ≤ countSum before + bucket.count →
    rank = rank' ∨ countSum before + bucket.count ≤ rank + 1

section Rank

theorem floor_mul_div (sum part whole : ℕ) :
    ⌊(sum : ℚ) * ((part : ℚ) / whole)⌋₊ = part * sum / whole := by
  have heq : (sum : ℚ) * ((part : ℚ) / whole) = ((part * sum : ℕ) : ℚ) / whole := by
    rw [Nat.cast_mul, mul_div_assoc', mul_comm]
  rw [heq]
  exact Nat.floor_div_eq_div (part * sum) whole

theorem histoCount_p50 (sum : ℕ) : histoCount unrounded sum .HISTO_P50 = sum / 2 := by
  simpa [histoCount, unrounded, Rounding.ideal_apply, histoP] using floor_mul_div sum 1 2

theorem histoCount_p90 (sum : ℕ) : histoCount unrounded sum .HISTO_P90 = 9 * sum / 10 := by
  simpa [histoCount, unrounded, Rounding.ideal_apply, histoP] using floor_mul_div sum 9 10

theorem histoCount_p99 (sum : ℕ) : histoCount unrounded sum .HISTO_P99 = 99 * sum / 100 := by
  simpa [histoCount, unrounded, Rounding.ideal_apply, histoP] using floor_mul_div sum 99 100

-- A rank is never above the number of values.
theorem histoCount_le (sum : ℕ) (type : HistoType) : histoCount unrounded sum type ≤ sum := by
  cases type with
  | HISTO_P50 =>
      rw [histoCount_p50]
      omega
  | HISTO_P90 =>
      rw [histoCount_p90]
      omega
  | HISTO_P99 =>
      rw [histoCount_p99]
      omega

end Rank

section Shown

-- The value for an offset in a bucket that is not empty.
def shown (bucket : HistoBucket) (offset : ℕ) : ℚ :=
  (bucket.max - bucket.min).toNat * (((max 1 offset : ℕ) : ℚ) / bucket.count) + bucket.min.toNat

theorem interpolate_exact (hcount : bucket.count ≠ 0) :
    interpolate unrounded bucket offset = .value (shown bucket offset) := by
  have hoffset : (if offset = 0 then offset + 1 else offset) = max 1 offset := by
    split_ifs with hzero <;> omega
  unfold interpolate
  dsimp only
  rw [hoffset, if_neg (mt (unrounded.natCast_eq_zero_iff _).mp hcount)]
  rfl

theorem interpolate_empty (fl : Rounding FLT_MANT_DIG) (hcount : bucket.count = 0) :
    interpolate fl bucket offset = .divByZero := by
  unfold interpolate
  dsimp only
  rw [if_pos ((fl.natCast_eq_zero_iff _).mpr hcount)]

theorem width_eq (hlt : bucket.min < bucket.max) :
    ((bucket.max - bucket.min).toNat : ℚ) = bucket.max.toNat - bucket.min.toNat := by
  have hle := UInt64.le_of_lt hlt
  rw [UInt64.toNat_sub_of_le _ _ hle, Nat.cast_sub (UInt64.le_iff_toNat_le.mp hle)]

theorem width_pos (hlt : bucket.min < bucket.max) :
    (0 : ℚ) < (bucket.max - bucket.min).toNat := by
  rw [width_eq hlt, sub_pos]
  exact_mod_cast UInt64.lt_iff_toNat_lt.mp hlt

theorem shown_mem (hlt : bucket.min < bucket.max) (hoffset : max 1 offset ≤ bucket.count) :
    (bucket.min.toNat : ℚ) ≤ shown bucket offset ∧ shown bucket offset ≤ bucket.max.toNat := by
  have hwidth := (width_pos hlt).le
  have hcount : (0 : ℚ) < bucket.count := by
    exact_mod_cast (by omega : 0 < bucket.count)
  have hone : ((max 1 offset : ℕ) : ℚ) / bucket.count ≤ 1 := by
    rw [div_le_one hcount]
    exact_mod_cast hoffset
  have hzero : (0 : ℚ) ≤ ((max 1 offset : ℕ) : ℚ) / bucket.count :=
    div_nonneg (Nat.cast_nonneg _) hcount.le
  have hmul := mul_le_mul_of_nonneg_left hone hwidth
  have hpos := mul_nonneg hwidth hzero
  rw [mul_one] at hmul
  unfold shown
  have heq := width_eq hlt
  constructor <;> linarith

theorem shown_le_iff (hlt : bucket.min < bucket.max) (hcount : bucket.count ≠ 0) :
    shown bucket offset ≤ shown bucket offset' ↔ max 1 offset ≤ max 1 offset' := by
  have hpos : (0 : ℚ) < bucket.count := by
    exact_mod_cast Nat.pos_of_ne_zero hcount
  unfold shown
  rw [add_le_add_iff_right, mul_le_mul_iff_right₀ (width_pos hlt), div_le_div_iff_of_pos_right hpos]
  exact Nat.cast_le

end Shown

section Order

theorem countSum_append (before after : List HistoBucket) :
    countSum (before ++ after) = countSum before + countSum after := by
  unfold countSum
  rw [List.map_append, List.sum_append]

theorem Adjacent.max_le_min (h : Adjacent (before ++ bucket :: after)) (hmem : bucket' ∈ after) :
    bucket.max ≤ bucket'.min := by
  have htail : (bucket :: after).IsChain fun bucket next => bucket.max = next.min :=
    h.adjacent.right_of_append
  have hincreasing (other : HistoBucket) (hother : other ∈ bucket :: after) :
      other.min < other.max := h.increasing other (List.mem_append_right _ hother)
  clear h
  induction after generalizing bucket with
  | nil => cases hmem
  | cons next after ih =>
      obtain ⟨hmin, htail⟩ := List.isChain_cons_cons.mp htail
      rcases List.mem_cons.mp hmem with rfl | hmem
      · exact UInt64.le_of_eq hmin
      · have hrest := ih hmem htail fun other hother =>
          hincreasing other (List.mem_cons_of_mem _ hother)
        have hnext := hincreasing next (by simp)
        rw [hmin]
        exact UInt64.le_trans (UInt64.le_of_lt hnext) hrest

-- The bucket of a rank has values, unless the rank is 0 and the first bucket is empty.
theorem Located.count_pos (h : Located buckets rank bucket offset before after)
    (hrank : 1 ≤ rank ∨ ∃ first, buckets.head? = some first ∧ first.count ≠ 0) :
    max 1 offset ≤ bucket.count := by
  obtain ⟨hsplit, hbehind, hreached⟩ := h
  rcases hreached with rfl | hlt
  · have hzero : countSum [] = 0 := rfl
    rcases hrank with hpos | ⟨first, hfirst, hcount⟩
    · omega
    · subst hsplit
      cases hfirst
      omega
  · omega

-- A later rank lies in the same bucket or in one behind it.
theorem Located.max_le_or_eq (hadjacent : Adjacent buckets)
    (h : Located buckets rank bucket offset before after)
    (h' : Located buckets rank' bucket' offset' before' after') (hle : rank ≤ rank') :
    bucket.max ≤ bucket'.min ∨ (before = before' ∧ bucket = bucket') := by
  obtain ⟨rfl, hbehind, hreached⟩ := h
  obtain ⟨hsplit, hbehind', hreached'⟩ := h'
  rcases List.append_eq_append_iff.mp hsplit with ⟨middle, rfl, heq⟩ | ⟨middle, rfl, heq⟩
  · cases middle with
    | nil =>
        right
        rw [List.nil_append, List.cons.injEq] at heq
        exact ⟨(List.append_nil _).symm, heq.1⟩
    | cons first middle =>
        left
        obtain ⟨rfl, rfl⟩ := List.cons.inj heq
        exact hadjacent.max_le_min (by simp)
  · cases middle with
    | nil =>
        right
        rw [List.nil_append, List.cons.injEq] at heq
        exact ⟨List.append_nil _, heq.1.symm⟩
    | cons first middle =>
        -- the earlier rank would lie behind the later one
        obtain ⟨rfl, rfl⟩ := List.cons.inj heq
        rcases hreached with hnil | hlt
        · simp at hnil
        · rw [countSum_append, countSum_cons] at hlt
          omega

theorem Located.shown_le (hadjacent : Adjacent buckets)
    (h : Located buckets rank bucket offset before after)
    (h' : Located buckets rank' bucket' offset' before' after') (hle : rank ≤ rank')
    (hrank : rank = rank' ∨ 1 ≤ rank) (hsteady : Steady buckets rank rank')
    (hoffset : max 1 offset ≤ bucket.count) (hoffset' : max 1 offset' ≤ bucket'.count) :
    shown bucket offset ≤ shown bucket' offset' := by
  have hmem : bucket ∈ buckets := by simp [h.split]
  have hmem' : bucket' ∈ buckets := by simp [h'.split]
  rcases h.max_le_or_eq hadjacent h' hle with hbehind | ⟨rfl, rfl⟩
  · have hup := (shown_mem (hadjacent.increasing bucket hmem) hoffset).2
    have hlow := (shown_mem (hadjacent.increasing bucket' hmem') hoffset').1
    have hmax : (bucket.max.toNat : ℚ) ≤ bucket'.min.toNat := by
      exact_mod_cast UInt64.le_iff_toNat_le.mp hbehind
    exact hup.trans (hmax.trans hlow)
  · have hbehind := h.behind
    have hbehind' := h'.behind
    rw [shown_le_iff (hadjacent.increasing bucket hmem) (by omega)]
    rcases hrank with rfl | hpos
    · omega
    · have hreached : countSum before < rank := by
        rcases h.reached with rfl | hlt
        · exact hpos
        · exact hlt
      have hbound := hsteady before bucket after h.split hreached (by omega)
      omega

end Order

section Percentiles

-- The percentile of a divisible histogram.
theorem exists_shown (hdivisible : Divisible buckets) (hpos : 1 ≤ countSum buckets)
    (type : HistoType) : ∃ bucket offset before after,
      findHistoBucket buckets (histoCount unrounded (countSum buckets) type) =
        some (bucket, offset) ∧
      Located buckets (histoCount unrounded (countSum buckets) type) bucket offset before after ∧
      max 1 offset ≤ bucket.count ∧
      histoBucketValue unrounded buckets type = .value (shown bucket offset) := by
  have hle := histoCount_le (countSum buckets) type
  have hne : buckets ≠ [] := by
    rintro rfl
    cases hpos
  obtain ⟨bucket, offset, hfind⟩ := find_isSome hne hle
  obtain ⟨before, after, hlocated⟩ := exists_located hfind
  have hcount := hlocated.count_pos (hdivisible.imp (histoCount_pos unrounded · type) id)
  refine ⟨bucket, offset, before, after, hfind, hlocated, hcount, ?_⟩
  unfold histoBucketValue
  rw [hfind]
  exact interpolate_exact (by omega)

theorem value_le_of_steady (hadjacent : Adjacent buckets) (hdivisible : Divisible buckets)
    (hpos : 1 ≤ countSum buckets) {type type' : HistoType}
    (hle : histoCount unrounded (countSum buckets) type ≤
      histoCount unrounded (countSum buckets) type')
    (hsteady : Steady buckets (histoCount unrounded (countSum buckets) type)
      (histoCount unrounded (countSum buckets) type'))
    (value value' : ℚ) (hvalue : histoBucketValue unrounded buckets type = .value value)
    (hvalue' : histoBucketValue unrounded buckets type' = .value value') : value ≤ value' := by
  obtain ⟨bucket, offset, before, after, -, hlocated, hcount, hshown⟩ :=
    exists_shown hdivisible hpos type
  obtain ⟨bucket', offset', before', after', -, hlocated', hcount', hshown'⟩ :=
    exists_shown hdivisible hpos type'
  rw [hvalue] at hshown
  rw [hvalue'] at hshown'
  cases hshown
  cases hshown'
  refine hlocated.shown_le hadjacent hlocated' hle ?_ hsteady hcount hcount'
  by_cases htwo : 2 ≤ countSum buckets
  · exact .inr (histoCount_pos unrounded htwo type)
  · left
    rw [histoCount_zero unrounded (by omega), histoCount_zero unrounded (by omega)]

theorem steady_of_value_le (hadjacent : Adjacent buckets) {type type' : HistoType}
    (hle : histoCount unrounded (countSum buckets) type ≤
      histoCount unrounded (countSum buckets) type')
    (h : ∀ value value', histoBucketValue unrounded buckets type = .value value →
      histoBucketValue unrounded buckets type' = .value value' → value ≤ value') :
    Steady buckets (histoCount unrounded (countSum buckets) type)
      (histoCount unrounded (countSum buckets) type') := by
  intro before bucket after hsplit hlt hbound
  have hcount : bucket.count ≠ 0 := by omega
  have hmem : bucket ∈ buckets := by simp [hsplit]
  have hvalue {type : HistoType}
      (hlt : countSum before < histoCount unrounded (countSum buckets) type)
      (hbound : histoCount unrounded (countSum buckets) type ≤ countSum before + bucket.count) :
      histoBucketValue unrounded buckets type = .value (shown bucket
        (countSum before + bucket.count - histoCount unrounded (countSum buckets) type)) := by
    have hfind := @find_of_split bucket _ before after hlt hbound
    rw [← hsplit] at hfind
    unfold histoBucketValue
    rw [hfind]
    exact interpolate_exact hcount
  have hshown := h _ _ (hvalue hlt (by omega)) (hvalue (by omega) hbound)
  rw [shown_le_iff (hadjacent.increasing bucket hmem) hcount] at hshown
  omega

-- With values in a histogram at all, its percentiles are ordered exactly if there are two
-- values or the one is in the first bucket, and if no two of the ranks stand in one bucket
-- with more than one value behind the first of them.
theorem histoBucketValue_ordered_iff (buckets : List HistoBucket) (hadjacent : Adjacent buckets)
    (hpos : 1 ≤ countSum buckets) :
    Ordered buckets ↔ Divisible buckets ∧
      Steady buckets (countSum buckets / 2) (9 * countSum buckets / 10) ∧
      Steady buckets (9 * countSum buckets / 10) (99 * countSum buckets / 100) := by
  have hle : histoCount unrounded (countSum buckets) .HISTO_P50 ≤
      histoCount unrounded (countSum buckets) .HISTO_P90 := by
    rw [histoCount_p50, histoCount_p90]
    omega
  have hle' : histoCount unrounded (countSum buckets) .HISTO_P90 ≤
      histoCount unrounded (countSum buckets) .HISTO_P99 := by
    rw [histoCount_p90, histoCount_p99]
    omega
  rw [← histoCount_p50, ← histoCount_p90, ← histoCount_p99]
  constructor
  · intro h
    refine ⟨?_, steady_of_value_le hadjacent hle h.p50_le_p90,
      steady_of_value_le hadjacent hle' h.p90_le_p99⟩
    by_contra hnot
    obtain ⟨htwo, hfirst⟩ := not_or.mp hnot
    have hone : countSum buckets ≤ 1 := by omega
    have hrank := histoCount_zero unrounded hone .HISTO_P50
    cases buckets with
    | nil => cases hpos
    | cons first buckets =>
        have hempty : first.count = 0 := by
          by_contra hcount
          exact hfirst ⟨first, rfl, hcount⟩
        have hvalue : histoBucketValue unrounded (first :: buckets) .HISTO_P50 = .divByZero := by
          unfold histoBucketValue
          rw [hrank, findHistoBucket, if_neg (Nat.not_lt_zero _)]
          exact interpolate_empty unrounded hempty
        obtain ⟨-, -, value, -, heq, -⟩ := h.inBucket .HISTO_P50 (by simp [hvalue])
        rw [hvalue] at heq
        cases heq
  · rintro ⟨hdivisible, hsteady, hsteady'⟩
    refine ⟨fun type _ => ?_, value_le_of_steady hadjacent hdivisible hpos hle hsteady,
      value_le_of_steady hadjacent hdivisible hpos hle' hsteady'⟩
    obtain ⟨bucket, offset, before, after, hfind, hlocated, hcount, hvalue⟩ :=
      exists_shown hdivisible hpos type
    have hmem : bucket ∈ buckets := by simp [hlocated.split]
    exact ⟨bucket, offset, shown bucket offset, hfind, hvalue,
      shown_mem (hadjacent.increasing bucket hmem) hcount⟩

end Percentiles

-- One value in the first of two buckets.
theorem histoBucketValue_ordered_iff_one : Ordered [⟨0, 1, 1⟩, ⟨1, 3, 0⟩] := by
  refine (histoBucketValue_ordered_iff _ ⟨by decide, ?_⟩ (by decide)).mpr
    ⟨.inr ⟨_, rfl, by decide⟩, ?_, ?_⟩
  · exact List.isChain_cons_cons.mpr ⟨rfl, List.isChain_singleton _⟩
  · intro before bucket after _ hlt
    exact absurd hlt (Nat.not_lt_zero _)
  · intro before bucket after _ hlt
    exact absurd hlt (Nat.not_lt_zero _)

-- Of ten values in one bucket P50 comes out above P90.
theorem tenValues_not_ordered :
    ¬∀ buckets, Adjacent buckets → 1 ≤ countSum buckets → Ordered buckets := by
  intro h
  have hadjacent : Adjacent [⟨0, 100, 10⟩] := ⟨by decide, List.isChain_singleton _⟩
  have hordered := h _ hadjacent (by decide)
  have hsteady := steady_of_value_le hadjacent
    (by rw [histoCount_p50, histoCount_p90]; decide) hordered.p50_le_p90
  rw [histoCount_p50, histoCount_p90] at hsteady
  have hbad := hsteady [] ⟨0, 100, 10⟩ [] rfl (by decide) (by decide)
  revert hbad
  decide

end Gopher.L7
