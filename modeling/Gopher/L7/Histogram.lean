import Mathlib.Algebra.Group.Nat.Defs
import Mathlib.Algebra.GroupWithZero.Nat
import Mathlib.Data.List.Basic
import Mathlib.Data.List.Count
import Mathlib.Tactic.SplitIfs

namespace Gopher.L7

structure HistoBucket where
  min : UInt64
  max : UInt64
  count : ℕ
  deriving DecidableEq, Repr

namespace HistoBucket

-- The test of `histo_bucket_add_value`.
def covers (bucket : HistoBucket) (value : UInt64) : Bool :=
  bucket.min < value && value ≤ bucket.max

def increment (bucket : HistoBucket) : HistoBucket := { bucket with count := bucket.count + 1 }

end HistoBucket

-- `none` is the return value -1, after which the bucket is as it was.
def initHistoBucket (min max : UInt64) : Option HistoBucket :=
  if max ≤ min then none else some ⟨min, max, 0⟩

-- The first bucket that covers the value. The second part is the return value 0.
def histoBucketAddValue : List HistoBucket → UInt64 → List HistoBucket × Bool
  | [], _ => ([], false)
  | bucket :: buckets, value =>
      if bucket.covers value then (bucket.increment :: buckets, true)
      else
        let (buckets, counted) := histoBucketAddValue buckets value
        (bucket :: buckets, counted)

-- One call for each value.
def histoBucketAddValues (buckets : List HistoBucket) (values : List UInt64) : List HistoBucket :=
  values.foldl (fun buckets value => (histoBucketAddValue buckets value).1) buckets

def histoBucketReset (buckets : List HistoBucket) : List HistoBucket :=
  buckets.map fun bucket => { bucket with count := 0 }

-- The values some bucket covers.
def covered (buckets : List HistoBucket) (value : UInt64) : Bool :=
  buckets.any fun bucket => bucket.covers value

def countSum (buckets : List HistoBucket) : ℕ := (buckets.map HistoBucket.count).sum

def ranges (buckets : List HistoBucket) : List (UInt64 × UInt64) :=
  buckets.map fun bucket => (bucket.min, bucket.max)

def inRange (value : UInt64) (range : UInt64 × UInt64) : Bool :=
  range.1 < value && value ≤ range.2

variable {buckets : List HistoBucket} {value : UInt64}

theorem countSum_cons (bucket : HistoBucket) (buckets : List HistoBucket) :
    countSum (bucket :: buckets) = bucket.count + countSum buckets := List.sum_cons

theorem covered_cons (bucket : HistoBucket) (buckets : List HistoBucket) (value : UInt64) :
    covered (bucket :: buckets) value = (bucket.covers value || covered buckets value) :=
  List.any_cons

theorem ranges_addValue : ranges (histoBucketAddValue buckets value).1 = ranges buckets := by
  induction buckets with
  | nil => rfl
  | cons bucket buckets ih =>
      rw [histoBucketAddValue]
      split_ifs
      · rfl
      · exact congrArg (_ :: ·) ih

theorem covered_eq_any (buckets : List HistoBucket) (value : UInt64) :
    covered buckets value = (ranges buckets).any (inRange value) := by
  unfold covered ranges
  rw [List.any_map]
  rfl

theorem countP_covers (buckets : List HistoBucket) (value : UInt64) :
    buckets.countP (·.covers value) = (ranges buckets).countP (inRange value) := by
  unfold ranges
  rw [List.countP_map]
  rfl

-- A value is counted in one bucket if it is covered, and in none otherwise.
theorem countSum_addValue : countSum (histoBucketAddValue buckets value).1 =
    countSum buckets + if covered buckets value then 1 else 0 := by
  induction buckets with
  | nil => rfl
  | cons bucket buckets ih =>
      rw [histoBucketAddValue]
      cases hcovers : bucket.covers value with
      | true =>
          have hcount : bucket.increment.count = bucket.count + 1 := rfl
          simp only [if_true, countSum_cons, covered_cons, hcovers, Bool.true_or, hcount]
          omega
      | false =>
          simp only [Bool.false_eq_true, if_false, countSum_cons, covered_cons, hcovers,
            Bool.false_or, ih]
          omega

theorem ranges_addValues (buckets : List HistoBucket) (values : List UInt64) :
    ranges (histoBucketAddValues buckets values) = ranges buckets := by
  induction values generalizing buckets with
  | nil => rfl
  | cons value values ih => exact (ih _).trans ranges_addValue

theorem countSum_addValues (buckets : List HistoBucket) (values : List UInt64) :
    countSum (histoBucketAddValues buckets values) =
      countSum buckets + values.countP (covered buckets) := by
  induction values generalizing buckets with
  | nil => rfl
  | cons value values ih =>
      have hcovered : covered (histoBucketAddValue buckets value).1 = covered buckets := by
        funext other
        rw [covered_eq_any, covered_eq_any, ranges_addValue]
      have hrest := ih (histoBucketAddValue buckets value).1
      rw [hcovered, countSum_addValue] at hrest
      rw [List.countP_cons]
      unfold histoBucketAddValues at hrest ⊢
      rw [List.foldl_cons, hrest]
      omega

theorem ranges_reset : ranges (histoBucketReset buckets) = ranges buckets := by
  simp [ranges, histoBucketReset]

theorem countSum_reset : countSum (histoBucketReset buckets) = 0 := by
  simp [countSum, histoBucketReset, Function.comp_def]

-- The ranges between each bound and the next.
def consecutive : List UInt64 → List (UInt64 × UInt64)
  | low :: high :: bounds => (low, high) :: consecutive (high :: bounds)
  | _ => []

-- Ascending bounds divide what lies between the first and the last.
theorem countP_consecutive (low : UInt64) (bounds : List UInt64)
    (hsorted : (low :: bounds).Pairwise (· < ·)) (value : UInt64) :
    (consecutive (low :: bounds)).countP (inRange value) =
      if inRange value (low, (low :: bounds).getLast (List.cons_ne_nil _ _)) then 1 else 0 := by
  induction bounds generalizing low with
  | nil =>
      have hempty : inRange value (low, low) = false := by
        simp [inRange]
      simp [consecutive, hempty]
  | cons high bounds ih =>
      obtain ⟨hlow, hrest⟩ := List.pairwise_cons.mp hsorted
      have hlt : low < high := hlow high List.mem_cons_self
      have hle : high ≤ (high :: bounds).getLast (List.cons_ne_nil _ _) := by
        rcases List.mem_cons.mp (List.getLast_mem (List.cons_ne_nil high bounds)) with heq | hmem
        · rw [heq]
          exact UInt64.le_refl high
        · exact UInt64.le_of_lt ((List.pairwise_cons.mp hrest).1 _ hmem)
      rw [consecutive, List.countP_cons, ih high hrest, List.getLast_cons (List.cons_ne_nil _ _)]
      generalize (high :: bounds).getLast (List.cons_ne_nil _ _) = last at hle ⊢
      simp only [inRange, Bool.and_eq_true, decide_eq_true_eq, UInt64.lt_iff_toNat_lt,
        UInt64.le_iff_toNat_le] at hlt hle ⊢
      split_ifs <;> omega

end Gopher.L7
