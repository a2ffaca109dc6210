import Mathlib.Data.Int.Notation
import Mathlib.Data.Nat.Notation

namespace Gopher.Lib

-- How a bisection ends: at an index that compares equal, or between two indices.
inductive Bisected
  | hit (mid : ℕ)
  | stopped (start : ℕ)
  deriving DecidableEq, Repr

-- `cmp` compares what is looked for with what stands at an index.
def bisect (cmp : ℕ → ℤ) (start stop : ℕ) : Bisected :=
  if start < stop then
    let mid := start + (stop - start) / 2
    if cmp mid < 0 then bisect cmp start mid
    else if 0 < cmp mid then bisect cmp (mid + 1) stop
    else .hit mid
  else .stopped start
termination_by stop - start

-- The indices it looks at.
def probes (cmp : ℕ → ℤ) (start stop : ℕ) : List ℕ :=
  if start < stop then
    let mid := start + (stop - start) / 2
    mid :: (if cmp mid < 0 then probes cmp start mid
      else if 0 < cmp mid then probes cmp (mid + 1) stop else [])
  else []
termination_by stop - start

-- Two comparisons come out on the same side.
def SameSide (result result' : ℤ) : Prop :=
  (result < 0 ↔ result' < 0) ∧ (0 < result ↔ 0 < result')

instance (result result' : ℤ) : Decidable (SameSide result result') :=
  inferInstanceAs (Decidable (_ ∧ _))

variable {cmp cmp' : ℕ → ℤ} {start stop mid : ℕ}

theorem bisect_of_neg (hlt : start < stop) (h : cmp (start + (stop - start) / 2) < 0) :
    bisect cmp start stop = bisect cmp start (start + (stop - start) / 2) := by
  rw [bisect, if_pos hlt]
  dsimp only
  rw [if_pos h]

theorem bisect_of_pos (hlt : start < stop) (h : 0 < cmp (start + (stop - start) / 2)) :
    bisect cmp start stop = bisect cmp (start + (stop - start) / 2 + 1) stop := by
  rw [bisect, if_pos hlt]
  dsimp only
  rw [if_neg (by omega), if_pos h]

theorem bisect_of_zero (hlt : start < stop) (h : cmp (start + (stop - start) / 2) = 0) :
    bisect cmp start stop = .hit (start + (stop - start) / 2) := by
  rw [bisect, if_pos hlt]
  dsimp only
  rw [if_neg (by omega), if_neg (by omega)]

theorem bisect_of_ge (hge : ¬start < stop) : bisect cmp start stop = .stopped start := by
  rw [bisect, if_neg hge]

theorem bisect_hit (h : bisect cmp start stop = .hit mid) :
    start ≤ mid ∧ mid < stop ∧ cmp mid = 0 := by
  fun_induction bisect cmp start stop with
  | case1 start stop hlt middle hneg ih =>
      obtain ⟨hstart, hstop, hzero⟩ := ih h
      exact ⟨hstart, by omega, hzero⟩
  | case2 start stop hlt middle hneg hpos ih =>
      obtain ⟨hstart, hstop, hzero⟩ := ih h
      exact ⟨by omega, hstop, hzero⟩
  | case3 start stop hlt middle hneg hpos =>
      injection h with hmid
      rw [← hmid]
      exact ⟨by omega, by omega, by omega⟩
  | case4 start stop hge => cases h

-- What was looked at on either side of where it stops.
theorem bisect_stopped {bound : ℕ} (hle : start ≤ stop)
    (h : bisect cmp start stop = .stopped bound) :
    start ≤ bound ∧ bound ≤ stop ∧ (bound = start ∨ 0 < cmp (bound - 1)) ∧
      (bound = stop ∨ cmp bound < 0) := by
  fun_induction bisect cmp start stop with
  | case1 start stop hlt middle hneg ih =>
      obtain ⟨hstart, hstop, hbefore, hat⟩ := ih (by omega) h
      refine ⟨hstart, by omega, hbefore, .inr ?_⟩
      rcases hat with rfl | hat
      · exact hneg
      · exact hat
  | case2 start stop hlt middle hneg hpos ih =>
      obtain ⟨hstart, hstop, hbefore, hat⟩ := ih (by omega) h
      refine ⟨by omega, hstop, .inr ?_, hat⟩
      rcases hbefore with rfl | hbefore
      · exact hpos
      · exact hbefore
  | case3 start stop hlt middle hneg hpos => cases h
  | case4 start stop hge =>
      cases h
      exact ⟨Nat.le_refl _, hle, .inl rfl, .inl (by omega)⟩

-- A comparison that comes out on the same side at every index looked at gives the same
-- result.
theorem bisect_congr (h : ∀ mid ∈ probes cmp start stop, SameSide (cmp' mid) (cmp mid)) :
    bisect cmp' start stop = bisect cmp start stop := by
  fun_induction bisect cmp start stop with
  | case1 start stop hlt middle hneg ih =>
      rw [probes, if_pos hlt] at h
      obtain ⟨hmid, hrest⟩ := List.forall_mem_cons.mp h
      rw [if_pos hneg] at hrest
      rw [bisect_of_neg hlt (hmid.1.mpr hneg)]
      exact ih hrest
  | case2 start stop hlt middle hneg hpos ih =>
      rw [probes, if_pos hlt] at h
      obtain ⟨hmid, hrest⟩ := List.forall_mem_cons.mp h
      rw [if_neg hneg, if_pos hpos] at hrest
      rw [bisect_of_pos hlt (hmid.2.mpr hpos)]
      exact ih hrest
  | case3 start stop hlt middle hneg hpos =>
      rw [probes, if_pos hlt] at h
      obtain ⟨hmid, -⟩ := List.forall_mem_cons.mp h
      have hneg' := mt hmid.1.mp hneg
      have hpos' := mt hmid.2.mp hpos
      exact bisect_of_zero hlt (by omega)
  | case4 start stop hge => exact bisect_of_ge hge

-- Otherwise the two go the same way down to the first index where they come out on
-- different sides.
theorem bisect_diverges (h : ¬∀ mid ∈ probes cmp start stop, SameSide (cmp' mid) (cmp mid)) :
    ∃ low high, start ≤ low ∧ low < high ∧ high ≤ stop ∧ (low = start ∨ 0 < cmp' (low - 1)) ∧
      bisect cmp' start stop = bisect cmp' low high ∧
      ¬SameSide (cmp' (low + (high - low) / 2)) (cmp (low + (high - low) / 2)) := by
  fun_induction bisect cmp start stop with
  | case1 start stop hlt middle hneg ih =>
      by_cases hmid : SameSide (cmp' middle) (cmp middle)
      · rw [probes, if_pos hlt, List.forall_mem_cons, if_pos hneg] at h
        obtain ⟨low, high, hlow, hrange, hhigh, hbefore, heq, hwrong⟩ :=
          ih fun hrest => h ⟨hmid, hrest⟩
        refine ⟨low, high, hlow, hrange, by omega, hbefore, ?_, hwrong⟩
        exact (bisect_of_neg hlt (hmid.1.mpr hneg)).trans heq
      · exact ⟨start, stop, Nat.le_refl _, hlt, Nat.le_refl _, .inl rfl, rfl, hmid⟩
  | case2 start stop hlt middle hneg hpos ih =>
      by_cases hmid : SameSide (cmp' middle) (cmp middle)
      · rw [probes, if_pos hlt, List.forall_mem_cons, if_neg hneg, if_pos hpos] at h
        obtain ⟨low, high, hlow, hrange, hhigh, hbefore, heq, hwrong⟩ :=
          ih fun hrest => h ⟨hmid, hrest⟩
        refine ⟨low, high, by omega, hrange, hhigh, .inr ?_, ?_, hwrong⟩
        · rcases hbefore with rfl | hbefore
          · exact hmid.2.mpr hpos
          · exact hbefore
        · exact (bisect_of_pos hlt (hmid.2.mpr hpos)).trans heq
      · exact ⟨start, stop, Nat.le_refl _, hlt, Nat.le_refl _, .inl rfl, rfl, hmid⟩
  | case3 start stop hlt middle hneg hpos =>
      by_cases hmid : SameSide (cmp' middle) (cmp middle)
      · rw [probes, if_pos hlt, List.forall_mem_cons, if_neg hneg, if_neg hpos] at h
        exact absurd ⟨hmid, List.forall_mem_nil _⟩ h
      · exact ⟨start, stop, Nat.le_refl _, hlt, Nat.le_refl _, .inl rfl, rfl, hmid⟩
  | case4 start stop hge =>
      rw [probes, if_neg hge] at h
      exact absurd (List.forall_mem_nil _) h

end Gopher.Lib
