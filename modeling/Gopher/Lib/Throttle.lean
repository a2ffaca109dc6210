import Mathlib.Algebra.Order.Group.Defs
import Mathlib.Data.List.Induction

namespace Gopher.Lib.Throttle

variable {κ τ : Type*} [AddCommGroup τ] [LinearOrder τ]

-- No report under the key is younger than a period.
def Due (period : τ) (reports : List (κ × τ)) (key : κ) (now : τ) : Prop :=
  ∀ report ∈ reports, report.1 = key → period ≤ now - report.2

-- Nobody who asks from `now` on can tell the two histories apart.
def Same (period now : τ) (reports others : List (κ × τ)) : Prop :=
  ∀ key later, now ≤ later → (Due period reports key later ↔ Due period others key later)

variable {period now later : τ} {reports others : List (κ × τ)} {key other : κ} {time : τ}

theorem due_cons : Due period ((key, time) :: reports) other later ↔
    (key = other → period ≤ later - time) ∧ Due period reports other later := by
  rw [Due, List.forall_mem_cons]
  rfl

theorem Same.trans {third : List (κ × τ)} (h : Same period now reports others)
    (hnext : Same period now others third) : Same period now reports third :=
  fun key later hle => (h key later hle).trans (hnext key later hle)

theorem Same.mono (h : Same period now reports others) (hle : now ≤ later) :
    Same period later reports others :=
  fun key time htime => h key time (hle.trans htime)

theorem Same.cons (h : Same period now reports others) (report : κ × τ) :
    Same period now (report :: reports) (report :: others) := by
  intro key later hle
  rw [due_cons, due_cons, h key later hle]

section Forget

variable [IsOrderedAddMonoid τ]

-- A report a period old or older can be forgotten.
theorem Same.filter (kept : κ × τ → Bool)
    (hold : ∀ report ∈ reports, kept report = false → period ≤ now - report.2) :
    Same period now (reports.filter kept) reports := by
  intro key later hle
  constructor
  · intro h report hreport hkey
    cases hkept : kept report with
    | true => exact h report (List.mem_filter.mpr ⟨hreport, hkept⟩) hkey
    | false => exact (hold report hreport hkept).trans (sub_le_sub_right hle _)
  · intro h report hreport
    exact h report (List.mem_filter.mp hreport).1

-- A new report under a key that is due takes the place of the older ones.
theorem Same.replace (hdue : Due period reports key now)
    (hmem : ∀ report, report ∈ others ↔
      report = (key, now) ∨ report ∈ reports ∧ report.1 ≠ key) :
    Same period now others ((key, now) :: reports) := by
  intro other later hle
  rw [due_cons]
  constructor
  · intro h
    refine ⟨h (key, now) ((hmem _).mpr (.inl rfl)), fun report hreport hkey => ?_⟩
    by_cases heq : report.1 = key
    · exact (hdue report hreport heq).trans (sub_le_sub_right hle _)
    · exact h report ((hmem report).mpr (.inr ⟨hreport, heq⟩)) hkey
  · rintro ⟨hnew, hold⟩ report hreport
    rcases (hmem report).mp hreport with rfl | ⟨hreport, -⟩
    · exact hnew
    · exact hold report hreport

end Forget

variable [DecidableEq κ]

instance (period : τ) (reports : List (κ × τ)) (key : κ) (now : τ) :
    Decidable (Due period reports key now) :=
  inferInstanceAs (Decidable (∀ report ∈ reports, report.1 = key → period ≤ now - report.2))

-- A request is accepted, and then remembered for ever, when it is due.
def accept (period : τ) (reports : List (κ × τ)) (request : κ × τ) : List (κ × τ) :=
  if Due period reports request.1 request.2 then request :: reports else reports

def accepted (period : τ) (requests : List (κ × τ)) : List (κ × τ) :=
  requests.foldl (accept period) []

theorem accepted_concat (requests : List (κ × τ)) (request : κ × τ) :
    accepted period (requests ++ [request]) = accept period (accepted period requests) request := by
  rw [accepted, List.foldl_append]
  rfl

-- The requests accepted are those that were due when they came.
theorem mem_accepted (requests : List (κ × τ)) (request : κ × τ) :
    request ∈ accepted period requests ↔ ∃ before after, requests = before ++ request :: after ∧
      Due period (accepted period before) request.1 request.2 := by
  induction requests using List.reverseRecOn with
  | nil => simp [accepted]
  | append_singleton requests last ih =>
      have hmem : request ∈ accepted period (requests ++ [last]) ↔
          request ∈ accepted period requests ∨
            request = last ∧ Due period (accepted period requests) last.1 last.2 := by
        rw [accepted_concat, accept]
        by_cases hdue : Due period (accepted period requests) last.1 last.2
        · rw [if_pos hdue, List.mem_cons, or_comm]
          simp [hdue]
        · rw [if_neg hdue]
          simp [hdue]
      rw [hmem, ih]
      constructor
      · rintro (⟨before, after, rfl, hdue⟩ | ⟨rfl, hdue⟩)
        · exact ⟨before, after ++ [last], by simp, hdue⟩
        · exact ⟨requests, [], rfl, hdue⟩
      · rintro ⟨before, after, heq, hdue⟩
        rcases List.eq_nil_or_concat after with rfl | ⟨front, final, rfl⟩
        · obtain ⟨rfl, hlast⟩ := List.append_inj' heq rfl
          cases hlast
          exact .inr ⟨rfl, hdue⟩
        · rw [List.concat_eq_append, ← List.cons_append, ← List.append_assoc] at heq
          exact .inl ⟨before, front, List.append_inj_left' heq rfl, hdue⟩

end Gopher.Lib.Throttle
