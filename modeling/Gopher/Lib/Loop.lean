import Mathlib.Data.Nat.Basic

namespace Gopher.Lib

variable {σ ρ : Type*}

-- A loop whose body goes on with a new state or leaves with a result. The body
-- may itself run out of fuel; `none` is a loop that has not finished yet.
def loop (body : σ → Option (σ ⊕ ρ)) : ℕ → σ → Option ρ
  | 0, _ => none
  | fuel + 1, state =>
      match body state with
      | none => none
      | some (.inl next) => loop body fuel next
      | some (.inr result) => some result

namespace Loop

theorem loop_succ (body : σ → Option (σ ⊕ ρ)) (fuel : ℕ) (state : σ) :
    loop body (fuel + 1) state =
      match body state with
      | none => none
      | some (.inl next) => loop body fuel next
      | some (.inr result) => some result := rfl

-- A loop that stays inside a set of states it never leaves does not finish.
theorem loop_diverges {body : σ → Option (σ ⊕ ρ)} (stuck : σ → Prop)
    (hstuck : ∀ state, stuck state → ∀ outcome, body state = some outcome →
      ∃ next, outcome = .inl next ∧ stuck next)
    (fuel : ℕ) {state : σ} (h : stuck state) : loop body fuel state = none := by
  induction fuel generalizing state with
  | zero => rfl
  | succ fuel ih =>
      rw [loop_succ]
      cases hb : body state with
      | none => rfl
      | some outcome =>
          obtain ⟨next, rfl, hnext⟩ := hstuck state h outcome hb
          exact ih hnext

-- A measure that falls on every round bounds the fuel.
theorem loop_terminates {body : σ → Option (σ ⊕ ρ)} (inv : σ → Prop) (post : ρ → Prop)
    (measure : σ → ℕ)
    (hround : ∀ state, inv state →
      (∃ next, body state = some (.inl next) ∧ inv next ∧ measure next < measure state) ∨
      ∃ result, body state = some (.inr result) ∧ post result)
    {fuel : ℕ} {state : σ} (h : inv state) (hfuel : measure state < fuel) :
    ∃ result, loop body fuel state = some result ∧ post result := by
  induction fuel generalizing state with
  | zero => omega
  | succ fuel ih =>
      rw [loop_succ]
      obtain ⟨next, hb, hinv, hlt⟩ | ⟨result, hb, hpost⟩ := hround state h
      · simpa only [hb] using ih hinv (by omega)
      · exact ⟨result, by rw [hb], hpost⟩

-- The same without a bound: a well-founded measure gives some fuel.
theorem loop_terminates_of_wf {α : Type*} [WellFoundedRelation α]
    {body : σ → Option (σ ⊕ ρ)} (measure : σ → α)
    (hround : ∀ state,
      (∃ next, body state = some (.inl next) ∧
        WellFoundedRelation.rel (measure next) (measure state)) ∨
      ∃ result, body state = some (.inr result)) (state : σ) :
    ∃ fuel result, loop body fuel state = some result := by
  have hwf := (invImage measure inferInstance).wf
  induction state using hwf.induction with
  | _ state ih =>
      obtain ⟨next, hb, hlt⟩ | ⟨result, hb⟩ := hround state
      · obtain ⟨fuel, result, hrun⟩ := ih next hlt
        exact ⟨fuel + 1, result, by rw [loop_succ, hb]; exact hrun⟩
      · exact ⟨1, result, by rw [loop_succ, hb]⟩

-- What every round and every exit establish holds of the result.
theorem loop_post {body : σ → Option (σ ⊕ ρ)} (inv : σ → Prop) (post : ρ → Prop)
    (hround : ∀ state outcome, inv state → body state = some outcome →
      outcome.elim inv post)
    {fuel : ℕ} {state : σ} {result : ρ} (h : inv state)
    (hrun : loop body fuel state = some result) : post result := by
  induction fuel generalizing state with
  | zero => cases hrun
  | succ fuel ih =>
      rw [loop_succ] at hrun
      cases hb : body state with
      | none => simp [hb] at hrun
      | some outcome =>
          have hout := hround state outcome h hb
          rw [hb] at hrun
          cases outcome with
          | inl next => exact ih hout hrun
          | inr value =>
              cases hrun
              exact hout

-- The states in which the rounds of a loop start, also of one that does not finish.
def trace (body : σ → Option (σ ⊕ ρ)) : ℕ → σ → List σ
  | 0, _ => []
  | fuel + 1, state =>
      state ::
        match body state with
        | some (.inl next) => trace body fuel next
        | _ => []

theorem trace_succ_of_next {body : σ → Option (σ ⊕ ρ)} {state next : σ}
    (h : body state = some (.inl next)) (fuel : ℕ) :
    trace body (fuel + 1) state = state :: trace body fuel next := by
  simp only [trace, h]

theorem trace_succ_of_exit {body : σ → Option (σ ⊕ ρ)} {state : σ}
    (h : ∀ next, body state ≠ some (.inl next)) (fuel : ℕ) :
    trace body (fuel + 1) state = [state] := by
  cases hb : body state with
  | none => simp only [trace, hb]
  | some outcome =>
      cases outcome with
      | inl next => exact absurd hb (h next)
      | inr result => simp only [trace, hb]

theorem forall_mem_trace {body : σ → Option (σ ⊕ ρ)} (inv : σ → Prop)
    (hround : ∀ state next, inv state → body state = some (.inl next) → inv next)
    {fuel : ℕ} {state : σ} (h : inv state) : ∀ visited ∈ trace body fuel state, inv visited := by
  induction fuel generalizing state with
  | zero => simp [trace]
  | succ fuel ih =>
      by_cases hnext : ∃ next, body state = some (.inl next)
      · obtain ⟨next, hb⟩ := hnext
        rw [trace_succ_of_next hb]
        exact List.forall_mem_cons.mpr ⟨h, ih (hround state next h hb)⟩
      · rw [trace_succ_of_exit (fun next hb => hnext ⟨next, hb⟩)]
        exact List.forall_mem_singleton.mpr h

theorem trace_prefix (body : σ → Option (σ ⊕ ρ)) {fuel more : ℕ} (h : fuel ≤ more) (state : σ) :
    trace body fuel state <+: trace body more state := by
  induction fuel generalizing more state with
  | zero => exact List.nil_prefix
  | succ fuel ih =>
      obtain ⟨more, rfl⟩ : ∃ n, more = n + 1 := ⟨more - 1, by omega⟩
      by_cases hnext : ∃ next, body state = some (.inl next)
      · obtain ⟨next, hb⟩ := hnext
        rw [trace_succ_of_next hb, trace_succ_of_next hb]
        exact (List.prefix_cons_inj state).mpr (ih (by omega) next)
      · have hexit := fun next hb => hnext ⟨next, hb⟩
        have hsame : trace body (fuel + 1) state = trace body (more + 1) state := by
          rw [trace_succ_of_exit hexit, trace_succ_of_exit hexit]
        exact hsame ▸ List.prefix_rfl

-- A loop sees its body only in the states of its trace.
theorem loop_congr {body other : σ → Option (σ ⊕ ρ)} {fuel : ℕ} {state : σ}
    (h : ∀ visited ∈ trace body fuel state, other visited = body visited) :
    loop other fuel state = loop body fuel state := by
  induction fuel generalizing state with
  | zero => rfl
  | succ fuel ih =>
      have hstate : other state = body state := h state List.mem_cons_self
      rw [loop_succ, loop_succ, hstate]
      cases hb : body state with
      | none => rfl
      | some outcome =>
          cases outcome with
          | inl next =>
              rw [trace_succ_of_next hb] at h
              exact ih fun visited hmem => h visited (List.mem_cons_of_mem state hmem)
          | inr result => rfl

-- What links the rounds of a loop that finishes with its result.
theorem loop_trace_post {body : σ → Option (σ ⊕ ρ)} (inv : σ → Prop)
    (post : σ → List σ → ρ → Prop)
    (hexit : ∀ state result, inv state → body state = some (.inr result) →
      post state [state] result)
    (hround : ∀ state next, inv state → body state = some (.inl next) →
      inv next ∧ ∀ visited result, post next visited result → post state (state :: visited) result)
    {fuel : ℕ} {state : σ} {result : ρ} (h : inv state)
    (hrun : loop body fuel state = some result) : post state (trace body fuel state) result := by
  induction fuel generalizing state with
  | zero => cases hrun
  | succ fuel ih =>
      rw [loop_succ] at hrun
      cases hb : body state with
      | none => simp [hb] at hrun
      | some outcome =>
          rw [hb] at hrun
          cases outcome with
          | inl next =>
              obtain ⟨hinv, hpost⟩ := hround state next h hb
              rw [trace_succ_of_next hb]
              exact hpost _ _ (ih hinv hrun)
          | inr value =>
              cases hrun
              rw [trace_succ_of_exit (by simp [hb])]
              exact hexit state result h hb

end Loop

end Gopher.Lib
