import Mathlib.Data.List.Induction
import Mathlib.Data.List.ReduceOption

namespace Gopher.Lib

variable {σ τ ι ω : Type*}

-- The finite runs of a labelled transition relation, with the labels in order.
inductive Run (step : σ → ι → σ → Prop) : σ → List ι → σ → Prop
  | nil (state : σ) : Run step state [] state
  | cons {first middle last : σ} {label : ι} {labels : List ι} :
      step first label middle → Run step middle labels last →
      Run step first (label :: labels) last

namespace Run

variable {step : σ → ι → σ → Prop}

theorem split {first last : σ} {before after : List ι}
    (hrun : Run step first (before ++ after) last) :
    ∃ middle, Run step first before middle ∧ Run step middle after last := by
  induction before generalizing first with
  | nil => exact ⟨first, .nil first, hrun⟩
  | cons label before ih =>
      cases hrun with
      | cons hstep hrest =>
          obtain ⟨middle, hbefore, hafter⟩ := ih hrest
          exact ⟨middle, .cons hstep hbefore, hafter⟩

theorem mono {step other : σ → ι → σ → Prop}
    (hstep : ∀ before label after, step before label after → other before label after)
    {first last : σ} {labels : List ι} (hrun : Run step first labels last) :
    Run other first labels last := by
  induction hrun with
  | nil => exact .nil _
  | cons hs _ ih => exact .cons (hstep _ _ _ hs) ih

-- A property that every step keeps holds at the end of every run.
theorem invariant (inv : σ → Prop) {first last : σ} {labels : List ι}
    (hstep : ∀ before label after, inv before → step before label after → inv after)
    (hrun : Run step first labels last) (hfirst : inv first) : inv last := by
  induction hrun with
  | nil => exact hfirst
  | cons hs _ ih => exact ih (hstep _ _ _ hfirst hs)

end Run

variable {α : Type*}

-- A step function followed along a list of actions, while its steps are allowed.
def execute (step : σ → α → Option (ι × σ)) (allowed : σ → ι → Bool) :
    σ → List α → Option (List ι × σ)
  | state, [] => some ([], state)
  | state, action :: actions => do
      let (label, next) ← step state action
      if allowed state label then
        let (labels, last) ← execute step allowed next actions
        return (label :: labels, last)
      else none

theorem Run.of_execute {step : σ → α → Option (ι × σ)} {allowed : σ → ι → Bool}
    {related : σ → ι → σ → Prop}
    (hrelated : ∀ before action label after, step before action = some (label, after) →
      allowed before label = true → related before label after)
    {first last : σ} {actions : List α} {labels : List ι}
    (hexecute : execute step allowed first actions = some (labels, last)) :
    Run related first labels last := by
  induction actions generalizing first labels with
  | nil =>
      cases hexecute
      exact .nil _
  | cons action actions ih =>
      simp only [execute, Option.bind_eq_bind, Option.bind_eq_some_iff] at hexecute
      obtain ⟨⟨label, next⟩, hstep, hrest⟩ := hexecute
      split_ifs at hrest with hallowed
      obtain ⟨⟨others, final⟩, hothers, he⟩ := Option.bind_eq_some_iff.mp hrest
      cases he
      exact .cons (hrelated _ _ _ _ hstep hallowed) (ih hothers)

-- A run with a property that evaluation finds along the given actions.
theorem Run.exists_of_execute {step : σ → α → Option (ι × σ)} {allowed : σ → ι → Bool}
    {related : σ → ι → σ → Prop}
    (hrelated : ∀ before action label after, step before action = some (label, after) →
      allowed before label = true → related before label after)
    (first : σ) (actions : List α) (property : List ι → σ → Bool)
    (hfound : (execute step allowed first actions).any
      (fun result => property result.1 result.2) = true) :
    ∃ labels last, Run related first labels last ∧ property labels last = true := by
  cases hresult : execute step allowed first actions with
  | none => simp [hresult] at hfound
  | some result =>
      rw [hresult] at hfound
      exact ⟨result.1, result.2, Run.of_execute hrelated hresult, hfound⟩

-- Forward simulation. Silent concrete steps keep the abstract state, and each
-- visible one is matched by an abstract step with the same label.
theorem Run.simulate {step : σ → Option ω → σ → Prop} {abstractStep : τ → ω → τ → Prop}
    (related : σ → τ → Prop)
    (hsilent : ∀ before after state, related before state → step before none after →
      related after state)
    (hvisible : ∀ before event after state, related before state →
      step before (some event) after →
      ∃ next, abstractStep state event next ∧ related after next)
    {first last : σ} {labels : List (Option ω)} (hrun : Run step first labels last)
    (state : τ) (hfirst : related first state) :
    ∃ next, Run abstractStep state labels.reduceOption next ∧ related last next := by
  induction hrun generalizing state with
  | nil => exact ⟨state, .nil state, hfirst⟩
  | @cons _ _ _ label _ hs _ ih =>
      cases label with
      | none => simpa using ih state (hsilent _ _ _ hfirst hs)
      | some event =>
          obtain ⟨middle, hstep, hrel⟩ := hvisible _ _ _ _ hfirst hs
          obtain ⟨next, hnext, hlast⟩ := ih middle hrel
          exact ⟨next, by simpa using Run.cons hstep hnext, hlast⟩

section Throughout

variable (step : σ → α → σ) (first : σ)

-- Every state the actions pass through has the property, which may look at the
-- actions done so far. The first state and the last one are included.
def Throughout (property : List α → σ → Prop) (actions : List α) : Prop :=
  ∀ earlier later, actions = earlier ++ later → property earlier (earlier.foldl step first)

-- Every action is allowed in the state that finds it.
def EachStep (allowed : List α → σ → α → Prop) (actions : List α) : Prop :=
  ∀ earlier action later, actions = earlier ++ action :: later →
    allowed earlier (earlier.foldl step first) action

variable {step first} {property : List α → σ → Prop} (inv : List α → σ → Prop)
  {legal allowed : List α → σ → α → Prop}

theorem Throughout.last {actions : List α} (h : Throughout step first property actions) :
    property actions (actions.foldl step first) :=
  h actions [] (by simp)

theorem throughout_concat {actions : List α} {action : α} :
    Throughout step first property (actions ++ [action]) ↔
      Throughout step first property actions ∧
        property (actions ++ [action]) (step (actions.foldl step first) action) := by
  constructor
  · intro h
    refine ⟨fun earlier later heq => h earlier (later ++ [action]) (by simp [heq]), ?_⟩
    simpa using h.last
  · rintro ⟨hbefore, hlast⟩ earlier later heq
    rcases List.eq_nil_or_concat later with rfl | ⟨front, last, rfl⟩
    · rw [List.append_nil] at heq
      subst heq
      simpa using hlast
    · rw [List.concat_eq_append, ← List.append_assoc] at heq
      exact hbefore earlier front (List.append_inj_left' heq rfl)

theorem eachStep_concat {actions : List α} {action : α} :
    EachStep step first allowed (actions ++ [action]) ↔
      EachStep step first allowed actions ∧
        allowed actions (actions.foldl step first) action := by
  constructor
  · intro h
    exact ⟨fun earlier other later heq => h earlier other (later ++ [action]) (by simp [heq]),
      h actions action [] (by simp)⟩
  · rintro ⟨hbefore, hlast⟩ earlier other later heq
    rcases List.eq_nil_or_concat later with rfl | ⟨front, last, rfl⟩
    · obtain ⟨rfl, hother⟩ := List.append_inj' heq rfl
      cases hother
      exact hlast
    · rw [List.concat_eq_append, ← List.cons_append, ← List.append_assoc] at heq
      exact hbefore earlier other front (List.append_inj_left' heq rfl)

theorem eachStep_nil : EachStep step first allowed [] := by
  intro earlier action later heq
  simp at heq

theorem eachStep_cons {action : α} {actions : List α} :
    EachStep step first allowed (action :: actions) ↔ allowed [] first action ∧
      EachStep step (step first action) (fun done => allowed (action :: done)) actions := by
  constructor
  · intro h
    exact ⟨h [] action actions rfl, fun earlier other later heq =>
      h (action :: earlier) other later (by rw [heq, List.cons_append])⟩
  · rintro ⟨hfirst, hrest⟩ earlier other later heq
    cases earlier with
    | nil =>
        obtain ⟨rfl, -⟩ := List.cons_eq_cons.mp heq
        exact hfirst
    | cons head earlier =>
        obtain ⟨rfl, hrest'⟩ := List.cons_eq_cons.mp heq
        exact hrest earlier other later hrest'

-- A run is checked action by action.
instance decidableEachStep : ∀ (actions : List α) (first : σ)
    (allowed : List α → σ → α → Prop) [∀ done state action, Decidable (allowed done state action)],
    Decidable (EachStep step first allowed actions)
  | [], _, _, _ => isTrue eachStep_nil
  | action :: actions, first, allowed, _ =>
      have := decidableEachStep actions (step first action) fun done => allowed (action :: done)
      decidable_of_iff _ eachStep_cons.symm

-- The induction over a run: what the allowed steps keep holds at its end.
theorem EachStep.invariant (hfirst : inv [] first)
    (hkeeps : ∀ done state action, inv done state → allowed done state action →
      inv (done ++ [action]) (step state action))
    {actions : List α} (h : EachStep step first allowed actions) :
    inv actions (actions.foldl step first) := by
  induction actions using List.reverseRecOn with
  | nil => exact hfirst
  | append_singleton actions action ih =>
      obtain ⟨hbefore, hlast⟩ := eachStep_concat.mp h
      rw [List.foldl_append]
      exact hkeeps actions _ action (ih hbefore) hlast

theorem EachStep.earlier {actions later : List α}
    (h : EachStep step first allowed (actions ++ later)) : EachStep step first allowed actions :=
  fun earlier action rest heq => h earlier action (rest ++ later) (by simp [heq])

-- What follows from an invariant that the allowed steps keep holds along their runs.
theorem EachStep.throughout (hfirst : inv [] first)
    (hproperty : ∀ done state, inv done state → property done state)
    (hkeeps : ∀ done state action, inv done state → allowed done state action →
      inv (done ++ [action]) (step state action))
    {actions : List α} (h : EachStep step first allowed actions) :
    Throughout step first property actions := by
  rintro earlier later rfl
  exact hproperty earlier _ (h.earlier.invariant inv hfirst hkeeps)

theorem EachStep.and {actions : List α} (hlegal : EachStep step first legal actions)
    (hallowed : EachStep step first allowed actions) :
    EachStep step first (fun done state action => legal done state action ∧
      allowed done state action) actions :=
  fun earlier action later heq =>
    ⟨hlegal earlier action later heq, hallowed earlier action later heq⟩

-- Along a run of allowed steps, what follows of each from the invariant.
theorem EachStep.imp {needed : List α → σ → α → Prop} (hfirst : inv [] first)
    (hkeeps : ∀ done state action, inv done state → allowed done state action →
      inv (done ++ [action]) (step state action))
    (himp : ∀ done state action, inv done state → allowed done state action →
      needed done state action)
    {actions : List α} (h : EachStep step first allowed actions) :
    EachStep step first needed actions := by
  induction actions using List.reverseRecOn with
  | nil => exact eachStep_nil
  | append_singleton actions action ih =>
      obtain ⟨hbefore, hlast⟩ := eachStep_concat.mp h
      have hinv := hbefore.invariant inv hfirst hkeeps
      exact eachStep_concat.mpr ⟨ih hbefore, himp _ _ _ hinv hlast⟩

-- When a need can only be met by an allowed step, a run whose needs are all met is
-- a run of allowed steps.
theorem EachStep.of_needed {needed : List α → σ → α → Prop} (hfirst : inv [] first)
    (hkeeps : ∀ done state action, inv done state → legal done state action →
      allowed done state action → inv (done ++ [action]) (step state action))
    (hneeds : ∀ done state action, inv done state → legal done state action →
      needed done state action → allowed done state action)
    {actions : List α} (hlegal : EachStep step first legal actions)
    (h : EachStep step first needed actions) : EachStep step first allowed actions := by
  induction actions using List.reverseRecOn with
  | nil => exact eachStep_nil
  | append_singleton actions action ih =>
      obtain ⟨hlegal, hlegalLast⟩ := eachStep_concat.mp hlegal
      obtain ⟨hbefore, hlast⟩ := eachStep_concat.mp h
      have hallowed := ih hlegal hbefore
      have hinv := (hlegal.and hallowed).invariant inv hfirst fun done state action hinv hboth =>
        hkeeps done state action hinv hboth.1 hboth.2
      exact eachStep_concat.mpr ⟨hallowed, hneeds _ _ _ hinv hlegalLast hlast⟩

-- When the allowed steps are the ones that keep a property, a run has it throughout
-- exactly if all its steps are allowed.
theorem throughout_iff_eachStep (hfirst : inv [] first)
    (hproperty : ∀ done state, inv done state → property done state)
    (hkeeps : ∀ done state action, inv done state → legal done state action →
      allowed done state action → inv (done ++ [action]) (step state action))
    (hneeds : ∀ done state action, inv done state → legal done state action →
      property (done ++ [action]) (step state action) → allowed done state action)
    {actions : List α} (hlegal : EachStep step first legal actions) :
    Throughout step first property actions ↔ EachStep step first allowed actions := by
  have hinv {actions : List α} (hlegal : EachStep step first legal actions)
      (h : EachStep step first allowed actions) : inv actions (actions.foldl step first) :=
    (hlegal.and h).invariant inv hfirst fun done state action hinv hboth =>
      hkeeps done state action hinv hboth.1 hboth.2
  induction actions using List.reverseRecOn with
  | nil =>
      refine ⟨fun _ earlier action later heq => ?_, fun _ earlier later heq => ?_⟩
      · simp at heq
      · obtain ⟨rfl, -⟩ := List.append_eq_nil_iff.mp heq.symm
        exact hproperty [] first hfirst
  | append_singleton actions action ih =>
      obtain ⟨hbefore, hlast⟩ := eachStep_concat.mp hlegal
      rw [throughout_concat, eachStep_concat]
      constructor
      · rintro ⟨h, hafter⟩
        have hallowed := (ih hbefore).mp h
        exact ⟨hallowed, hneeds _ _ _ (hinv hbefore hallowed) hlast hafter⟩
      · rintro ⟨hallowed, h⟩
        exact ⟨(ih hbefore).mpr hallowed,
          hproperty _ _ (hkeeps _ _ _ (hinv hbefore hallowed) hlast h)⟩

end Throughout

end Gopher.Lib
