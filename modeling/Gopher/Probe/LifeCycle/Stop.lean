import Gopher.Probe.LifeCycle.Moves

namespace Gopher.Probe

open Gopher.Lib

def NoneSpawned (state : State) : Prop :=
  ∀ id, pcOf state id ≠ some .spawned

-- The calls that do not go on to create a thread while STARTED is unset.
def Manager.quiet : Manager → Bool
  | idle => true
  | stopReadRunning => true
  | stopSetStopping => true
  | stopUnsetStarted => true
  | stopCancel => true
  | stopSetStopped => true
  | stopUnsetRunning => true
  | stopGetPid => true
  | stopJoin => true
  | stopClearPid => true
  | keepliveGetPid => true
  | keepliveValidPid => true
  | tryReadRunning _ => true
  | tryReadStarted _ => true
  | returning _ _ => true
  | _ => false

-- Nothing is started and nothing is about to start.
structure Quiet (state : State) : Prop where
  started : state.flags.started = false
  spawned : NoneSpawned state
  manager : state.manager.quiet = true

theorem ThreadMove.frame {before after : State} {event : Event}
    (hmove : ThreadMove before event after) :
    after.manager = before.manager ∧ after.flags.started = before.flags.started := by
  obtain ⟨_, _, _, _, _, _, -, -, -, -, hstarted, -⟩ := hmove
  exact ⟨rfl, hstarted⟩

theorem NoneSpawned.threadMove {before after : State} {event : Event} (h : NoneSpawned before)
    (hmove : ThreadMove before event after) : NoneSpawned after ∧ event = .silent := by
  obtain ⟨id, source, target, event, flags, pid, hsource, -, hspawned, hevent, -, -⟩ := hmove
  have hne : source ≠ .spawned := by
    rintro rfl
    exact h id hsource
  refine ⟨?_, hevent.resolve_left fun he => hne he.2⟩
  intro other hother
  rw [pcOf_move] at hother
  split_ifs at hother with he
  · rw [hsource, Option.map_some, Option.some.injEq] at hother
    exact hne (hspawned hother)
  · exact h other hother

theorem Quiet.managerStep {before after : State} {event : Event} {ok : Bool} (h : Quiet before)
    (hstep : managerStep before ok = some (event, after)) :
    event.starts = false ∧ Quiet after := by
  obtain ⟨hstarted, hspawned, hquiet⟩ := h
  unfold Probe.managerStep at hstep
  dsimp only at hstep
  split at hstep
  case h_14 hm =>
      split_ifs at hstep
      · have hpcs := pcOf_pthreadCancel hstep
        cases hstep
        exact ⟨rfl, hstarted, fun id => (hpcs id).symm ▸ hspawned id, rfl⟩
      · cases hstep
        exact ⟨rfl, hstarted, hspawned, rfl⟩
  case h_8 caller hm =>
      rw [hstarted] at hstep
      cases hstep
      exact ⟨rfl, hstarted, hspawned, rfl⟩
  case h_7 caller hm =>
      cases hstep
      refine ⟨rfl, hstarted, hspawned, ?_⟩
      dsimp only
      split_ifs <;> rfl
  case h_11 hm =>
      cases hstep
      refine ⟨rfl, hstarted, hspawned, ?_⟩
      dsimp only
      split_ifs <;> rfl
  case h_13 hm =>
      cases hstep
      refine ⟨rfl, rfl, hspawned, ?_⟩
      dsimp only
      split_ifs <;> rfl
  -- the other points write neither STARTED nor the threads, or are not quiet
  all_goals
    rename_i hm
    rw [hm] at hquiet
    try split_ifs at hstep
    all_goals
      cases hstep <;>
        first
        | exact ⟨rfl, hstarted, hspawned, rfl⟩
        | exact absurd hquiet (by simp [Manager.quiet])

theorem Quiet.step {before after : State} {event : Event} (h : Quiet before)
    (hstep : Step before event after) (hcall : event ≠ .called .start) :
    event.starts = false ∧ Quiet after := by
  obtain ⟨call, hbegin⟩ | ⟨ok, hmanager⟩ | hthread := step_cases hstep
  · unfold callStep at hbegin
    split_ifs at hbegin with hidle
    cases hbegin
    refine ⟨rfl, h.started, h.spawned, ?_⟩
    cases call with
    | start => exact absurd rfl hcall
    | stop => rfl
    | keeplive => rfl
  · exact h.managerStep hmanager
  · obtain ⟨hmanager, hstarted⟩ := hthread.frame
    obtain ⟨hspawned, rfl⟩ := h.spawned.threadMove hthread
    exact ⟨rfl, hstarted.trans h.started, hspawned, hmanager ▸ h.manager⟩

theorem Quiet.run {first last : State} {events : List Event} (h : Quiet first)
    (hrun : Run Step first events last) (hcall : .called .start ∉ events) :
    ∀ event ∈ events, event.starts = false := by
  induction hrun with
  | nil => simp
  | cons hstep _ ih =>
      rw [List.mem_cons, not_or] at hcall
      obtain ⟨hevent, hnext⟩ := h.step hstep (Ne.symm hcall.1)
      exact List.forall_mem_cons.mpr ⟨hevent, ih hnext hcall.2⟩

-- A stop that has read RUNNING, and one that has also found or made STARTED unset.
def Manager.stopEntered : Manager → Bool
  | stopSetStopping => true
  | stopUnsetStarted => true
  | stopCancel => true
  | stopSetStopped => true
  | stopUnsetRunning => true
  | stopGetPid => true
  | stopJoin => true
  | stopClearPid => true
  | returning .stop 0 => true
  | _ => false

def Manager.stopCleared : Manager → Bool
  | stopSetStopping => false
  | stopUnsetStarted => false
  | manager => manager.stopEntered

structure StopPhase (state : State) : Prop where
  spawned : state.manager.stopEntered = true → NoneSpawned state
  started : state.manager.stopCleared = true → state.flags.started = false

theorem StopPhase.of_not_entered {state : State} (h : state.manager.stopEntered = false) :
    StopPhase state := by
  refine ⟨fun hentered => ?_, fun hcleared => ?_⟩
  · rw [h] at hentered
    cases hentered
  · unfold Manager.stopCleared at hcleared
    split at hcleared
    · cases hcleared
    · cases hcleared
    · rw [h] at hcleared
      cases hcleared

theorem Caller.returning_not_entered (caller : Caller) (ret : ℤ) :
    (Manager.returning caller.call ret).stopEntered = false := by
  cases caller <;> rfl

theorem StopPhase.managerStep {before after : State} {event : Event} {ok : Bool}
    (h : StopPhase before) (hstep : managerStep before ok = some (event, after))
    (htimely : StopTimely before event) : StopPhase after := by
  unfold Probe.managerStep at hstep
  dsimp only at hstep
  split at hstep
  case h_11 hm =>
      cases hstep
      have hspawned : NoneSpawned before := by
        intro id hpc
        obtain ⟨thread, hmem, he⟩ := exists_of_pcOf hpc
        exact htimely.1 thread hmem he
      refine ⟨fun _ => hspawned, fun hcleared => ?_⟩
      cases hrunning : before.flags.running with
      | true => simp [hrunning, Manager.stopCleared] at hcleared
      | false => exact htimely.2 hrunning
  case h_12 hm =>
      cases hstep
      exact ⟨fun _ => h.spawned (by rw [hm]; rfl), fun hcleared => by cases hcleared⟩
  case h_13 hm =>
      cases hstep
      exact ⟨fun _ => h.spawned (by rw [hm]; rfl), fun _ => rfl⟩
  case h_14 hm =>
      split_ifs at hstep
      · have hpcs := pcOf_pthreadCancel hstep
        cases hstep
        exact ⟨fun _ id => (hpcs id).symm ▸ h.spawned (by rw [hm]; rfl) id,
          fun _ => h.started (by rw [hm]; rfl)⟩
      · cases hstep
        exact .of_not_entered rfl
  case h_10 caller hm =>
      split_ifs at hstep <;> cases hstep <;> exact .of_not_entered (caller.returning_not_entered _)
  case h_7 caller hm =>
      cases hstep
      apply StopPhase.of_not_entered
      dsimp only
      split_ifs
      · exact caller.returning_not_entered 0
      · rfl
  -- elsewhere the call is no stop, or what is known is carried on
  all_goals
    rename_i hm
    try split_ifs at hstep
    all_goals
      cases hstep <;>
        first
        | exact .of_not_entered rfl
        | exact .of_not_entered (Caller.returning_not_entered _ _)
        | exact ⟨fun _ => h.spawned (by rw [hm]; rfl), fun _ => h.started (by rw [hm]; rfl)⟩

theorem StopPhase.step {before after : State} {event : Event} (h : StopPhase before)
    (hstep : Timely StopTimely before event after) : StopPhase after := by
  obtain ⟨call, hcall⟩ | ⟨ok, hmanager⟩ | hthread := step_cases hstep.1
  · unfold callStep at hcall
    split_ifs at hcall
    cases hcall
    cases call <;> exact .of_not_entered rfl
  · exact h.managerStep hmanager hstep.2
  · obtain ⟨hmanager, hstarted⟩ := hthread.frame
    refine ⟨fun hentered => ?_, fun hcleared => ?_⟩
    · rw [hmanager] at hentered
      exact ((h.spawned hentered).threadMove hthread).1
    · rw [hmanager] at hcleared
      exact hstarted.trans (h.started hcleared)

theorem managerStep_returned {before after : State} {call : Call} {ret : ℤ} {ok : Bool}
    (hstep : managerStep before ok = some (.returned call ret, after)) :
    before.manager = .returning call ret ∧ after = { before with manager := .idle } := by
  unfold managerStep at hstep
  dsimp only at hstep
  split at hstep
  case h_22 hm =>
      cases hstep
      exact ⟨hm, rfl⟩
  all_goals
    try split_ifs at hstep
    all_goals cases hstep

-- A stop that returns 0 leaves nothing behind that could start.
theorem StopPhase.returned {before after : State} (h : StopPhase before)
    (hstep : Step before (.returned .stop 0) after) : Quiet after := by
  obtain ⟨call, hcall⟩ | ⟨ok, hmanager⟩ | hthread := step_cases hstep
  · unfold callStep at hcall
    split_ifs at hcall
    cases hcall
  · obtain ⟨hm, rfl⟩ := managerStep_returned hmanager
    exact ⟨h.started (by rw [hm]; rfl), h.spawned (by rw [hm]; rfl), rfl⟩
  · cases hthread with
    | move _ _ _ _ _ _ _ _ _ hevent =>
        obtain ⟨he, -⟩ | he := hevent <;> cases he

theorem stop_wins (isExtend : Bool) (events : List Event) (last : State)
    (hrun : Run (Timely StopTimely) (newProbe isExtend) events last) : StopWins events := by
  intro before after hevents hcall
  rw [hevents] at hrun
  obtain ⟨middle, hbefore, hafter⟩ := hrun.split
  have hphase : StopPhase middle := by
    refine Run.invariant StopPhase ?_ hbefore (.of_not_entered rfl)
    intro first event next hfirst hstep
    exact hfirst.step hstep
  cases hafter with
  | cons hstep hrest =>
      have hquiet := hphase.returned hstep.1
      exact hquiet.run (hrest.mono fun _ _ _ h => h.1) hcall

instance (state : State) (event : Event) : Decidable (StopTimely state event) := by
  unfold StopTimely
  split <;> infer_instance

theorem stop_wins_restart :
    ∃ events last, Run (Timely StopTimely) (newProbe true) events last ∧
      .returned .stop 0 ∈ events ∧ StopWins events := by
  have htimely : ∀ before action event after, step before action = some (event, after) →
      decide (StopTimely before event) = true → Timely StopTimely before event after :=
    fun before action event after hstep hallowed =>
      ⟨⟨action, hstep⟩, of_decide_eq_true hallowed⟩
  obtain ⟨events, last, hrun, hreturned⟩ := Run.exists_of_execute htimely (newProbe true)
    restartActions (fun events _ => .returned .stop 0 ∈ events) (by decide)
  exact ⟨events, last, hrun, of_decide_eq_true hreturned, stop_wins true events last hrun⟩

theorem not_stopWins_of_drop {events after : List Event} {count : ℕ}
    (hdrop : events.drop count = .returned .stop 0 :: after)
    (hcall : .called .start ∉ after) (hstarts : after.any Event.starts = true) :
    ¬ StopWins events := by
  intro hwins
  have hsplit := List.take_append_drop count events
  rw [hdrop] at hsplit
  obtain ⟨event, hmem, hevent⟩ := List.any_eq_true.mp hstarts
  have hquiet := hwins _ after hsplit.symm hcall event hmem
  rw [hevent] at hquiet
  cases hquiet

-- A stop before the new thread has set RUNNING returns 0, and the thread then
-- runs the process. A stop after the process has died returns 0 as well, and the
-- next tick of the keep-alive starts the probe again.
theorem early_stop_loses :
    (∃ events last, Run Step (newProbe true) events last ∧ ¬ StopWins events ∧
      events.getLast? = some .threadStarted) ∧
    (∃ events last, Run Step (newProbe true) events last ∧ ¬ StopWins events ∧
      events.getLast? = some .created) := by
  constructor
  · obtain ⟨events, last, hrun, hdrop⟩ := Run.exists_of_execute step_of_action (newProbe true)
      (callActions .start true 10 ++ callActions .stop true 2 ++ [.thread 0])
      (fun events _ => events.drop 13 = [.returned .stop 0, .threadStarted] ∧
        events.getLast? = some .threadStarted) (by decide)
    have hdrop := of_decide_eq_true hdrop
    exact ⟨events, last, hrun, not_stopWins_of_drop hdrop.1 (by decide) (by decide), hdrop.2⟩
  · obtain ⟨events, last, hrun, hdrop⟩ := Run.exists_of_execute step_of_action (newProbe true)
      (callActions .start true 10 ++ launchActions 0 ++ exitActions 0 ++
        callActions .stop true 2 ++ callActions .keeplive false 4 ++
        [.manager true, .manager true])
      (fun events _ => events.drop 21 = [.returned .stop 0, .called .keeplive, .silent, .silent,
        .tryReads false, .silent, .silent, .created] ∧ events.getLast? = some .created)
      (by decide)
    have hdrop := of_decide_eq_true hdrop
    exact ⟨events, last, hrun, not_stopWins_of_drop hdrop.1 (by decide) (by decide), hdrop.2⟩

end Gopher.Probe
