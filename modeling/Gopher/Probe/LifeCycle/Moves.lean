import Gopher.Probe.LifeCycle
import Mathlib.Data.List.Basic

namespace Gopher.Probe

open Gopher.Lib

def pcOf (state : State) (id : ℕ) : Option ThreadPc :=
  (state.threads[id]?).map Thread.pc

-- All that a step of a thread can do: it moves its own point, and on the way
-- writes the flags and the pid. STARTED is not among what it writes.
inductive ThreadMove (before : State) : Event → State → Prop
  | move (id : ℕ) (source target : ThreadPc) (event : Event) (flags : StatusFlags) (pid : ℤ)
      (hsource : pcOf before id = some source)
      (hlive : source ≠ .finished ∨ target = .finished ∧ flags = before.flags)
      (hspawned : target = .spawned → source = .spawned)
      (hevent : event = .threadStarted ∧ source = .spawned ∨ event = .silent)
      (hstarted : flags.started = before.flags.started)
      (hruns : target.ownsRunning = true → flags.running = true ∨
        source.ownsRunning = true ∧ flags.running = before.flags.running) :
      ThreadMove before event { moveSetting before id flags target with pid := pid }

section Moves

variable {before after : State} {event : Event} {id : ℕ}

theorem ThreadMove.setting {source target : ThreadPc} {flags : StatusFlags}
    (hsource : pcOf before id = some source) (hlive : source ≠ .finished)
    (hspawned : target ≠ .spawned)
    (hevent : event = .threadStarted ∧ source = .spawned ∨ event = .silent)
    (hstarted : flags.started = before.flags.started)
    (hruns : target.ownsRunning = true → flags.running = true ∨
      source.ownsRunning = true ∧ flags.running = before.flags.running) :
    ThreadMove before event (moveSetting before id flags target) :=
  .move id source target event flags before.pid hsource (.inl hlive) (absurd · hspawned) hevent
    hstarted hruns

-- A step that only moves the point, from one that owns RUNNING where the new one does.
theorem ThreadMove.quiet {source target : ThreadPc} (hsource : pcOf before id = some source)
    (hlive : source ≠ .finished ∨ target = .finished) (hspawned : target ≠ .spawned)
    (hruns : target.ownsRunning = true → source.ownsRunning = true) :
    ThreadMove before .silent (moveThread before id target) :=
  .move id source target .silent before.flags before.pid hsource
    (hlive.imp_right fun h => ⟨h, rfl⟩) (absurd · hspawned)
    (.inr rfl) rfl fun h => .inr ⟨hruns h, rfl⟩

theorem threadStep_move (hstep : threadStep before id = some (event, after)) :
    ThreadMove before event after := by
  unfold threadStep at hstep
  dsimp only at hstep
  split at hstep
  case h_1 => cases hstep
  case h_2 hpc =>
      split_ifs at hstep with hextend
      · cases hstep
        exact .move id _ .launched _ before.flags _ hpc (by simp) (by simp) (by simp) rfl
          (by simp [ThreadPc.ownsRunning])
      · cases hstep
        exact .setting hpc (by simp) (by simp) (by simp) rfl (by simp)
  case h_3 hpc =>
      cases hstep
      exact .setting hpc (by simp) (by simp) (by simp) rfl (by simp)
  case h_4 hpc =>
      cases hstep
      refine .setting hpc (by simp) ?_ (by simp) rfl (by simp [ThreadPc.ownsRunning])
      split_ifs <;> simp
  case h_5 => cases hstep
  case h_6 hpc =>
      cases hstep
      refine .quiet hpc (by simp) ?_ (by simp [ThreadPc.ownsRunning])
      split_ifs <;> simp
  case h_7 hpc =>
      cases hstep
      exact .setting hpc (by simp) (by simp) (by simp) rfl (by simp [ThreadPc.ownsRunning])
  case h_8 hpc =>
      cases hstep
      exact .setting hpc (by simp) (by simp) (by simp) rfl (by simp [ThreadPc.ownsRunning])
  case h_9 hpc =>
      cases hstep
      exact .quiet hpc (by simp) (by simp) (by simp [ThreadPc.ownsRunning])
  case h_10 => cases hstep

theorem popenAgainStep_move (hstep : popenAgainStep before id = some (event, after)) :
    ThreadMove before event after := by
  unfold popenAgainStep at hstep
  split_ifs at hstep with hpc
  cases hstep
  exact .move id _ .spawned _ before.flags _ hpc.2 (by simp) (by simp) (by simp) rfl
    (by simp [ThreadPc.ownsRunning])

theorem lookupStep_move {found : Option ℤ} (hstep : lookupStep before id found = some (event, after)) :
    ThreadMove before event after := by
  unfold lookupStep at hstep
  dsimp only at hstep
  split at hstep
  case h_2 => cases hstep
  case h_1 retry hpc =>
      cases found with
      | none =>
          cases hstep
          refine .quiet hpc (by simp) ?_ (by simp [ThreadPc.ownsRunning])
          split_ifs <;> simp
      | some pid =>
          cases hstep
          refine .move id _ _ _ before.flags _ hpc (by simp) ?_ (by simp) rfl
            (by simp [ThreadPc.ownsRunning])
          split_ifs <;> simp

theorem dieStep_move (hstep : dieStep before id = some (event, after)) :
    ThreadMove before event after := by
  unfold dieStep at hstep
  split_ifs at hstep with hcancelled
  cases hstep
  cases hthread : before.threads[id]? with
  | none => simp [hthread] at hcancelled
  | some thread =>
      have hpc : pcOf before id = some thread.pc := by simp [pcOf, hthread]
      exact .quiet hpc (.inr rfl) (by simp) (by simp [ThreadPc.ownsRunning])

theorem step_of_action (before : State) (action : Action) (event : Event) (after : State)
    (hstep : step before action = some (event, after)) (_ : true = true) :
    Step before event after :=
  ⟨action, hstep⟩

-- A step is the beginning of a call, a step of the call under way, or a step of a thread.
theorem step_cases (hstep : Step before event after) :
    (∃ call, callStep before call = some (event, after)) ∨
    (∃ ok, managerStep before ok = some (event, after)) ∨ ThreadMove before event after := by
  obtain ⟨action, hstep⟩ := hstep
  cases action with
  | call call => exact .inl ⟨call, hstep⟩
  | manager ok => exact .inr (.inl ⟨ok, hstep⟩)
  | thread id => exact .inr (.inr (threadStep_move hstep))
  | popenAgain id => exact .inr (.inr (popenAgainStep_move hstep))
  | lookup id found => exact .inr (.inr (lookupStep_move hstep))
  | die id => exact .inr (.inr (dieStep_move hstep))

end Moves

theorem pcOf_move (before : State) (id : ℕ) (flags : StatusFlags) (target : ThreadPc) (pid : ℤ)
    (other : ℕ) :
    pcOf { moveSetting before id flags target with pid := pid } other =
      if other = id then (pcOf before id).map fun _ => target else pcOf before other := by
  simp only [pcOf, moveSetting, moveThread, List.getElem?_modify]
  by_cases he : other = id
  · simp [he, Function.comp_def]
  · simp [he, Ne.symm he]

theorem exists_of_pcOf {state : State} {id : ℕ} {pc : ThreadPc} (hpc : pcOf state id = some pc) :
    ∃ thread ∈ state.threads, thread.pc = pc := by
  obtain ⟨thread, hthread, he⟩ := Option.map_eq_some_iff.mp hpc
  exact ⟨thread, List.mem_of_getElem? hthread, he⟩

theorem pcOf_append (before : State) (thread : Thread) (id : ℕ) :
    pcOf { before with threads := before.threads ++ [thread] } id =
      if id = before.threads.length then some thread.pc else pcOf before id := by
  simp only [pcOf]
  by_cases he : id = before.threads.length
  · simp [he]
  · rw [if_neg he]
    by_cases hlt : id < before.threads.length
    · rw [List.getElem?_append_left hlt]
    · rw [List.getElem?_append_right (by omega), List.getElem?_eq_none (by simp; omega),
        List.getElem?_eq_none (by omega)]

theorem pcOf_pthreadCancel {before after : State} {event : Event}
    (hstep : pthreadCancel before = some (event, after)) (id : ℕ) :
    pcOf after id = pcOf before id := by
  cases hstep
  cases htid : before.tid with
  | none => rfl
  | some tid =>
      simp only [pcOf, List.getElem?_modify]
      split_ifs <;> cases before.threads[id]? <;> rfl

-- `try_start_probe` has found RUNNING unset and has not created the thread yet.
def Manager.creating : Manager → Bool
  | tryReadStarted _ => true
  | tryReady _ => true
  | tryCreate _ => true
  | _ => false

-- What a step of a call can do to the threads, to `tid` and to RUNNING.
inductive ManagerMove (before : State) : Event → State → Prop
  | keep (event : Event) (after : State)
      (hthreads : ∀ id, pcOf after id = pcOf before id)
      (htid : after.tid = before.tid)
      (hrunning : after.flags.running = before.flags.running)
      (hjoin : before.manager ≠ .stopJoin)
      (hcreating : after.manager.creating = true → before.manager.creating = true ∨
        event = .tryReads false ∧ before.flags.running = false) :
      ManagerMove before event after
  | create (caller : Caller) (hcreating : before.manager.creating = true) :
      ManagerMove before .created { before with
        threads := before.threads ++ [⟨.spawned, false⟩]
        tid := some before.threads.length
        manager := .returning caller.call 0 }
  | unsetRunning (flags : StatusFlags) :
      ManagerMove before .silent { before with flags := flags, manager := .stopJoin }
  | join (hfinished : isFinished before before.tid = true) :
      ManagerMove before .silent { before with manager := .stopClearPid }

theorem managerStep_move {before after : State} {event : Event} {ok : Bool}
    (hstep : managerStep before ok = some (event, after)) : ManagerMove before event after := by
  unfold managerStep at hstep
  dsimp only at hstep
  split at hstep
  case h_1 => cases hstep
  case h_10 caller hm =>
      split_ifs at hstep
      · cases hstep
        exact .create caller (by simp [hm, Manager.creating])
      · cases hstep
        exact .keep _ _ (fun _ => rfl) rfl rfl (by simp [hm]) (by simp [Manager.creating])
  case h_7 caller hm =>
      cases hstep
      refine .keep _ _ (fun _ => rfl) rfl rfl (by simp [hm]) ?_
      cases hrunning : before.flags.running <;> simp [Manager.creating]
  case h_14 hm =>
      split_ifs at hstep
      · have hpcs := pcOf_pthreadCancel hstep
        cases hstep
        exact .keep _ _ hpcs rfl rfl (by simp [hm]) (by simp [Manager.creating])
      · cases hstep
        exact .keep _ _ (fun _ => rfl) rfl rfl (by simp [hm]) (by simp [Manager.creating])
  case h_16 hm =>
      cases hstep
      exact .unsetRunning _
  case h_18 hm =>
      split_ifs at hstep with hfinished
      cases hstep
      exact .join hfinished
  case h_13 hm =>
      cases hstep
      refine .keep _ _ (fun _ => rfl) rfl rfl (by simp [hm]) ?_
      dsimp only
      split_ifs <;> simp [Manager.creating]
  case h_11 hm =>
      cases hstep
      refine .keep _ _ (fun _ => rfl) rfl rfl (by simp [hm]) ?_
      dsimp only
      split_ifs <;> simp [Manager.creating]
  all_goals
    rename_i hm
    try split_ifs at hstep
    all_goals
      cases hstep
      exact .keep _ _ (fun _ => rfl) rfl rfl (by simp [hm]) (by simp [hm, Manager.creating])

-- A call whose questions are all answered alike.
def callActions (call : Call) (ok : Bool) (steps : ℕ) : List Action :=
  .call call :: List.replicate steps (.manager ok)

-- The steps of an extend probe's thread up to the reading of its output.
def launchActions (id : ℕ) : List Action :=
  [.thread id, .thread id, .thread id, .lookup id (some 7)]

def exitActions (id : ℕ) : List Action :=
  [.thread id, .thread id, .thread id, .thread id]

-- A probe that is started, stopped and started again.
def restartActions : List Action :=
  callActions .start true 10 ++ launchActions 0 ++ callActions .stop true 4 ++ exitActions 0 ++
    [.manager true, .manager true, .manager true] ++ callActions .start true 9 ++ launchActions 1

end Gopher.Probe
