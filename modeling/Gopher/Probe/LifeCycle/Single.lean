import Gopher.Probe.LifeCycle.Moves

namespace Gopher.Probe

open Gopher.Lib

-- Every live thread is the one created last; a thread that owns RUNNING keeps
-- it set until a stop waits for that thread; and there is no live thread while
-- a new one is being created.
structure Single (state : State) : Prop where
  tid_of_live : ∀ id pc, pcOf state id = some pc → pc ≠ .finished → state.tid = some id
  running_of_owner : ∀ id pc, pcOf state id = some pc → pc.ownsRunning = true →
    state.flags.running = true ∨ state.manager = .stopJoin
  creating : state.manager.creating = true → ∀ id pc, pcOf state id = some pc → pc = .finished

theorem single_newProbe (isExtend : Bool) : Single (newProbe isExtend) := by
  constructor <;> simp [newProbe, pcOf, Manager.creating]

theorem ThreadPc.ne_finished_of_ownsRunning {pc : ThreadPc} (h : pc.ownsRunning = true) :
    pc ≠ .finished := by
  rintro rfl
  cases h

theorem Single.threadMove {before after : State} {event : Event} (h : Single before)
    (hmove : ThreadMove before event after) : Single after := by
  obtain ⟨id, source, target, event, flags, pid, hsource, hlive, -, -, -, hruns⟩ := hmove
  have hpc := pcOf_move before id flags target pid
  have howner := h.running_of_owner
  constructor
  · intro other pc hother hne
    rw [hpc] at hother
    split_ifs at hother with he
    · rw [hsource] at hother
      cases hother
      rw [he]
      exact h.tid_of_live id source hsource (hlive.resolve_right fun hfin => hne hfin.1)
    · exact h.tid_of_live other pc hother hne
  · intro other pc hother howns
    rw [hpc] at hother
    show flags.running = true ∨ before.manager = .stopJoin
    split_ifs at hother with he
    · rw [hsource] at hother
      cases hother
      obtain hset | ⟨hsourceOwns, hsame⟩ := hruns howns
      · exact .inl hset
      · rw [hsame]
        exact howner id source hsource hsourceOwns
    · -- the owner is the only live thread, so `id` has finished and wrote nothing
      have htid := h.tid_of_live other pc hother (ThreadPc.ne_finished_of_ownsRunning howns)
      obtain hsourceLive | ⟨-, rfl⟩ := hlive
      · have hid := h.tid_of_live id source hsource hsourceLive
        rw [htid, Option.some.injEq] at hid
        exact absurd hid he
      · exact howner other pc hother howns
  · intro hcreating other pc hother
    have hall := h.creating hcreating
    rw [hpc] at hother
    split_ifs at hother with he
    · rw [hsource] at hother
      cases hother
      exact (hlive.resolve_left (fun hne => hne (hall id source hsource))).1
    · exact hall other pc hother

theorem Single.managerMove {before after : State} {event : Event} (h : Single before)
    (hmove : ManagerMove before event after) (htimely : StartTimely before event) :
    Single after := by
  cases hmove with
  | keep _ _ hthreads htid hrunning hjoin hcreating =>
      constructor
      · intro id pc hpc hne
        rw [hthreads] at hpc
        rw [htid]
        exact h.tid_of_live id pc hpc hne
      · intro id pc hpc howns
        rw [hthreads] at hpc
        rw [hrunning]
        exact .inl ((h.running_of_owner id pc hpc howns).resolve_right hjoin)
      · intro hnow id pc hpc
        rw [hthreads] at hpc
        obtain hbefore | ⟨rfl, hunset⟩ := hcreating hnow
        · exact h.creating hbefore id pc hpc
        · -- a live thread would own RUNNING, and RUNNING is unset
          by_contra hne
          obtain ⟨thread, hmem, rfl⟩ := exists_of_pcOf hpc
          have howns := htimely thread (List.mem_filter.mpr ⟨hmem, by simpa [Thread.live] using hne⟩)
          have hset := (h.running_of_owner id _ hpc howns).resolve_right hjoin
          rw [hunset] at hset
          cases hset
  | create caller hcreating =>
      have hall := h.creating hcreating
      have hpcs := pcOf_append before ⟨.spawned, false⟩
      constructor
      · intro id pc hpc hne
        have hpc := (hpcs id).symm.trans hpc
        split_ifs at hpc with he
        · rw [he]
        · exact absurd (hall id pc hpc) hne
      · intro id pc hpc howns
        have hpc := (hpcs id).symm.trans hpc
        split_ifs at hpc with he
        · cases hpc
          cases howns
        · exact absurd (hall id pc hpc) (ThreadPc.ne_finished_of_ownsRunning howns)
      · intro hnow
        cases hnow
  | unsetRunning flags =>
      exact ⟨h.tid_of_live, fun _ _ _ _ => .inr rfl, fun hnow => by cases hnow⟩
  | join hfinished =>
      -- the thread waited for was the only live one
      have hall : ∀ id pc, pcOf before id = some pc → pc = .finished := by
        intro id pc hpc
        by_contra hne
        have htid := h.tid_of_live id pc hpc hne
        simp only [pcOf] at hpc
        cases hthread : before.threads[id]? with
        | none => simp [hthread] at hpc
        | some thread => simp_all [isFinished]
      refine ⟨h.tid_of_live, fun id pc hpc howns => ?_, fun hnow => by cases hnow⟩
      exact absurd (hall id pc hpc) (ThreadPc.ne_finished_of_ownsRunning howns)

theorem Single.step {before after : State} {event : Event} (h : Single before)
    (hstep : Timely StartTimely before event after) : Single after := by
  obtain ⟨call, hcall⟩ | ⟨ok, hmanager⟩ | hthread := step_cases hstep.1
  · unfold callStep at hcall
    split_ifs at hcall with hidle
    cases hcall
    refine ⟨h.tid_of_live, fun id pc hpc howns => ?_, fun hnow => ?_⟩
    · have hset := (h.running_of_owner id pc hpc howns).resolve_right (by simp [hidle])
      exact .inl hset
    · cases call <;> cases hnow
  · exact h.managerMove (managerStep_move hmanager) hstep.2
  · exact h.threadMove hthread

theorem length_filter_le_one {α : Type*} {p : α → Bool} {items : List α}
    (h : ∀ (i j : ℕ) a b, items[i]? = some a → items[j]? = some b → p a = true → p b = true →
      i = j) :
    (items.filter p).length ≤ 1 := by
  induction items with
  | nil => simp
  | cons item items ih =>
      have hrest : ∀ (i j : ℕ) a b, items[i]? = some a → items[j]? = some b → p a = true →
          p b = true → i = j := by
        intro i j a b hi hj ha hb
        have := h (i + 1) (j + 1) a b (by simpa using hi) (by simpa using hj) ha hb
        omega
      cases hitem : p item with
      | false => simpa [hitem] using ih hrest
      | true =>
          have hnone : items.filter p = [] := by
            apply List.filter_eq_nil_iff.mpr
            intro other hother hp
            obtain ⟨i, hi⟩ := List.mem_iff_getElem?.mp hother
            have := h 0 (i + 1) item other rfl (by simpa using hi) hitem hp
            omega
          simp [hitem, hnone]

theorem Single.liveThreads_le {state : State} (h : Single state) :
    (liveThreads state).length ≤ 1 := by
  apply length_filter_le_one
  intro i j a b hi hj ha hb
  have hitid := h.tid_of_live i a.pc (by simp [pcOf, hi]) (by simpa [Thread.live] using ha)
  have hjtid := h.tid_of_live j b.pc (by simp [pcOf, hj]) (by simpa [Thread.live] using hb)
  rw [hitid, Option.some.injEq] at hjtid
  exact hjtid

theorem liveThreads_le_one (isExtend : Bool) (events : List Event) (last : State)
    (hrun : Run (Timely StartTimely) (newProbe isExtend) events last) :
    (liveThreads last).length ≤ 1 := by
  have hsingle : Single last := by
    refine Run.invariant Single ?_ hrun (single_newProbe isExtend)
    intro before event after hbefore hstep
    exact hbefore.step hstep
  exact hsingle.liveThreads_le

instance (state : State) (event : Event) : Decidable (StartTimely state event) := by
  unfold StartTimely
  split <;> infer_instance

theorem liveThreads_le_one_restart :
    ∃ events last, Run (Timely StartTimely) (newProbe true) events last ∧
      (liveThreads last).length = 1 ∧ (liveThreads last).length ≤ 1 := by
  have htimely : ∀ before action event after, step before action = some (event, after) →
      decide (StartTimely before event) = true → Timely StartTimely before event after :=
    fun before action event after hstep hallowed =>
      ⟨⟨action, hstep⟩, of_decide_eq_true hallowed⟩
  obtain ⟨events, last, hrun, hone⟩ := Run.exists_of_execute htimely (newProbe true) restartActions
    (fun _ last => (liveThreads last).length = 1) (by decide)
  exact ⟨events, last, hrun, of_decide_eq_true hone, liveThreads_le_one true events last hrun⟩

-- Two requests to start, the second before the first thread has set RUNNING.
theorem second_start_not_single :
    ∃ events last, Run Step (newProbe true) events last ∧ ¬ (liveThreads last).length ≤ 1 := by
  obtain ⟨events, last, hrun, htwo⟩ := Run.exists_of_execute step_of_action (newProbe true)
    (callActions .start true 10 ++ callActions .start true 10)
    (fun _ last => ¬ (liveThreads last).length ≤ 1) (by decide)
  exact ⟨events, last, hrun, of_decide_eq_true htwo⟩

end Gopher.Probe
