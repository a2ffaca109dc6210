import Gopher.Profiling.Trace

namespace Gopher.Profiling.Trace

open Lib

-- The clock does not go back, and it is not at its end.
def Forward (readings : List UInt64) (now : UInt64) : Prop :=
  now.toNat + DFT_AGGR_DURATION.toNat < 2 ^ 64 ∧ ∀ reading ∈ readings, reading ≤ now

theorem dft_toNat : DFT_AGGR_DURATION.toNat = 1000000000 := rfl

theorem min_toNat : MIN_EXEC_DURATION.toNat = 1000000 := rfl

theorem canEmit_eq_false {stime etime : UInt64}
    (hend : stime.toNat + DFT_AGGR_DURATION.toNat < 2 ^ 64) :
    canEmit stime etime = false ↔ etime.toNat < stime.toNat + DFT_AGGR_DURATION.toNat := by
  rw [canEmit, decide_eq_false_iff_not, ge_iff_le, UInt64.le_iff_toNat_le, UInt64.toNat_add,
    Nat.mod_eq_of_lt hend, Nat.not_le]

section Batches

variable {ι : Type}

-- The time is in the span, each stretch has its least part of it, and the count is far
-- from the end of an `int`.
structure Sound (stash : Stash ι) : Prop where
  start_le : stash.start ≤ stash.stop
  duration_le : stash.duration.toNat ≤ stash.stop.toNat - stash.start.toNat
  count_pos : 0 < stash.count.toInt
  count_le : stash.count.toInt * MIN_EXEC_DURATION.toNat ≤ stash.duration.toNat
  count_lt : stash.count.toInt < 1000

variable {stretch : Stretch ι} {stash : Stash ι}

theorem length_toNat
    (hlong : stretch.start.toNat + MIN_EXEC_DURATION.toNat ≤ stretch.stop.toNat) :
    stretch.length.toNat = stretch.stop.toNat - stretch.start.toNat := by
  rw [Coalesce.Interval.length, UInt64.toNat_sub_of_le]
  rw [UInt64.le_iff_toNat_le]
  omega

theorem Sound.single
    (hlong : stretch.start.toNat + MIN_EXEC_DURATION.toNat ≤ stretch.stop.toNat) :
    Sound (.single stretch : Stash ι) := by
  have hlength := length_toNat hlong
  have hstart : stretch.start ≤ stretch.stop := by
    rw [UInt64.le_iff_toNat_le]
    omega
  have hone : (Coalesce.Batch.single stretch : Stash ι).count.toInt = 1 := by
    change (1 : BitVec 32).toInt = 1
    decide
  refine ⟨hstart, hlength.le, by rw [hone]; decide, ?_, by rw [hone]; decide⟩
  rw [hone, Int.one_mul]
  change (MIN_EXEC_DURATION.toNat : ℤ) ≤ stretch.length.toNat
  rw [hlength]
  omega

-- A stretch within the aggregation time.
theorem Sound.merge (h : Sound stash) (hafter : stash.stop ≤ stretch.start)
    (hlong : stretch.start.toNat + MIN_EXEC_DURATION.toNat ≤ stretch.stop.toNat)
    (hwithin : stretch.stop.toNat < stash.start.toNat + DFT_AGGR_DURATION.toNat) :
    Sound (stash.merge stretch) := by
  obtain ⟨hstart, hduration, hpos, hcount, hless⟩ := h
  have hnext : (stash.count + 1).toInt = stash.count.toInt + 1 := by
    rw [BitVec.toInt_add]
    exact Int.bmod_eq_of_le (by change _ ≤ stash.count.toInt + 1; omega)
      (by change stash.count.toInt + 1 < _; omega)
  rw [UInt64.le_iff_toNat_le] at hstart hafter
  rw [dft_toNat] at hwithin
  rw [min_toNat] at hlong hcount
  have hlength := length_toNat hlong
  have hsum : (stash.duration + stretch.length).toNat =
      stash.duration.toNat + (stretch.stop.toNat - stretch.start.toNat) := by
    rw [UInt64.toNat_add, hlength]
    omega
  have hspan : stash.duration.toNat + (stretch.stop.toNat - stretch.start.toNat) ≤
      stretch.stop.toNat - stash.start.toNat := by omega
  have hmore : (stash.count.toInt + 1) * 1000000 ≤
      ↑(stash.duration.toNat + (stretch.stop.toNat - stretch.start.toNat)) := by
    rw [Int.add_mul, Int.one_mul]
    omega
  refine ⟨?_, ?_, ?_, ?_, ?_⟩
  · change stash.start ≤ stretch.stop
    rw [UInt64.le_iff_toNat_le]
    omega
  · change (stash.duration + stretch.length).toNat ≤ stretch.stop.toNat - stash.start.toNat
    rwa [hsum]
  · change 0 < (stash.count + 1).toInt
    omega
  · change (stash.count + 1).toInt * MIN_EXEC_DURATION.toNat ≤
      ↑(stash.duration + stretch.length).toNat
    rwa [hsum, hnext, min_toNat]
  · change (stash.count + 1).toInt < 1000
    omega

end Batches

section Timed

variable {κ ε ι : Type} [DecidableEq κ] (program : Program κ ι)

-- The events of a key, and what waits behind them.
def events (state : State κ ε ι) (key : κ) : List (Stash ι) :=
  sent program state.emitted key ++ (state.stashMap.lookup key).toList

-- Every event is sound, and the events of a key are about one time after another.
def Orderly (state : State κ ε ι) : Prop :=
  ∀ key, (∀ stash ∈ events program state key, Sound stash) ∧
    (events program state key).IsChain Coalesce.Follows

-- What a thread has read from the clock so far is not before what is kept of it.
structure Timed (readings : UInt32 → List UInt64) (state : State κ ε ι) : Prop where
  orderly : Orderly program state
  enterMap : state.enterMap.Valid MAX_SIZE_OF_THREAD
  stashMap : state.stashMap.Valid program.maxStash
  labelled : ∀ key, ∀ stash ∈ state.stashMap.lookup key,
    program.key (program.owner key) stash.info = key
  enter_pid : ∀ pid, ∀ enter ∈ state.enterMap.lookup pid, enter.pid = pid
  start_mem : ∀ pid, ∀ enter ∈ state.enterMap.lookup pid, enter.startTime ∈ readings pid
  stop_mem : ∀ key, ∀ stash ∈ events program state key, stash.stop ∈ readings (program.owner key)
  stop_le : ∀ key, ∀ enter ∈ state.enterMap.lookup (program.owner key),
    ∀ stash ∈ (events program state key).getLast?, stash.stop ≤ enter.startTime

variable {program} {readings : UInt32 → List UInt64} {state : State κ ε ι} {task : Task}
  {now : UInt64} {enter : Enter ε} {info : ι}

-- One more reading of a thread.
def read (readings : UInt32 → List UInt64) (pid : UInt32) (now : UInt64) : UInt32 → List UInt64 :=
  Function.update readings pid (now :: readings pid)

theorem mem_read {reading : UInt64} {pid other : UInt32} (h : reading ∈ readings other) :
    reading ∈ read readings pid now other := by
  rw [read, Function.update_apply]
  split_ifs with heq
  · rw [← heq]
    exact List.mem_cons_of_mem now h
  · exact h

theorem mem_read_self {pid : UInt32} : now ∈ read readings pid now pid := by
  rw [read, Function.update_self]
  exact List.mem_cons_self

theorem Timed.read (h : Timed program readings state) (pid : UInt32) (now : UInt64) :
    Timed program (read readings pid now) state where
  orderly := h.orderly
  enterMap := h.enterMap
  stashMap := h.stashMap
  labelled := h.labelled
  enter_pid := h.enter_pid
  start_mem pid enter henter := mem_read (h.start_mem pid enter henter)
  stop_mem key stash hstash := mem_read (h.stop_mem key stash hstash)
  stop_le := h.stop_le

theorem Timed.delete (h : Timed program readings state) (pid : UInt32) :
    Timed program readings { state with enterMap := state.enterMap.delete pid } := by
  have hold (other : UInt32) (enter : Enter ε)
      (henter : enter ∈ (state.enterMap.delete pid).lookup other) :
      enter ∈ state.enterMap.lookup other := by
    rw [BpfMap.lookup_delete h.enterMap.nodup] at henter
    split_ifs at henter
    · cases henter
    · exact henter
  exact {
    orderly := h.orderly
    enterMap := h.enterMap.delete
    stashMap := h.stashMap
    labelled := h.labelled
    enter_pid := fun other enter henter => h.enter_pid other enter (hold other enter henter)
    start_mem := fun other enter henter => h.start_mem other enter (hold other enter henter)
    stop_mem := h.stop_mem
    stop_le := fun key enter henter => h.stop_le key enter (hold _ enter henter) }

-- The start of a stretch.
theorem Timed.probeEnter (h : Timed program readings state) (task : Task)
    (hforward : Forward (readings task.pid) now) (ext : ε) :
    Timed program (Trace.read readings task.pid now) (probeEnter task ext now state) := by
  obtain ⟨filters, heq⟩ := probeEnter_eq task state now ext
  rw [heq]
  by_cases hfits : isEnabled state.filters task = true ∧
      state.enterMap.Fits MAX_SIZE_OF_THREAD task.pid
  · rw [if_pos hfits.1]
    have hread := h.read task.pid now
    refine ⟨h.orderly, h.enterMap.update, h.stashMap, h.labelled, fun pid enter henter => ?_,
      fun pid enter henter => ?_, hread.stop_mem, fun key enter henter stash hstash => ?_⟩
    all_goals
      rw [BpfMap.lookup_update hfits.2] at henter
      split_ifs at henter with hpid
    · cases henter
      exact hpid.symm
    · exact h.enter_pid pid enter henter
    · cases henter
      rw [hpid]
      exact mem_read_self
    · exact hread.start_mem pid enter henter
    · cases henter
      have hmem := h.stop_mem key stash (List.mem_of_getLast? hstash)
      rw [hpid] at hmem
      exact hforward.2 _ hmem
    · exact h.stop_le key enter henter stash hstash
  · have hsame : (if isEnabled state.filters task = true then
        state.enterMap.update MAX_SIZE_OF_THREAD task.pid
          { pid := task.pid, startTime := now, endTime := 0, ext }
        else state.enterMap) = state.enterMap := by
      split_ifs with henabled
      · exact BpfMap.update_of_not_fits fun hroom => hfits ⟨henabled, hroom⟩
      · rfl
    rw [hsame]
    have hread := h.read task.pid now
    exact ⟨hread.1, hread.2, hread.3, hread.4, hread.5, hread.6, hread.7, hread.8⟩

theorem Processed.events {key : κ} {result : Option (Stash ι) × List (Stash ι)}
    {before after : State κ ε ι} (h : Processed program task key result before after)
    (hlabelled : ∀ stash ∈ result.2, program.key task.pid stash.info = key) (other : κ) :
    Trace.events program after other =
      if other = key then Trace.sent program before.emitted key ++ (result.2 ++ result.1.toList)
      else Trace.events program before other := by
  rw [Trace.events, h.sent hlabelled, h.lookup]
  split_ifs with heq
  · rw [heq, List.append_assoc]
  · rw [List.append_nil]
    rfl

-- What holds of the events of a key and of the stretch, and is kept by merging.
theorem forall_trail {property : Stash ι → Prop} {stretch : Stretch ι} {key : κ}
    (hbefore : ∀ stash ∈ events program state key, property stash)
    (hsingle : property (.single stretch))
    (hmerge : ∀ stash ∈ state.stashMap.lookup key, canEmit stash.start stretch.stop = false →
      property (stash.merge stretch)) :
    ∀ stash ∈ sent program state.emitted key ++
      ((Coalesce.coalesce canEmit (state.stashMap.lookup key) stretch).2 ++
        (Coalesce.coalesce canEmit (state.stashMap.lookup key) stretch).1.toList),
      property stash := by
  obtain ⟨hstays, hgoes⟩ := Coalesce.forall_coalesce canEmit stretch
    (fun stash hstash => hbefore stash (List.mem_append_right _ (Option.mem_toList.mpr hstash)))
    hsingle hmerge
  intro stash hstash
  rcases List.mem_append.mp hstash with hsent | htrail
  · exact hbefore stash (List.mem_append_left _ hsent)
  · rcases List.mem_append.mp htrail with hout | hwaiting
    · exact hgoes stash hout
    · exact hstays stash (Option.mem_toList.mp hwaiting)

-- The end of a stretch that is long enough.
theorem Timed.keep (h : Timed program readings state) (enter : Enter ε)
    (henter : enter.pid = task.pid)
    (hstop : enter.endTime ∈ readings enter.pid)
    (hend : enter.endTime.toNat + DFT_AGGR_DURATION.toNat < 2 ^ 64)
    (hlong : enter.startTime.toNat + MIN_EXEC_DURATION.toNat ≤ enter.endTime.toNat)
    (hafter : ∀ key, program.owner key = enter.pid →
      ∀ stash ∈ (events program state key).getLast?, stash.stop ≤ enter.startTime) :
    Timed program readings
      { processEvent program task enter.pid enter info state with
        enterMap :=
          (processEvent program task enter.pid enter info state).enterMap.delete enter.pid } := by
  by_cases hfits : canEmit enter.startTime enter.endTime = false →
      state.stashMap.Fits program.maxStash (program.key enter.pid info)
  swap
  · obtain ⟨hwaits, hfull⟩ := Classical.not_imp.mp hfits
    rw [processEvent_of_full hwaits hfull]
    exact h.delete enter.pid
  have hprocessed := processed_processEvent task h.stashMap hfits
  have howner : program.owner (program.key enter.pid info) = enter.pid := program.owner_key _ _
  have hwaiting : ∀ stash ∈ state.stashMap.lookup (program.key enter.pid info),
      program.key enter.pid stash.info = program.key enter.pid info := by
    intro stash hstash
    have hlabelled := h.labelled _ stash hstash
    rwa [howner] at hlabelled
  obtain ⟨hstays, hgoes⟩ := labelled_coalesce (enter.stretch info) hwaiting
  have hevents := hprocessed.events fun stash hstash => henter ▸ hgoes stash hstash
  have hother (pid : UInt32) (other : Enter ε)
      (hlookup : other ∈ (state.enterMap.delete enter.pid).lookup pid) :
      pid ≠ enter.pid ∧ other ∈ state.enterMap.lookup pid := by
    rw [BpfMap.lookup_delete h.enterMap.nodup] at hlookup
    split_ifs at hlookup with hpid
    · cases hlookup
    · exact ⟨hpid, hlookup⟩
  have hsound (stash : Stash ι) (hstash : stash ∈ state.stashMap.lookup (program.key enter.pid info))
      (hwithin : canEmit stash.start enter.endTime = false) :
      Sound (stash.merge (enter.stretch info)) := by
    have hlast : stash ∈ (events program state (program.key enter.pid info)).getLast? := by
      rw [Trace.events, Option.mem_def.mp hstash, Option.toList_some, List.getLast?_concat]
      exact rfl
    have hbefore := (h.orderly _).1 stash (List.mem_of_getLast? hlast)
    have hle := hafter _ howner stash hlast
    have hstart := hbefore.start_le
    rw [UInt64.le_iff_toNat_le] at hle hstart
    exact hbefore.merge (hafter _ howner stash hlast) hlong
      ((canEmit_eq_false (by omega)).mp hwithin)
  rw [hprocessed.enterMap]
  refine ⟨fun key => ?_, h.enterMap.delete, hprocessed.stashMap, fun key stash hstash => ?_,
    fun pid other hlookup => h.enter_pid pid other (hother pid other hlookup).2,
    fun pid other hlookup => h.start_mem pid other (hother pid other hlookup).2,
    fun key => ?_, fun key other hlookup => ?_⟩
  · change (∀ stash ∈ events program (processEvent _ _ _ _ _ _) key, Sound stash) ∧
      (events program (processEvent _ _ _ _ _ _) key).IsChain Coalesce.Follows
    rw [hevents]
    split_ifs with hkey
    · exact ⟨forall_trail (h.orderly _).1 (.single hlong) hsound,
        Coalesce.ordered_coalesce (h.orderly _).2 (hafter _ howner)⟩
    · exact h.orderly key
  · change stash ∈ BpfMap.lookup (processEvent _ _ _ _ _ _).stashMap key at hstash
    rw [hprocessed.lookup] at hstash
    split_ifs at hstash with hkey
    · rw [hkey, howner]
      exact hstays stash hstash
    · exact h.labelled key stash hstash
  · change ∀ stash ∈ events program (processEvent _ _ _ _ _ _) key, stash.stop ∈ _
    rw [hevents]
    split_ifs with hkey
    · rw [hkey]
      refine forall_trail (h.stop_mem _) ?_ fun stash _ _ => ?_
      · rwa [howner]
      · rwa [howner]
    · exact h.stop_mem key
  · obtain ⟨hpid, hlookup⟩ := hother _ other hlookup
    change ∀ stash ∈ (events program (processEvent _ _ _ _ _ _) key).getLast?, _
    have hkey : key ≠ program.key enter.pid info := fun heq => hpid (heq.symm ▸ howner)
    rw [hevents, if_neg hkey]
    exact h.stop_le key other hlookup

-- The end of a stretch.
theorem Timed.probeExit (h : Timed program readings state)
    (process : Enter ε → State κ ε ι → State κ ε ι) (fill : ε → ι)
    (hprocess : ∀ enter state, enter.pid = task.pid → process enter state =
      processEvent program task enter.pid enter (fill enter.ext) state)
    (hforward : Forward (readings task.pid) now) :
    Timed program (Trace.read readings task.pid now) (probeExit process task.pid now state) := by
  cases hlookup : state.enterMap.lookup task.pid with
  | none =>
      rw [probeExit_of_none hlookup]
      exact h.read task.pid now
  | some enter =>
      by_cases hshort : now < enter.startTime + MIN_EXEC_DURATION
      · rw [probeExit_of_short hlookup hshort]
        exact (h.read task.pid now).delete task.pid
      · have hpid := h.enter_pid _ enter hlookup
        have hstart := hforward.2 _ (h.start_mem _ enter hlookup)
        have hend := hforward.1
        rw [UInt64.le_iff_toNat_le] at hstart
        have hlong : enter.startTime.toNat + MIN_EXEC_DURATION.toNat ≤ now.toNat := by
          rw [UInt64.lt_iff_toNat_lt, UInt64.toNat_add, Nat.not_lt, Nat.mod_eq_of_lt] at hshort
          · exact hshort
          · rw [dft_toNat] at hend
            rw [min_toNat]
            omega
        rw [probeExit_of_long _ hlookup hshort, hprocess (enter.setEndTime now) _ hpid, ← hpid]
        refine (h.read enter.pid now).keep (enter.setEndTime now) hpid mem_read_self hend
          hlong fun key hkey stash hstash => h.stop_le key enter ?_ stash hstash
        rw [hkey]
        exact hpid.symm ▸ hlookup

end Timed

theorem timed_initial {κ ε ι : Type} [DecidableEq κ] {program : Program κ ι} (filters : Filters) :
    Timed program (fun _ => [])
      { filters, enterMap := [], stashMap := [], emitted := [] : State κ ε ι } where
  orderly _ := ⟨fun _ hstash => (List.not_mem_nil hstash).elim, .nil⟩
  enterMap := .nil
  stashMap := .nil
  labelled _ _ hstash := by cases hstash
  enter_pid _ _ henter := by cases henter
  start_mem _ _ henter := by cases henter
  stop_mem _ _ hstash := (List.not_mem_nil hstash).elim
  stop_le _ _ henter := by cases henter

theorem Timed.setFilters {κ ε ι : Type} [DecidableEq κ] {program : Program κ ι}
    {readings : UInt32 → List UInt64} {state : State κ ε ι} (h : Timed program readings state)
    (filters : Filters) : Timed program readings { state with filters } :=
  ⟨h.1, h.2, h.3, h.4, h.5, h.6, h.7, h.8⟩

section OncpuRuns

def OncpuEvent.run (state : OncpuState) : OncpuEvent → OncpuState
  | .finishTaskSwitch switch => Trace.finishTaskSwitch state switch
  | .setFilters filters => { state with filters }

-- What the threads have read.
def OncpuEvent.read (readings : UInt32 → List UInt64) : OncpuEvent → UInt32 → List UInt64
  | .finishTaskSwitch switch =>
      Trace.read (Trace.read readings switch.prev.pid switch.offTime) switch.current.pid
        switch.onTime
  | .setFilters _ => readings

-- The clock goes on for the two threads of a switch.
def OncpuEvent.Forward (done : List OncpuEvent) : OncpuEvent → Prop
  | .finishTaskSwitch switch =>
      let readings := done.foldl OncpuEvent.read fun _ => []
      Trace.Forward (readings switch.prev.pid) switch.offTime ∧
        Trace.Forward (Trace.read readings switch.prev.pid switch.offTime switch.current.pid)
          switch.onTime
  | .setFilters _ => True

def OncpuState.initial (filters : Filters) : OncpuState :=
  { filters, enterMap := [], stashMap := [], emitted := [] }

-- Whether or not the maps have room.
theorem oncpu_orderly (filters : Filters) (events : List OncpuEvent)
    (hforward : EachStep OncpuEvent.run (OncpuState.initial filters)
      (fun done _ event => event.Forward done) events) :
    Throughout OncpuEvent.run (OncpuState.initial filters) (fun _ state => Orderly oncpu state)
      events := by
  refine hforward.throughout
    (fun done state => Timed oncpu (done.foldl OncpuEvent.read fun _ => []) state)
    (timed_initial filters) (fun _ _ h => h.orderly) fun done state event h hforward => ?_
  rw [List.foldl_append, List.foldl_cons, List.foldl_nil]
  cases event with
  | finishTaskSwitch switch =>
      have hoff := h.probeExit (fun enter => processOncpuEvent enter switch.prev)
        (fun _ => ()) (fun _ state henter => processOncpuEvent_eq state henter) hforward.1
      exact hoff.probeEnter switch.current hforward.2 ()
  | setFilters filters => exact h.setFilters filters

instance (readings : List UInt64) (now : UInt64) : Decidable (Forward readings now) :=
  @instDecidableAnd _ _ inferInstance (List.decidableBAll _ readings)

instance (done : List OncpuEvent) : ∀ event, Decidable (OncpuEvent.Forward done event)
  | .finishTaskSwitch _ => inferInstanceAs (Decidable (_ ∧ _))
  | .setFilters _ => isTrue trivial

def idleTask : Task := ⟨0, 0, "swapper".toList⟩
def workerTask : Task := ⟨12, 10, "worker".toList⟩

-- A thread that is looked at runs for two milliseconds and then for two seconds.
def workerSwitches : List OncpuEvent :=
  [.finishTaskSwitch ⟨idleTask, workerTask, 900, 1000⟩,
    .finishTaskSwitch ⟨workerTask, idleTask, 2001000, 2001100⟩,
    .finishTaskSwitch ⟨idleTask, workerTask, 2100000, 2100100⟩,
    .finishTaskSwitch ⟨workerTask, idleTask, 2002100100, 2002100200⟩]

theorem oncpu_orderly_worker :
    Throughout OncpuEvent.run (OncpuState.initial ⟨[(10, ())], []⟩)
      (fun _ state => Orderly oncpu state) workerSwitches :=
  oncpu_orderly _ workerSwitches (by decide)

end OncpuRuns

end Gopher.Profiling.Trace
