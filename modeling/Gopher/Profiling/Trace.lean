import Mathlib.Data.BitVec
import Gopher.Lib.BpfMap
import Gopher.Lib.Coalesce
import Gopher.Lib.Run
import Gopher.Profiling.Attrs

-- The kernel side of thread profiling. Two programs measure how long a thread is on a
-- processor and how long it is in a system call.

namespace Gopher.Profiling.Trace

open Lib

def MAX_SIZE_OF_THREAD : ℕ := 1024
def MAX_SIZE_OF_STASH_EVENT : ℕ := 10240
def DFT_AGGR_DURATION : UInt64 := 1000 * NSEC_PER_MSEC
def MIN_EXEC_DURATION : UInt64 := NSEC_PER_MSEC

-- `oncpu_data_t` and `syscall_data_t`; the second has the call with its extensions as `info`.
-- The count is an `int`.
abbrev Stash (ι : Type) := Coalesce.Batch UInt64 ι (BitVec 32)

abbrev Stretch (ι : Type) := Coalesce.Interval UInt64 ι

-- `ext` is empty for `oncpu_m_enter_t` and the union `ext_info` for `syscall_m_enter_t`.
structure Enter (ε : Type) where
  pid : UInt32
  startTime : UInt64
  endTime : UInt64
  ext : ε
  deriving DecidableEq

def Enter.setEndTime {ε : Type} (enter : Enter ε) (now : UInt64) : Enter ε :=
  { enter with endTime := now }

def Enter.stretch {ε ι : Type} (enter : Enter ε) (info : ι) : Stretch ι :=
  { start := enter.startTime, stop := enter.endTime, info }

@[simp] theorem Enter.stretch_start {ε ι : Type} (enter : Enter ε) (info : ι) :
    (enter.stretch info).start = enter.startTime := rfl

@[simp] theorem Enter.stretch_stop {ε ι : Type} (enter : Enter ε) (info : ι) :
    (enter.stretch info).stop = enter.endTime := rfl

structure Task where
  pid : UInt32
  tgid : UInt32
  comm : Text
  deriving DecidableEq

inductive TraceEventType
  | syscall
  | oncpu
  deriving DecidableEq

structure TraceEventData (ι : Type) where
  timestamp : UInt64
  pid : UInt32
  tgid : UInt32
  comm : Text
  type : TraceEventType
  data : Stash ι

-- The processes to look at and the threads not to look at, with the process of each.
structure Filters where
  procFilterMap : BpfMap UInt32 Unit
  thrdBlMap : BpfMap UInt32 UInt32

def isProcEnabled (filters : Filters) (tgid : UInt32) : Bool :=
  (filters.procFilterMap.lookup tgid).isSome

-- A thread that was entered for another process is taken off the list.
def isThrdEnabled (filters : Filters) (pid tgid : UInt32) : Bool × Filters :=
  match filters.thrdBlMap.lookup pid with
  | none => (true, filters)
  | some val =>
      if val = tgid then (false, filters)
      else (true, { filters with thrdBlMap := filters.thrdBlMap.delete pid })

def canEmit (stime etime : UInt64) : Bool := decide (etime ≥ stime + DFT_AGGR_DURATION)

-- What the two programs do not share: the type of their events, the size of the stash map
-- and its key, which has the thread in it.
structure Program (κ ι : Type) where
  type : TraceEventType
  maxStash : ℕ
  key : UInt32 → ι → κ
  owner : κ → UInt32
  owner_key : ∀ pid info, owner (key pid info) = pid

structure State (κ ε ι : Type) where
  filters : Filters
  enterMap : BpfMap UInt32 (Enter ε)
  stashMap : BpfMap κ (Stash ι)
  emitted : List (TraceEventData ι)

section Programs

variable {κ ε ι : Type} [DecidableEq κ] (program : Program κ ι)

def initEvent (task : Task) (data : Stash ι) : TraceEventData ι where
  timestamp := data.start
  pid := task.pid
  tgid := task.tgid
  comm := task.comm
  type := program.type
  data := data

def emitEvent (task : Task) (data : Stash ι) (state : State κ ε ι) : State κ ε ι :=
  { state with emitted := state.emitted ++ [initEvent program task data] }

def stashEvent (pid : UInt32) (data : Stash ι) (state : State κ ε ι) : State κ ε ι :=
  { state with
    stashMap := state.stashMap.update program.maxStash (program.key pid data.info) data }

def deleteStash (key : κ) (state : State κ ε ι) : State κ ε ι :=
  { state with stashMap := state.stashMap.delete key }

def emitOrStash (task : Task) (enter : Enter ε) (info : ι) (state : State κ ε ι) : State κ ε ι :=
  if canEmit enter.startTime enter.endTime then
    emitEvent program task (.single (enter.stretch info)) state
  else stashEvent program enter.pid (.single (enter.stretch info)) state

-- `pid` is the thread that the stash is looked for with.
def processEvent (task : Task) (pid : UInt32) (enter : Enter ε) (info : ι)
    (state : State κ ε ι) : State κ ε ι :=
  let key := program.key pid info
  match state.stashMap.lookup key with
  | none => emitOrStash program task enter info state
  | some stash =>
      if canEmit stash.start enter.endTime then
        emitOrStash program task enter info (deleteStash key (emitEvent program task stash state))
      else
        { state with
          stashMap := state.stashMap.update program.maxStash key
            (stash.merge (enter.stretch info)) }

def probeEnter (task : Task) (ext : ε) (now : UInt64) (state : State κ ε ι) : State κ ε ι :=
  if !isProcEnabled state.filters task.tgid then state
  else
    let (enabled, filters) := isThrdEnabled state.filters task.pid task.tgid
    let state := { state with filters }
    if !enabled then state
    else
      { state with
        enterMap := state.enterMap.update MAX_SIZE_OF_THREAD task.pid
          { pid := task.pid, startTime := now, endTime := 0, ext } }

-- `process` is what the program does with a stretch that is long enough.
def probeExit (process : Enter ε → State κ ε ι → State κ ε ι) (pid : UInt32) (now : UInt64)
    (state : State κ ε ι) : State κ ε ι :=
  match state.enterMap.lookup pid with
  | none => state
  | some enter =>
      let enter := enter.setEndTime now
      if enter.endTime < enter.startTime + MIN_EXEC_DURATION then
        { state with enterMap := state.enterMap.delete pid }
      else
        let state := process enter state
        { state with enterMap := state.enterMap.delete pid }

end Programs

section Oncpu

-- One stash for each thread.
def oncpu : Program UInt32 Unit where
  type := .oncpu
  maxStash := MAX_SIZE_OF_THREAD
  key pid _ := pid
  owner pid := pid
  owner_key _ _ := rfl

abbrev OncpuState := State UInt32 Unit Unit

def processOncpuEvent (enter : Enter Unit) (task : Task) (state : OncpuState) : OncpuState :=
  processEvent oncpu task task.pid enter () state

def processOncpu (task : Task) (now : UInt64) (state : OncpuState) : OncpuState :=
  probeEnter task () now state

def processOffcpu (task : Task) (now : UInt64) (state : OncpuState) : OncpuState :=
  probeExit (fun enter => processOncpuEvent enter task) task.pid now state

-- A switch, with what the clock says at its two ends.
structure TaskSwitch where
  prev : Task
  current : Task
  offTime : UInt64
  onTime : UInt64

def finishTaskSwitch (state : OncpuState) (switch : TaskSwitch) : OncpuState :=
  processOncpu switch.current switch.onTime (processOffcpu switch.prev switch.offTime state)

end Oncpu

section Syscall

structure StashKey where
  pid : UInt32
  nr : UInt64
  deriving DecidableEq

-- What a stash knows of the first of its calls. `extInfo` is the union of the descriptor
-- and the futex operation.
structure SyscallInfo where
  nr : UInt64
  extInfo : Int32
  uid : Int32
  deriving DecidableEq

def syscall : Program StashKey SyscallInfo where
  type := .syscall
  maxStash := MAX_SIZE_OF_STASH_EVENT
  key pid info := ⟨pid, info.nr⟩
  owner key := key.pid
  owner_key _ _ := rfl

abbrev SyscallState := State StashKey Int32 SyscallInfo

-- `syscall_m_meta_t`
structure SyscallMMeta where
  nr : UInt64
  flag : UInt32

-- `stackid` is what `bpf_get_stackid` answers.
def initSyscallData (scm : SyscallMMeta) (stackid : Int32) (ext : Int32) : SyscallInfo where
  nr := scm.nr
  extInfo :=
    if scm.nr = SYSCALL_FUTEX_ID then ext
    else if scm.flag &&& SYSCALL_FLAG_FD ≠ 0 then ext
    else 0
  uid := if scm.flag &&& SYSCALL_FLAG_STACK ≠ 0 then stackid else 0

def processSyscallEvent (sce : Enter Int32) (scm : SyscallMMeta) (stackid : Int32) (task : Task)
    (state : SyscallState) : SyscallState :=
  processEvent syscall task sce.pid sce (initSyscallData scm stackid sce.ext) state

def probeSyscallEnter (task : Task) (ext : Int32) (now : UInt64) (state : SyscallState) :
    SyscallState :=
  probeEnter task ext now state

def probeSyscallExit (task : Task) (scm : SyscallMMeta) (stackid : Int32) (now : UInt64)
    (state : SyscallState) : SyscallState :=
  probeExit (fun sce => processSyscallEvent sce scm stackid task) task.pid now state

end Syscall

section Stretches

variable {κ ε ι : Type} [DecidableEq κ]

-- A thread that is being measured.
structure Running (ε : Type) where
  start : UInt64
  ext : ε

def Running.enter (running : Running ε) (pid : UInt32) : Enter ε :=
  { pid, startTime := running.start, endTime := 0, ext := running.ext }

-- A program beside what it is to measure: since when a thread is measured, and the
-- stretches of each key that were long enough.
structure Traced (κ ε ι : Type) where
  state : State κ ε ι
  since : UInt32 → Option (Running ε)
  kept : κ → List (Stretch ι)

def Traced.initial (filters : Filters) : Traced κ ε ι :=
  { state := { filters, enterMap := [], stashMap := [], emitted := [] }
    since := fun _ => none, kept := fun _ => [] }

def isEnabled (filters : Filters) (task : Task) : Bool :=
  isProcEnabled filters task.tgid && (isThrdEnabled filters task.pid task.tgid).1

def Traced.enter (task : Task) (ext : ε) (now : UInt64) (traced : Traced κ ε ι) :
    Traced κ ε ι :=
  { traced with
    state := probeEnter task ext now traced.state
    since :=
      if isEnabled traced.state.filters task then
        Function.update traced.since task.pid (some ⟨now, ext⟩)
      else traced.since }

-- The stretch of a thread that ends now, if it is long enough.
def Traced.stretch (pid : UInt32) (info : ε → ι) (now : UInt64) (traced : Traced κ ε ι) :
    Option (Stretch ι) :=
  (traced.since pid).bind fun running =>
    if now < running.start + MIN_EXEC_DURATION then none
    else some ⟨running.start, now, info running.ext⟩

def Traced.exit (program : Program κ ι) (process : Enter ε → State κ ε ι → State κ ε ι)
    (pid : UInt32) (info : ε → ι) (now : UInt64) (traced : Traced κ ε ι) : Traced κ ε ι :=
  { state := probeExit process pid now traced.state
    since := Function.update traced.since pid none
    kept :=
      match traced.stretch pid info now with
      | none => traced.kept
      | some stretch =>
          let key := program.key pid stretch.info
          Function.update traced.kept key (traced.kept key ++ [stretch]) }

variable (program : Program κ ι)

-- The events of one key.
def sent (emitted : List (TraceEventData ι)) (key : κ) : List (Stash ι) :=
  (emitted.filter fun event => program.key event.pid event.data.info = key).map
    TraceEventData.data

-- The threads that run are measured, and the events of each key with its stash behind them
-- are its stretches, each put together with the ones that follow it within the aggregation
-- time.
structure Measured (traced : Traced κ ε ι) : Prop where
  since_eq : ∀ pid, traced.state.enterMap.lookup pid = (traced.since pid).map (Running.enter · pid)
  coalesced : ∀ key, Coalesce.Coalesced canEmit (traced.kept key)
    (sent program traced.state.emitted key)
    (traced.state.stashMap.lookup key)

-- There is room to measure a thread.
def EnterFits (task : Task) (traced : Traced κ ε ι) : Prop :=
  isEnabled traced.state.filters task = true →
    traced.state.enterMap.Fits MAX_SIZE_OF_THREAD task.pid

-- There is room for a stretch that has to wait.
def ExitFits (pid : UInt32) (info : ε → ι) (now : UInt64) (traced : Traced κ ε ι) : Prop :=
  ∀ stretch ∈ traced.stretch pid info now, canEmit stretch.start stretch.stop = false →
    traced.state.stashMap.Fits program.maxStash (program.key pid stretch.info)

structure Inv (traced : Traced κ ε ι) : Prop where
  measured : Measured program traced
  enterMap : traced.state.enterMap.Valid MAX_SIZE_OF_THREAD
  stashMap : traced.state.stashMap.Valid program.maxStash
  labelled : ∀ key, ∀ stash ∈ traced.state.stashMap.lookup key,
    program.key (program.owner key) stash.info = key

variable {program} {state : State κ ε ι} {task : Task} {enter : Enter ε} {info : ι}

-- What an event does, given that what has to wait finds room.
structure Processed (program : Program κ ι) (task : Task) (key : κ)
    (result : Option (Stash ι) × List (Stash ι)) (before after : State κ ε ι) : Prop where
  filters : after.filters = before.filters
  enterMap : after.enterMap = before.enterMap
  stashMap : after.stashMap.Valid program.maxStash
  lookup : ∀ other, after.stashMap.lookup other =
    if other = key then result.1 else before.stashMap.lookup other
  emitted : after.emitted = before.emitted ++ result.2.map (initEvent program task)

variable (state task enter info) in
theorem processed_emitOrStash (hvalid : state.stashMap.Valid program.maxStash)
    (hnone : state.stashMap.lookup (program.key enter.pid info) = none)
    (hfits : canEmit enter.startTime enter.endTime = false →
      state.stashMap.Fits program.maxStash (program.key enter.pid info)) :
    Processed program task (program.key enter.pid info)
      (Coalesce.openBatch canEmit (enter.stretch info)) state
      (emitOrStash program task enter info state) := by
  rw [emitOrStash, Coalesce.openBatch, Enter.stretch_start, Enter.stretch_stop]
  by_cases hemit : canEmit enter.startTime enter.endTime = true
  · rw [if_pos hemit, if_pos hemit]
    refine ⟨rfl, rfl, hvalid, fun other => ?_, rfl⟩
    split_ifs with heq
    · rw [heq]
      exact hnone
    · rfl
  · rw [if_neg hemit, if_neg hemit]
    refine ⟨rfl, rfl, hvalid.update, fun other => ?_, (List.append_nil _).symm⟩
    exact BpfMap.lookup_update (hfits (eq_false_of_ne_true hemit))

variable (task) in
theorem processed_processEvent (hvalid : state.stashMap.Valid program.maxStash)
    (hfits : canEmit enter.startTime enter.endTime = false →
      state.stashMap.Fits program.maxStash (program.key enter.pid info)) :
    Processed program task (program.key enter.pid info)
      (Coalesce.coalesce canEmit (state.stashMap.lookup (program.key enter.pid info))
        (enter.stretch info)) state (processEvent program task enter.pid enter info state) := by
  rw [processEvent]
  split
  case h_1 hlookup =>
      rw [hlookup, Coalesce.coalesce_none]
      exact processed_emitOrStash state task enter info hvalid hlookup hfits
  case h_2 stash hlookup =>
      have hfound : (state.stashMap.lookup (program.key enter.pid info)).isSome := by
        rw [hlookup]
        rfl
      rw [hlookup]
      by_cases hemit : canEmit stash.start enter.endTime = true
      · have hreaches : canEmit stash.start (enter.stretch info).stop = true := hemit
        rw [Coalesce.coalesce_of_reaches hreaches, if_pos hemit]
        have hdelete (other : κ) : (state.stashMap.delete (program.key enter.pid info)).lookup other =
            if other = program.key enter.pid info then none else state.stashMap.lookup other :=
          BpfMap.lookup_delete hvalid.nodup
        have hopen := processed_emitOrStash
          (deleteStash (program.key enter.pid info) (emitEvent program task stash state))
          task enter info hvalid.delete ((hdelete _).trans (if_pos rfl))
          fun _ => hvalid.fits_delete hfound _
        rcases hopened : Coalesce.openBatch canEmit (enter.stretch info) with ⟨waiting, out⟩
        rw [hopened] at hopen
        refine ⟨hopen.filters, hopen.enterMap, hopen.stashMap, fun other => ?_, ?_⟩
        · rw [hopen.lookup]
          split_ifs with heq
          · rfl
          · exact (hdelete other).trans (if_neg heq)
        · rw [hopen.emitted, List.map_cons]
          exact List.append_assoc state.emitted [initEvent program task stash] _
      · have hwithin : canEmit stash.start (enter.stretch info).stop = false :=
          eq_false_of_ne_true hemit
        rw [Coalesce.coalesce_of_within hwithin, if_neg hemit]
        exact ⟨rfl, rfl, hvalid.update, fun other => BpfMap.lookup_update (.inl hfound),
          (List.append_nil _).symm⟩

theorem Processed.sent {key : κ} {result : Option (Stash ι) × List (Stash ι)}
    {before after : State κ ε ι} (h : Processed program task key result before after)
    (hlabelled : ∀ stash ∈ result.2, program.key task.pid stash.info = key) (other : κ) :
    sent program after.emitted other =
      sent program before.emitted other ++ if other = key then result.2 else [] := by
  rw [Trace.sent, h.emitted, List.filter_append, List.map_append, ← Trace.sent]
  congr 1
  split_ifs with heq
  · rw [List.filter_eq_self.mpr, List.map_map]
    · exact List.map_id _
    · intro event hevent
      obtain ⟨stash, hstash, rfl⟩ := List.mem_map.mp hevent
      exact decide_eq_true ((hlabelled stash hstash).trans heq.symm)
  · rw [List.filter_eq_nil_iff.mpr, List.map_nil]
    intro event hevent
    obtain ⟨stash, hstash, rfl⟩ := List.mem_map.mp hevent
    simpa using fun heq' => heq (heq'.symm.trans (hlabelled stash hstash))

omit [DecidableEq κ] in
-- What goes out or waits behind a stretch is of its key.
theorem labelled_coalesce {pid : UInt32} (stretch : Stretch ι) {waiting : Option (Stash ι)}
    (hlabelled : ∀ stash ∈ waiting, program.key pid stash.info = program.key pid stretch.info) :
    (∀ stash ∈ (Coalesce.coalesce canEmit waiting stretch).1,
        program.key pid stash.info = program.key pid stretch.info) ∧
      ∀ stash ∈ (Coalesce.coalesce canEmit waiting stretch).2,
        program.key pid stash.info = program.key pid stretch.info :=
  Coalesce.forall_coalesce canEmit stretch hlabelled rfl fun stash hstash _ => hlabelled stash hstash

variable {traced : Traced κ ε ι} {process : Enter ε → State κ ε ι → State κ ε ι} {fill : ε → ι}
  {now : UInt64}

-- A thread stops being measured.
theorem Inv.lookup_delete (h : Inv program traced) (pid other : UInt32) :
    (traced.state.enterMap.delete pid).lookup other =
      (Function.update traced.since pid none other).map (Running.enter · other) := by
  rw [BpfMap.lookup_delete h.enterMap.nodup, Function.update_apply]
  split_ifs
  · rfl
  · exact h.measured.since_eq other

-- A stretch that is long enough.
theorem Inv.keep (h : Inv program traced) (enter : Enter ε) (henter : enter.pid = task.pid)
    (hfits : canEmit enter.startTime enter.endTime = false →
      traced.state.stashMap.Fits program.maxStash (program.key enter.pid info)) :
    let state := processEvent program task enter.pid enter info traced.state
    let key := program.key enter.pid info
    Inv program
      { state := { state with enterMap := state.enterMap.delete enter.pid }
        since := Function.update traced.since enter.pid none
        kept := Function.update traced.kept key (traced.kept key ++ [enter.stretch info]) } := by
  have hprocessed := processed_processEvent task h.stashMap hfits
  have hwaiting : ∀ stash ∈ traced.state.stashMap.lookup (program.key enter.pid info),
      program.key enter.pid stash.info = program.key enter.pid info := by
    intro stash hstash
    have hlabelled := h.labelled _ stash hstash
    rwa [program.owner_key] at hlabelled
  obtain ⟨hstays, hgoes⟩ := labelled_coalesce (enter.stretch info) hwaiting
  refine ⟨⟨fun pid => ?_, fun key => ?_⟩, ?_, hprocessed.stashMap, fun key stash hstash => ?_⟩
  · dsimp only
    rw [hprocessed.enterMap]
    exact h.lookup_delete enter.pid pid
  · have hcoalesced := h.measured.coalesced key
    dsimp only
    rw [hprocessed.lookup, hprocessed.sent (fun stash hstash => henter ▸ hgoes stash hstash),
      Function.update_apply]
    split_ifs with heq
    · rw [← heq]
      exact hcoalesced.step _
    · rwa [List.append_nil]
  · rw [hprocessed.enterMap]
    exact h.enterMap.delete
  · rw [hprocessed.lookup] at hstash
    split_ifs at hstash with heq
    · rw [heq, program.owner_key]
      exact hstays stash hstash
    · exact h.labelled key stash hstash

omit [DecidableEq κ] in
theorem probeExit_of_none (hlookup : state.enterMap.lookup task.pid = none) :
    probeExit process task.pid now state = state := by
  rw [probeExit, hlookup]

omit [DecidableEq κ] in
theorem probeExit_of_short (hlookup : state.enterMap.lookup task.pid = some enter)
    (hshort : now < enter.startTime + MIN_EXEC_DURATION) :
    probeExit process task.pid now state =
      { state with enterMap := state.enterMap.delete task.pid } := by
  rw [probeExit, hlookup]
  exact if_pos hshort

omit [DecidableEq κ] in
variable (process) in
theorem probeExit_of_long (hlookup : state.enterMap.lookup task.pid = some enter)
    (hlong : ¬ now < enter.startTime + MIN_EXEC_DURATION) :
    probeExit process task.pid now state =
      { process (enter.setEndTime now) state with
        enterMap := (process (enter.setEndTime now) state).enterMap.delete task.pid } := by
  rw [probeExit, hlookup]
  exact if_neg hlong

-- A stretch that does not count.
theorem Inv.drop (h : Inv program traced) (pid : UInt32) :
    Inv program
      { traced with
        state := { traced.state with enterMap := traced.state.enterMap.delete pid }
        since := Function.update traced.since pid none } :=
  ⟨⟨h.lookup_delete pid, h.measured.coalesced⟩, h.enterMap.delete, h.stashMap, h.labelled⟩

-- The end of a stretch.
theorem Inv.probeExit (h : Inv program traced)
    (hprocess : ∀ enter state, enter.pid = task.pid → process enter state =
      processEvent program task enter.pid enter (fill enter.ext) state)
    (hfits : ExitFits program task.pid fill now traced) :
    Inv program (traced.exit program process task.pid fill now) := by
  have hlookup := h.measured.since_eq task.pid
  rw [Traced.exit]
  rw [ExitFits] at hfits
  cases hsince : traced.since task.pid with
  | none =>
      have hstretch : traced.stretch task.pid fill now = none := by rw [Traced.stretch, hsince]; rfl
      rw [hsince] at hlookup
      rw [probeExit_of_none hlookup, hstretch, Function.update_eq_self_iff.mpr hsince.symm]
      exact h
  | some running =>
      rw [hsince, Option.map_some] at hlookup
      by_cases hshort : now < running.start + MIN_EXEC_DURATION
      · have hstretch : traced.stretch task.pid fill now = none := by
          rw [Traced.stretch, hsince, Option.bind_some, if_pos hshort]
        rw [probeExit_of_short hlookup hshort, hstretch]
        exact h.drop task.pid
      · have hstretch : traced.stretch task.pid fill now =
            some ⟨running.start, now, fill running.ext⟩ := by
          rw [Traced.stretch, hsince, Option.bind_some, if_neg hshort]
        rw [probeExit_of_long _ hlookup hshort, hprocess _ _ rfl, hstretch]
        exact h.keep ((running.enter task.pid).setEndTime now) rfl fun hwaits =>
          hfits _ hstretch hwaits

omit [DecidableEq κ] in
-- A thread is measured if it is enabled.
theorem probeEnter_eq (task : Task) (state : State κ ε ι) (now : UInt64) (ext : ε) :
    ∃ filters, probeEnter task ext now state =
      { state with
        filters
        enterMap :=
          if isEnabled state.filters task then
            state.enterMap.update MAX_SIZE_OF_THREAD task.pid
              { pid := task.pid, startTime := now, endTime := 0, ext }
          else state.enterMap } := by
  rw [probeEnter, isEnabled]
  cases isProcEnabled state.filters task.tgid with
  | false => exact ⟨state.filters, rfl⟩
  | true =>
      cases hthread : (isThrdEnabled state.filters task.pid task.tgid).1 with
      | false => exact ⟨(isThrdEnabled state.filters task.pid task.tgid).2, by simp [hthread]⟩
      | true => exact ⟨(isThrdEnabled state.filters task.pid task.tgid).2, by simp [hthread]⟩

-- The start of a stretch.
theorem Inv.probeEnter (h : Inv program traced) {ext : ε} (hfits : EnterFits task traced) :
    Inv program (traced.enter task ext now) := by
  obtain ⟨filters, heq⟩ := probeEnter_eq task traced.state now ext
  rw [Traced.enter, heq]
  rw [EnterFits] at hfits
  by_cases henabled : isEnabled traced.state.filters task = true
  · rw [if_pos henabled, if_pos henabled]
    refine ⟨⟨fun pid => ?_, h.measured.coalesced⟩, h.enterMap.update, h.stashMap, h.labelled⟩
    rw [BpfMap.lookup_update (hfits henabled)]
    dsimp only
    rw [Function.update_apply]
    split_ifs with hpid
    · rw [hpid]
      rfl
    · exact h.measured.since_eq pid
  · rw [if_neg henabled, if_neg henabled]
    exact ⟨⟨h.measured.since_eq, h.measured.coalesced⟩, h.enterMap, h.stashMap, h.labelled⟩

omit [DecidableEq κ] in
-- The parts of the state that `probeEnter` leaves alone.
theorem Traced.enter_kept (traced : Traced κ ε ι) (task : Task) (now : UInt64) (ext : ε) :
    (traced.enter task ext now).kept = traced.kept ∧
      (traced.enter task ext now).state.emitted = traced.state.emitted ∧
      (traced.enter task ext now).state.stashMap = traced.state.stashMap := by
  obtain ⟨filters, heq⟩ := probeEnter_eq task traced.state now ext
  rw [Traced.enter, heq]
  exact ⟨rfl, rfl, rfl⟩

-- A thread that finds no room is not measured.
theorem enterFits_of_measured {ext : ε} (h : Measured program (traced.enter task ext now)) :
    EnterFits task traced := by
  intro henabled
  by_contra hfits
  obtain ⟨filters, heq⟩ := probeEnter_eq task traced.state now ext
  have hsince := h.since_eq task.pid
  rw [Traced.enter, heq, if_pos henabled, if_pos henabled] at hsince
  dsimp only at hsince
  rw [BpfMap.update_of_not_fits hfits, BpfMap.lookup_of_not_fits hfits, Function.update_self]
    at hsince
  cases hsince

theorem processEvent_of_full (hwaits : canEmit enter.startTime enter.endTime = false)
    (hfits : ¬ state.stashMap.Fits program.maxStash (program.key enter.pid info)) :
    processEvent program task enter.pid enter info state = state := by
  rw [processEvent]
  split
  case h_1 hlookup =>
      rw [emitOrStash, if_neg (ne_true_of_eq_false hwaits), stashEvent]
      exact congrArg (fun stashMap => { state with stashMap }) (BpfMap.update_of_not_fits hfits)
  case h_2 stash hlookup =>
      rw [BpfMap.lookup_of_not_fits hfits] at hlookup
      cases hlookup

-- A stretch that finds no room is not counted.
theorem exitFits_of_coalesced (h : Inv program traced)
    (hprocess : ∀ enter state, enter.pid = task.pid → process enter state =
      processEvent program task enter.pid enter (fill enter.ext) state)
    (hafter : ∀ key, Coalesce.Coalesced canEmit
      ((traced.exit program process task.pid fill now).kept key)
      (sent program (traced.exit program process task.pid fill now).state.emitted key)
      ((traced.exit program process task.pid fill now).state.stashMap.lookup key)) :
    ExitFits program task.pid fill now traced := by
  intro stretch hstretch hwaits
  by_contra hfits
  have hlookup := h.measured.since_eq task.pid
  obtain ⟨running, hsince, hlong⟩ := Option.bind_eq_some_iff.mp hstretch
  split_ifs at hlong with hshort
  cases hlong
  rw [hsince, Option.map_some] at hlookup
  have hsame := probeExit_of_long process hlookup hshort
  have hfull : processEvent program task ((running.enter task.pid).setEndTime now).pid
      ((running.enter task.pid).setEndTime now)
      (fill ((running.enter task.pid).setEndTime now).ext) traced.state = traced.state :=
    processEvent_of_full hwaits hfits
  rw [hprocess _ _ rfl, hfull] at hsame
  have hbefore := (h.measured.coalesced (program.key task.pid (fill running.ext))).count_eq
  have hcount := (hafter (program.key task.pid (fill running.ext))).count_eq
  rw [Traced.exit, hsame, Option.mem_def.mp hstretch] at hcount
  dsimp only at hcount
  rw [Function.update_self, List.length_append, List.length_singleton, hbefore, Nat.cast_succ]
    at hcount
  exact absurd (left_eq_add.mp hcount) (by decide)

end Stretches

section OncpuRuns

-- Other programs and the user side write the filters.
inductive OncpuEvent
  | finishTaskSwitch (switch : TaskSwitch)
  | setFilters (filters : Filters)

abbrev OncpuTraced := Traced UInt32 Unit Unit

def OncpuTraced.offcpu (traced : OncpuTraced) (switch : TaskSwitch) : OncpuTraced :=
  Traced.exit oncpu (fun enter => processOncpuEvent enter switch.prev) switch.prev.pid (fun _ => ())
    switch.offTime traced

def oncpuStep (traced : OncpuTraced) : OncpuEvent → OncpuTraced
  | .finishTaskSwitch switch => (traced.offcpu switch).enter switch.current () switch.onTime
  | .setFilters filters => { traced with state := { traced.state with filters } }

-- The traced program runs as it would untraced.
theorem state_oncpuStep (traced : OncpuTraced) (switch : TaskSwitch) :
    (oncpuStep traced (.finishTaskSwitch switch)).state = finishTaskSwitch traced.state switch :=
  rfl

-- Both ends of a switch find room.
def OncpuFits (traced : OncpuTraced) : OncpuEvent → Prop
  | .finishTaskSwitch switch =>
      ExitFits oncpu switch.prev.pid (fun _ => ()) switch.offTime traced ∧
        EnterFits switch.current (traced.offcpu switch)
  | .setFilters _ => True

theorem inv_initial {κ ε ι : Type} [DecidableEq κ] (program : Program κ ι) (filters : Filters) :
    Inv program (Traced.initial filters : Traced κ ε ι) :=
  ⟨⟨fun _ => rfl, fun _ => Coalesce.coalesced_nil⟩, .nil, .nil, fun _ _ hstash => by cases hstash⟩

theorem processOncpuEvent_eq {task : Task} {enter : Enter Unit} (state : OncpuState)
    (henter : enter.pid = task.pid) :
    processOncpuEvent enter task state = processEvent oncpu task enter.pid enter () state := by
  rw [processOncpuEvent, henter]

variable {traced : OncpuTraced}

theorem inv_offcpu (h : Inv oncpu traced) {switch : TaskSwitch}
    (hfits : ExitFits oncpu switch.prev.pid (fun _ => ()) switch.offTime traced) :
    Inv oncpu (traced.offcpu switch) :=
  h.probeExit (fun _ state henter => processOncpuEvent_eq state henter) hfits

-- Over all switches and changes of the filters, the events and the stashes of the threads
-- account for the time that each was on a processor exactly if there is room for all of
-- them.
theorem oncpu_measured_iff (filters : Filters) (events : List OncpuEvent) :
    Throughout oncpuStep (Traced.initial filters) (fun _ traced => Measured oncpu traced) events ↔
      EachStep oncpuStep (Traced.initial filters) (fun _ traced event => OncpuFits traced event)
        events := by
  have hlegal : EachStep oncpuStep (Traced.initial filters) (fun _ _ _ => True) events :=
    fun _ _ _ _ => trivial
  refine throughout_iff_eachStep (fun _ traced => Inv oncpu traced) (inv_initial oncpu filters)
    (fun _ _ hinv => hinv.measured) ?_ ?_ hlegal
  · intro done traced event hinv _ hfits
    cases event with
    | finishTaskSwitch switch => exact (inv_offcpu hinv hfits.1).probeEnter hfits.2
    | setFilters filters => exact ⟨⟨hinv.measured.1, hinv.measured.2⟩, hinv.2, hinv.3, hinv.4⟩
  · intro done traced event hinv _ hafter
    cases event with
    | finishTaskSwitch switch =>
        obtain ⟨hkept, hemitted, hstash⟩ := Traced.enter_kept
          (OncpuTraced.offcpu traced switch) switch.current switch.onTime ()
        refine ⟨exitFits_of_coalesced hinv (fun _ state henter => processOncpuEvent_eq state henter)
          fun key => ?_, enterFits_of_measured hafter⟩
        have hcoalesced := hafter.coalesced key
        rwa [oncpuStep, hkept, hemitted, hstash] at hcoalesced
    | setFilters filters => trivial

end OncpuRuns

section SyscallRuns

inductive SyscallEvent
  | enter (task : Task) (ext : Int32) (now : UInt64)
  | exit (task : Task) (scm : SyscallMMeta) (stackid : Int32) (now : UInt64)
  | setFilters (filters : Filters)

abbrev SyscallTraced := Traced StashKey Int32 SyscallInfo

def syscallStep (traced : SyscallTraced) : SyscallEvent → SyscallTraced
  | .enter task ext now => traced.enter task ext now
  | .exit task scm stackid now =>
      Traced.exit syscall (fun sce => processSyscallEvent sce scm stackid task) task.pid
        (initSyscallData scm stackid) now traced
  | .setFilters filters => { traced with state := { traced.state with filters } }

theorem state_syscallStep (traced : SyscallTraced) (task : Task) (ext : Int32) (now : UInt64)
    (scm : SyscallMMeta) (stackid : Int32) :
    (syscallStep traced (.enter task ext now)).state =
        probeSyscallEnter task ext now traced.state ∧
      (syscallStep traced (.exit task scm stackid now)).state =
        probeSyscallExit task scm stackid now traced.state :=
  ⟨rfl, rfl⟩

def SyscallFits (traced : SyscallTraced) : SyscallEvent → Prop
  | .enter task _ _ => EnterFits task traced
  | .exit task scm stackid now => ExitFits syscall task.pid (initSyscallData scm stackid) now traced
  | .setFilters _ => True

-- The same of system calls, for each thread and each call.
theorem syscall_measured_iff (filters : Filters) (events : List SyscallEvent) :
    Throughout syscallStep (Traced.initial filters) (fun _ traced => Measured syscall traced)
        events ↔
      EachStep syscallStep (Traced.initial filters) (fun _ traced event => SyscallFits traced event)
        events := by
  have hlegal : EachStep syscallStep (Traced.initial filters) (fun _ _ _ => True) events :=
    fun _ _ _ _ => trivial
  refine throughout_iff_eachStep (fun _ traced => Inv syscall traced) (inv_initial syscall filters)
    (fun _ _ hinv => hinv.measured) ?_ ?_ hlegal
  · intro done traced event hinv _ hfits
    cases event with
    | enter task ext now => exact hinv.probeEnter hfits
    | exit task scm stackid now => exact hinv.probeExit (fun _ _ _ => rfl) hfits
    | setFilters filters => exact ⟨⟨hinv.measured.1, hinv.measured.2⟩, hinv.2, hinv.3, hinv.4⟩
  · intro done traced event hinv _ hafter
    cases event with
    | enter task ext now => exact enterFits_of_measured hafter
    | exit task scm stackid now =>
        exact exitFits_of_coalesced hinv (fun _ _ _ => rfl) hafter.coalesced
    | setFilters filters => trivial

end SyscallRuns

end Gopher.Profiling.Trace
