import Gopher.Lib.Run
import Mathlib.Data.Int.Notation

namespace Gopher.Probe

open Gopher.Lib

def PROBE_LKUP_PID_RETRY_MAX : ℕ := 2

-- The bits of `status_flags`.
structure StatusFlags where
  started : Bool
  stopped : Bool
  stopping : Bool
  running : Bool
  deriving DecidableEq, Repr

-- Where a probe thread stands. The thread of an extend probe passes through all
-- the points, that of a native probe through `spawned`, `marked`, `working` and `finished`.
inductive ThreadPc
  | spawned
  -- `popen` has returned
  | launched
  -- RUNNING is set
  | marked
  -- STOPPED is cleared and the process is being looked for
  | lookup (retry : ℕ)
  -- reading the output of the process, or inside `probe_entry`
  | working
  -- the output has ended
  | ended
  -- STOPPED is set
  | closing
  -- RUNNING is cleared
  | closed
  | finished
  deriving DecidableEq, Repr

structure Thread where
  pc : ThreadPc
  cancelled : Bool
  deriving DecidableEq, Repr

inductive Call
  | start
  | stop
  | keeplive
  deriving DecidableEq, Repr

-- The two that go through `try_start_probe`.
inductive Caller
  | start
  | keeplive
  deriving DecidableEq, Repr

def Caller.call : Caller → Call
  | start => .start
  | keeplive => .keeplive

-- The next step of the call that holds the manager's lock.
inductive Manager
  | idle
  | startReadRunning
  | startReadStopped
  | startReadStopping
  | startSetStarted
  | startUnsetStopping
  | tryReadRunning (caller : Caller)
  | tryReadStarted (caller : Caller)
  | tryReady (caller : Caller)
  | tryCreate (caller : Caller)
  | stopReadRunning
  | stopSetStopping
  | stopUnsetStarted
  | stopCancel
  | stopSetStopped
  | stopUnsetRunning
  | stopGetPid
  | stopJoin
  | stopClearPid
  | keepliveGetPid
  | keepliveValidPid
  | returning (call : Call) (ret : ℤ)
  deriving DecidableEq, Repr

-- `tid` is the index of the thread created last.
structure State where
  isExtend : Bool
  flags : StatusFlags
  isRestart : Bool
  pid : ℤ
  tid : Option ℕ
  threads : List Thread
  manager : Manager
  deriving DecidableEq, Repr

def newProbe (isExtend : Bool) : State where
  isExtend := isExtend
  flags := ⟨false, false, false, false⟩
  isRestart := false
  pid := -1
  tid := none
  threads := []
  manager := .idle

inductive Event
  | called (call : Call)
  | returned (call : Call) (ret : ℤ)
  -- the first read of `stop_probe` and of `try_start_probe`
  | stopReads (running : Bool)
  | tryReads (running : Bool)
  -- `pthread_create`, and the first step of a thread, `popen` for an extend probe
  | created
  | threadStarted
  | silent
  deriving DecidableEq, Repr

-- Who moves next, with the answer of the system where the code asks for one.
inductive Action
  | call (call : Call)
  | manager (ok : Bool)
  | thread (id : ℕ)
  -- `popen` gave a stream that is already at its end
  | popenAgain (id : ℕ)
  -- the `ps` command failed, or printed a number
  | lookup (id : ℕ) (found : Option ℤ)
  -- a cancelled thread comes to a cancellation point
  | die (id : ℕ)
  deriving DecidableEq, Repr

def callStep (state : State) (call : Call) : Option (Event × State) :=
  if state.manager = .idle then
    let first := match call with
      | .start => Manager.startReadRunning
      | .stop => .stopReadRunning
      | .keeplive => .keepliveGetPid
    some (.called call, { state with manager := first })
  else none

def goto (state : State) (manager : Manager) : Option (Event × State) :=
  some (.silent, { state with manager := manager })

def setFlags (state : State) (flags : StatusFlags) (manager : Manager) : Option (Event × State) :=
  some (.silent, { state with flags := flags, manager := manager })

def setRestart (state : State) (isRestart : Bool) (manager : Manager) : Option (Event × State) :=
  some (.silent, { state with isRestart := isRestart, manager := manager })

def pthreadCreate (state : State) (caller : Caller) : Option (Event × State) :=
  some (.created, { state with
    threads := state.threads ++ [⟨.spawned, false⟩]
    tid := some state.threads.length
    manager := .returning caller.call 0 })

def pthreadCancel (state : State) : Option (Event × State) :=
  let threads := match state.tid with
    | none => state.threads
    | some id => state.threads.modify id fun thread => { thread with cancelled := true }
  some (.silent, { state with threads := threads, manager := .stopSetStopped })

def isFinished (state : State) (tid : Option ℕ) : Bool :=
  match tid with
  | none => true
  | some id => (state.threads[id]?).all fun thread => thread.pc = .finished

-- One lock-protected step of the call under way.
def managerStep (state : State) (ok : Bool) : Option (Event × State) :=
  let flags := state.flags
  match state.manager with
  | .idle => none
  | .startReadRunning =>
      if flags.running then goto state (.returning .start 0)
      else setRestart state false .startReadStopped
  | .startReadStopped =>
      if flags.stopped then setRestart state true .startSetStarted
      else goto state .startReadStopping
  | .startReadStopping =>
      if flags.stopping then setRestart state true .startSetStarted
      else goto state .startSetStarted
  | .startSetStarted => setFlags state { flags with started := true } .startUnsetStopping
  | .startUnsetStopping =>
      setFlags state { flags with stopping := false } (.tryReadRunning .start)
  | .tryReadRunning caller =>
      some (.tryReads flags.running, { state with
        manager := if flags.running then .returning caller.call 0 else .tryReadStarted caller })
  | .tryReadStarted caller =>
      if flags.started then goto state (.tryReady caller) else goto state (.returning caller.call 0)
  | .tryReady caller =>
      if ok then goto state (.tryCreate caller) else goto state (.returning caller.call (-1))
  | .tryCreate caller =>
      if ok then pthreadCreate state caller else goto state (.returning caller.call (-1))
  | .stopReadRunning =>
      some (.stopReads flags.running, { state with
        manager := if flags.running then .stopSetStopping else .returning .stop 0 })
  | .stopSetStopping => setFlags state { flags with stopping := true } .stopUnsetStarted
  | .stopUnsetStarted =>
      setFlags state { flags with started := false }
        (if state.isExtend then .stopGetPid else .stopCancel)
  | .stopCancel => if ok then pthreadCancel state else goto state (.returning .stop (-1))
  | .stopSetStopped => setFlags state { flags with stopped := true } .stopUnsetRunning
  | .stopUnsetRunning => setFlags state { flags with running := false } .stopJoin
  | .stopGetPid =>
      if state.pid < 0 then goto state (.returning .stop (-1)) else goto state .stopJoin
  | .stopJoin => if isFinished state state.tid then goto state .stopClearPid else none
  | .stopClearPid =>
      some (.silent, { state with pid := -1, manager := .returning .stop 0 })
  | .keepliveGetPid =>
      if state.pid < 0 then goto state (.returning .keeplive 0) else goto state .keepliveValidPid
  | .keepliveValidPid =>
      if ok then goto state (.returning .keeplive 0) else goto state (.tryReadRunning .keeplive)
  | .returning call ret => some (.returned call ret, { state with manager := .idle })

def moveThread (state : State) (id : ℕ) (pc : ThreadPc) : State :=
  { state with threads := state.threads.modify id fun thread => { thread with pc := pc } }

def moveSetting (state : State) (id : ℕ) (flags : StatusFlags) (pc : ThreadPc) : State :=
  { moveThread state id pc with flags := flags }

-- The steps of `extend_probe_thread_cb` and `native_probe_thread_cb`.
def threadStep (state : State) (id : ℕ) : Option (Event × State) :=
  let flags := state.flags
  match (state.threads[id]?).map Thread.pc with
  | none => none
  | some .spawned =>
      if state.isExtend then some (.threadStarted, moveThread state id .launched)
      else some (.threadStarted, moveSetting state id { flags with running := true } .marked)
  | some .launched => some (.silent, moveSetting state id { flags with running := true } .marked)
  | some .marked =>
      some (.silent, moveSetting state id { flags with stopped := false }
        (if state.isExtend then .lookup 0 else .working))
  | some (.lookup _) => none
  -- the output of an extend probe ends with its process or is left when STOPPING
  -- is seen, and `probe_entry` may return
  | some .working =>
      some (.silent, moveThread state id (if state.isExtend then .ended else .finished))
  | some .ended => some (.silent, moveSetting state id { flags with stopped := true } .closing)
  | some .closing => some (.silent, moveSetting state id { flags with running := false } .closed)
  | some .closed => some (.silent, moveThread state id .finished)
  | some .finished => none

def popenAgainStep (state : State) (id : ℕ) : Option (Event × State) :=
  if state.isExtend ∧ (state.threads[id]?).map Thread.pc = some .spawned then
    some (.threadStarted, moveThread state id .spawned)
  else none

-- `lkup_and_set_probe_pid`, tried again while it fails.
def lookupStep (state : State) (id : ℕ) (found : Option ℤ) : Option (Event × State) :=
  match (state.threads[id]?).map Thread.pc with
  | some (.lookup retry) =>
      let next := if retry ≤ PROBE_LKUP_PID_RETRY_MAX then ThreadPc.lookup (retry + 1) else .working
      match found with
      | none => some (.silent, moveThread state id next)
      | some pid =>
          some (.silent, { moveThread state id (if 0 < pid then .working else next) with
            pid := pid })
  | _ => none

def dieStep (state : State) (id : ℕ) : Option (Event × State) :=
  if (state.threads[id]?).any fun thread => thread.cancelled then
    some (.silent, moveThread state id .finished)
  else none

def step (state : State) : Action → Option (Event × State)
  | .call call => callStep state call
  | .manager ok => managerStep state ok
  | .thread id => threadStep state id
  | .popenAgain id => popenAgainStep state id
  | .lookup id found => lookupStep state id found
  | .die id => dieStep state id

def Step (before : State) (event : Event) (after : State) : Prop :=
  ∃ action, step before action = some (event, after)

def Thread.live (thread : Thread) : Bool :=
  thread.pc != .finished

def liveThreads (state : State) : List Thread :=
  state.threads.filter Thread.live

-- The events that start a thread or a process of the probe.
def Event.starts : Event → Bool
  | created => true
  | threadStarted => true
  | _ => false

-- Once a stop has returned 0, nothing starts before the next `start_probe`.
def StopWins (events : List Event) : Prop :=
  ∀ before after, events = before ++ .returned .stop 0 :: after →
    .called .start ∉ after → ∀ event ∈ after, event.starts = false

-- RUNNING is the thread's own: it has set the flag and has not cleared it yet.
def ThreadPc.ownsRunning : ThreadPc → Bool
  | marked => true
  | lookup _ => true
  | working => true
  | ended => true
  | closing => true
  | _ => false

-- `stop_probe` does not come between the creation of a thread and its first
-- step, and where it finds RUNNING unset the probe is not marked as started.
def StopTimely (state : State) : Event → Prop
  | .stopReads running =>
      (∀ thread ∈ state.threads, thread.pc ≠ .spawned) ∧
        (running = false → state.flags.started = false)
  | _ => True

-- Where `try_start_probe` finds RUNNING unset, no thread is on its way to set
-- it, and none has cleared it without having finished.
def StartTimely (state : State) : Event → Prop
  | .tryReads false => ∀ thread ∈ liveThreads state, thread.pc.ownsRunning = true
  | _ => True

def Timely (condition : State → Event → Prop) (before : State) (event : Event) (after : State) :
    Prop :=
  Step before event after ∧ condition before event

end Gopher.Probe
