import Gopher.Lib.Run
import Mathlib.Data.Nat.Notation

namespace Gopher.StackProbe.Channel

def IPC_FLAGS_SNOOPER_CHG : UInt32 := 0x00000001
def IPC_FLAGS_PARAMS_CHG : UInt32 := 0x00000002
def PROBE_RANGE_ONCPU : UInt32 := 0x00000001
def PROBE_RANGE_OFFCPU : UInt32 := 0x00000002
def PROBE_RANGE_MEM : UInt32 := 0x00000004
def PROBE_RANGE_IO : UInt32 := 0x00000008

structure IpcBody where
  probeFlags : UInt32
  probeRangeFlags : UInt32

-- The part of struct stack_trace_s that says which channel is used. `convertMapFd`
-- tells whether the file descriptor of `convert_map` is known.
structure StackTrace where
  convertStackCount : UInt64
  isStackmapA : Bool
  convertMapFd : Bool
  deriving DecidableEq

-- The probe, and the counter in the pinned `convert_map` once a program has made that
-- map. `inSwitch` is true from a change of the counter to the update of the flag.
structure System where
  gSt : Option StackTrace
  convertMap : Option UInt64
  inSwitch : Bool
  stopped : Bool
  deriving DecidableEq

def System.initial : System :=
  { gSt := none, convertMap := none, inSwitch := false, stopped := false }

def createStackTrace : StackTrace :=
  let convertStackCount := 0
  { convertStackCount, isStackmapA := convertStackCount % 2 == 0, convertMapFd := false }

def updateConvertCounter (system : System) : System :=
  match system.gSt with
  | none => system
  | some st =>
      if st.convertMapFd then
        { system with convertMap := system.convertMap.map fun _ => st.convertStackCount }
      else system

def initConvertCounter (system : System) : System :=
  match system.gSt with
  | none => system
  | some st =>
      if st.convertMapFd then { system with convertMap := some st.convertStackCount } else system

-- The first program loaded makes `convert_map`, an array map of zeros; each later one
-- reuses the pinned map.
def loadBpfProg (system : System) : System :=
  { system with
    gSt := system.gSt.map fun st => { st with convertMapFd := true }
    convertMap := some (system.convertMap.getD 0) }

def isLoadProbe (loadType progType : UInt32) : Bool := loadType &&& progType ≠ 0

def flameProcs : List UInt32 :=
  [PROBE_RANGE_ONCPU, PROBE_RANGE_OFFCPU, PROBE_RANGE_MEM, PROBE_RANGE_IO]

def initEnabledSvgStackTraces (ipcBody : IpcBody) (system : System) : System :=
  flameProcs.foldl
    (fun system sw => if isLoadProbe ipcBody.probeRangeFlags sw then loadBpfProg system else system)
    system

def isParamsChg (ipcBody : IpcBody) : Bool :=
  ipcBody.probeFlags &&& IPC_FLAGS_PARAMS_CHG ≠ 0 ∨ ipcBody.probeFlags = 0

def isSnooperChg (ipcBody : IpcBody) : Bool :=
  ipcBody.probeFlags &&& IPC_FLAGS_SNOOPER_CHG ≠ 0 ∨ ipcBody.probeFlags = 0

-- `created` tells whether the object and its programs could be set up; the probe ends
-- when they could not.
def reloadProbeParams (ipcBody : IpcBody) (created : Bool) (system : System) : System :=
  if isParamsChg ipcBody then
    if created then
      initEnabledSvgStackTraces ipcBody
        { system with gSt := some createStackTrace, inSwitch := false }
    else { system with gSt := none, stopped := true }
  else system

def reloadObservationRange (ipcBody : IpcBody) (system : System) : System :=
  if isSnooperChg ipcBody then initConvertCounter system else system

def recvIpcMsg (ipcBody : IpcBody) (created : Bool) (system : System) : System :=
  let system := reloadProbeParams ipcBody created system
  if system.stopped then system else reloadObservationRange ipcBody system

-- `tmout` is what `is_tmout` returns.
def switchStackmap (tmout : Bool) (system : System) : System :=
  match system.gSt with
  | none => system
  | some st =>
      let st := { st with isStackmapA := st.convertStackCount % 2 == 0 }
      if tmout then
        let st := { st with convertStackCount := st.convertStackCount + 1 }
        updateConvertCounter { system with gSt := some st, inSwitch := true }
      else { system with gSt := some st, inSwitch := false }

-- What the main loop does: it handles a message, and it ticks.
inductive Action
  | recvIpcMsg (ipcBody : IpcBody) (created : Bool)
  | switchStackmap (tmout : Bool)

def step (system : System) (action : Action) : System :=
  if system.stopped then system
  else
    match action with
    | .recvIpcMsg ipcBody created => recvIpcMsg ipcBody created system
    | .switchStackmap tmout => switchStackmap tmout system

open Lib

-- The channel that a counter stands for.
def isEven (counter : UInt64) : Bool := counter % 2 == 0

-- Outside a switch, the probe reads the channel that the programs write.
def Agree (_ : List Action) (system : System) : Prop :=
  system.inSwitch = false → ∀ st ∈ system.gSt, ∀ counter ∈ system.convertMap,
    (st.isStackmapA = true ↔ counter % 2 = 0)

-- A program is loaded for the message.
def isSelected (ipcBody : IpcBody) : Bool := flameProcs.any (isLoadProbe ipcBody.probeRangeFlags)

-- A message that sets up a new object either writes the counter as well, or finds an
-- even one. A flag is updated with the counter of the map, which is that of the object
-- once a program is loaded.
def Allowed (_ : List Action) (system : System) : Action → Prop
  | .recvIpcMsg ipcBody created =>
      system.stopped = false → isParamsChg ipcBody = true → created = true →
        (isSnooperChg ipcBody = true ∧ isSelected ipcBody = true) ∨
          ∀ counter ∈ system.convertMap, counter % 2 = 0
  | .switchStackmap tmout =>
      system.stopped = false → tmout = false → ∀ st ∈ system.gSt, st.convertMapFd = true ∨
        ∀ counter ∈ system.convertMap, isEven counter = isEven st.convertStackCount

-- With the map at hand its counter stands for the channel of the object's own, and
-- outside a switch the flag and any counter in the map do.
structure Inv (system : System) : Prop where
  opened : ∀ st ∈ system.gSt, st.convertMapFd = true →
    ∃ counter, system.convertMap = some counter ∧
      isEven counter = isEven st.convertStackCount
  settled : system.inSwitch = false → ∀ st ∈ system.gSt,
    st.isStackmapA = isEven st.convertStackCount ∧
      ∀ counter ∈ system.convertMap, isEven counter = isEven st.convertStackCount

variable {system : System} {ipcBody : IpcBody} {done : List Action}

theorem isEven_iff {counter : UInt64} : isEven counter = true ↔ counter % 2 = 0 := by
  rw [isEven, beq_iff_eq]

theorem Inv.agree (h : Inv system) : Agree done system := by
  intro hout st hst counter hcounter
  obtain ⟨hflag, hmap⟩ := h.settled hout st hst
  rw [hflag, ← hmap counter hcounter]
  exact isEven_iff

theorem loadBpfProg_twice (system : System) :
    loadBpfProg (loadBpfProg system) = loadBpfProg system := by
  cases hst : system.gSt <;> simp [loadBpfProg, hst]

-- The programs of one message are one load, or none.
theorem initEnabledSvgStackTraces_eq (ipcBody : IpcBody) (system : System) :
    initEnabledSvgStackTraces ipcBody system =
      if isSelected ipcBody then loadBpfProg system else system := by
  rw [initEnabledSvgStackTraces, isSelected]
  induction flameProcs generalizing system with
  | nil => rfl
  | cons sw others ih =>
      rw [List.foldl_cons, ih, List.any_cons]
      by_cases hsw : isLoadProbe ipcBody.probeRangeFlags sw = true
      · simp [hsw, loadBpfProg_twice]
      · simp [hsw]

-- The state in which a message leaves a probe that it has set up anew.
theorem recvIpcMsg_created (hparams : isParamsChg ipcBody = true) (hrun : system.stopped = false) :
    recvIpcMsg ipcBody true system =
      { gSt := some { createStackTrace with convertMapFd := isSelected ipcBody }
        convertMap :=
          if isSelected ipcBody then
            some (if isSnooperChg ipcBody then 0 else system.convertMap.getD 0)
          else system.convertMap
        inSwitch := false
        stopped := false } := by
  have hreload : reloadProbeParams ipcBody true system =
      if isSelected ipcBody then
        loadBpfProg { system with gSt := some createStackTrace, inSwitch := false }
      else { system with gSt := some createStackTrace, inSwitch := false } := by
    rw [reloadProbeParams, if_pos hparams, if_pos rfl, initEnabledSvgStackTraces_eq]
  rw [recvIpcMsg, hreload]
  by_cases hselected : isSelected ipcBody = true <;>
    by_cases hsnooper : isSnooperChg ipcBody = true <;>
    simp [hselected, hsnooper, loadBpfProg, reloadObservationRange, initConvertCounter, hrun,
      createStackTrace]

theorem recvIpcMsg_failed (hparams : isParamsChg ipcBody = true) :
    recvIpcMsg ipcBody false system = { system with gSt := none, stopped := true } := by
  rw [recvIpcMsg, reloadProbeParams, if_pos hparams]
  rfl

-- A message that keeps the object writes its counter, or does nothing.
theorem recvIpcMsg_kept (created : Bool) (hparams : isParamsChg ipcBody = false)
    (hrun : system.stopped = false) :
    recvIpcMsg ipcBody created system = system ∨
      recvIpcMsg ipcBody created system = initConvertCounter system := by
  have hreload : reloadProbeParams ipcBody created system = system := by
    rw [reloadProbeParams, if_neg (by simp [hparams])]
  rw [recvIpcMsg, hreload, if_neg (by simp [hrun]), reloadObservationRange]
  split_ifs
  · exact .inr rfl
  · exact .inl rfl

theorem Inv.initConvertCounter (h : Inv system) : Inv (initConvertCounter system) := by
  rw [Channel.initConvertCounter.eq_def]
  split
  · exact h
  · rename_i st hst
    split_ifs with hfd
    · refine ⟨fun other hother _ => ?_, fun hout other hother => ?_⟩
      · rw [hst] at hother
        cases hother
        exact ⟨_, rfl, rfl⟩
      · refine ⟨(h.settled hout other hother).1, fun counter hcounter => ?_⟩
        rw [hst] at hother
        cases hother
        cases hcounter
        rfl
    · exact h

theorem isEven_createStackTrace : isEven createStackTrace.convertStackCount = true := rfl

theorem Inv.create (hparams : isParamsChg ipcBody = true) (hrun : system.stopped = false)
    (hallowed : (isSnooperChg ipcBody = true ∧ isSelected ipcBody = true) ∨
      ∀ counter ∈ system.convertMap, counter % 2 = 0) :
    Inv (recvIpcMsg ipcBody true system) := by
  have heven : ∀ counter ∈ (recvIpcMsg ipcBody true system).convertMap,
      isEven counter = isEven createStackTrace.convertStackCount := by
    intro counter hcounter
    rw [isEven_createStackTrace, isEven_iff]
    rw [recvIpcMsg_created hparams hrun] at hcounter
    dsimp only at hcounter
    split_ifs at hcounter with hselected hsnooper
    · cases hcounter
      rfl
    · rcases hallowed with ⟨hchg, -⟩ | hmap
      · exact absurd hchg hsnooper
      · cases hold : system.convertMap with
        | none =>
            rw [hold] at hcounter
            cases hcounter
            rfl
        | some old =>
            rw [hold] at hcounter
            cases hcounter
            exact hmap old hold
    · rcases hallowed with ⟨-, hload⟩ | hmap
      · exact absurd hload hselected
      · exact hmap counter hcounter
  constructor
  · intro st hst hfd
    rw [recvIpcMsg_created hparams hrun] at hst heven ⊢
    cases hst
    dsimp only at hfd heven ⊢
    rw [if_pos hfd] at heven ⊢
    exact ⟨_, rfl, heven _ rfl⟩
  · intro _ st hst
    have hcreated : st.convertStackCount = createStackTrace.convertStackCount ∧
        st.isStackmapA = createStackTrace.isStackmapA := by
      rw [recvIpcMsg_created hparams hrun] at hst
      cases hst
      exact ⟨rfl, rfl⟩
    rw [hcreated.1, hcreated.2]
    exact ⟨rfl, heven⟩

theorem Inv.recvIpcMsg (h : Inv system) (created : Bool) (hrun : system.stopped = false)
    (hallowed : isParamsChg ipcBody = true → created = true →
      (isSnooperChg ipcBody = true ∧ isSelected ipcBody = true) ∨
        ∀ counter ∈ system.convertMap, counter % 2 = 0) :
    Inv (recvIpcMsg ipcBody created system) := by
  cases hparams : isParamsChg ipcBody with
  | false =>
      rcases recvIpcMsg_kept created hparams hrun with heq | heq
      · rw [heq]
        exact h
      · rw [heq]
        exact h.initConvertCounter
  | true =>
      cases created with
      | false =>
          rw [recvIpcMsg_failed hparams]
          exact ⟨by simp, by simp⟩
      | true => exact Inv.create hparams hrun (hallowed hparams rfl)

-- A tick updates the flag.
theorem switchStackmap_flag {st : StackTrace} (hst : system.gSt = some st) :
    switchStackmap false system =
      { system with
        gSt := some { st with isStackmapA := isEven st.convertStackCount }
        inSwitch := false } := by
  rw [switchStackmap, hst]
  rfl

-- When the time is over, it then goes on to the next counter, and writes that to the map.
theorem switchStackmap_tmout {st : StackTrace} (hst : system.gSt = some st) :
    switchStackmap true system =
      { system with
        gSt := some { st with
          convertStackCount := st.convertStackCount + 1
          isStackmapA := isEven st.convertStackCount }
        convertMap :=
          if st.convertMapFd then system.convertMap.map fun _ => st.convertStackCount + 1
          else system.convertMap
        inSwitch := true } := by
  rw [switchStackmap, hst]
  cases hfd : st.convertMapFd <;> simp [updateConvertCounter, isEven, hfd]

theorem Inv.switchStackmap (h : Inv system) (tmout : Bool)
    (hallowed : tmout = false → ∀ st ∈ system.gSt, st.convertMapFd = true ∨
      ∀ counter ∈ system.convertMap, isEven counter = isEven st.convertStackCount) :
    Inv (switchStackmap tmout system) := by
  cases hst : system.gSt with
  | none =>
      rw [Channel.switchStackmap.eq_def, hst]
      exact h
  | some st =>
      cases tmout with
      | false =>
          rw [switchStackmap_flag hst]
          refine ⟨fun other hother hfd => ?_, fun _ other hother => ?_⟩
          · cases hother
            exact h.opened st hst hfd
          · cases hother
            refine ⟨rfl, fun counter hcounter => ?_⟩
            rcases hallowed rfl st hst with hfd | hmap
            · obtain ⟨known, hknown, heven⟩ := h.opened st hst hfd
              rw [Option.mem_def, hknown] at hcounter
              cases hcounter
              exact heven
            · exact hmap counter hcounter
      | true =>
          rw [switchStackmap_tmout hst]
          refine ⟨fun other hother hfd => ?_, fun hout => ?_⟩
          · cases hother
            dsimp only at hfd ⊢
            obtain ⟨known, hknown, -⟩ := h.opened st hst hfd
            rw [if_pos hfd, hknown]
            exact ⟨_, rfl, rfl⟩
          · cases hout

theorem Inv.step (h : Inv system) {action : Action} (hallowed : Allowed done system action) :
    Inv (step system action) := by
  unfold Channel.step
  split_ifs with hstopped
  · exact h
  · have hrun : system.stopped = false := by simpa using hstopped
    cases action with
    | recvIpcMsg ipcBody created => exact h.recvIpcMsg created hrun (hallowed hrun)
    | switchStackmap tmout => exact h.switchStackmap tmout (hallowed hrun)

-- Where a new object agrees with the map, the counter was written or was even.
theorem allowed_of_agree_recvIpcMsg (created : Bool)
    (hagree : Agree (done ++ [.recvIpcMsg ipcBody created])
      (step system (.recvIpcMsg ipcBody created))) :
    Allowed done system (.recvIpcMsg ipcBody created) := by
  rintro hrun hparams rfl
  by_cases hwritten : isSnooperChg ipcBody = true ∧ isSelected ipcBody = true
  · exact .inl hwritten
  · refine .inr fun counter hcounter => ?_
    rw [step, if_neg (by simp [hrun])] at hagree
    rw [recvIpcMsg_created hparams hrun] at hagree
    apply (hagree rfl _ rfl counter ?_).mp rfl
    dsimp only
    rw [Option.mem_def.mp hcounter]
    split_ifs with hselected hsnooper
    · exact absurd ⟨hsnooper, hselected⟩ hwritten
    · rfl
    · rfl

theorem allowed_of_agree_switchStackmap (tmout : Bool)
    (hagree : Agree (done ++ [.switchStackmap tmout]) (step system (.switchStackmap tmout))) :
    Allowed done system (.switchStackmap tmout) := by
  rintro hrun rfl st hst
  refine .inr fun counter hcounter => ?_
  rw [step, if_neg (by simp [hrun])] at hagree
  rw [switchStackmap_flag hst] at hagree
  have hsame := hagree rfl _ rfl counter hcounter
  dsimp only at hsame
  rw [← isEven_iff] at hsame
  exact (Bool.eq_iff_iff.mpr hsame).symm

-- The probe reads the channel that the programs write, exactly if every message that
-- sets up a new object writes the counter, too, or comes when the counter is even.
theorem channel_agree_iff (actions : List Action) :
    Throughout step System.initial Agree actions ↔
      EachStep step System.initial Allowed actions := by
  have hfirst : Inv System.initial := ⟨by simp [System.initial], by simp [System.initial]⟩
  have hlegal : EachStep step System.initial (fun _ _ _ => True) actions :=
    fun _ _ _ _ => trivial
  refine throughout_iff_eachStep (fun _ system => Inv system) hfirst (fun _ _ hinv => hinv.agree)
    ?_ ?_ hlegal
  · intro done system action hinv _ hallowed
    exact hinv.step hallowed
  · intro done system action _ _ hagree
    cases action with
    | recvIpcMsg ipcBody created => exact allowed_of_agree_recvIpcMsg created hagree
    | switchStackmap tmout => exact allowed_of_agree_switchStackmap tmout hagree

-- An odd number of switches, then a message with new parameters only.
theorem channel_params_only :
    ¬ ∀ actions, Throughout step System.initial Agree actions := by
  intro h
  have hlast := (h [.recvIpcMsg ⟨0, PROBE_RANGE_ONCPU⟩ true, .switchStackmap true,
    .switchStackmap false, .recvIpcMsg ⟨IPC_FLAGS_PARAMS_CHG, PROBE_RANGE_ONCPU⟩ true]).last
  have hflag := hlast (by decide) { createStackTrace with convertMapFd := true } (by decide) 1
    (by decide)
  exact absurd hflag (by decide)

end Gopher.StackProbe.Channel
