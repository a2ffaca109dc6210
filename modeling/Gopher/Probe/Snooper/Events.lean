import Gopher.Lib.Run
import Gopher.Lib.Slots
import Gopher.Probe.Config
import Gopher.Probe.PodMng
import Mathlib.Algebra.Group.Int.Defs
import Mathlib.Data.List.DropRight

namespace Gopher.Probe.Snooper

open Gopher.Lib Gopher.Ipc Gopher.Probe.Config Gopher.Probe.PodMng

abbrev SnooperObjs := Slots SNOOPER_MAX SnooperObj

-- The array while objects are put into its idle slots.
abbrev Filling := Slots.Filling SNOOPER_MAX SnooperObj

-- What `/proc` shows to one scan, by the names of its entries. `readdir` is `none`
-- when the directory cannot be opened.
structure ProcDir where
  readdir : Option (List Text)
  readProcComm : Text → Option Text
  readProcCmdline : Text → Option Text
  getContainerIdByPidCpuset : Text → Text

-- What the system answers to a generator or to an event. A generator may scan `/proc`
-- several times.
structure Env extends PodMng.Env where
  regexec : Text → Text → Bool
  getContainerPodId : Text → Text
  procDir : ℕ → ProcDir

structure SnoopedProbe where
  snooperConfs : SnooperConfs
  snooperObjs : SnooperObjs
  isParamsChg : Bool
  isSnooperChg : Bool

structure SnooperMng where
  pods : Pods
  probes : ProbeType → Option SnoopedProbe

def isSpace (char : Char) : Bool :=
  [' ', '\t', '\n', '\x0b', '\x0c', '\r'].contains char

def decimalValue (digits : Text) : ℕ :=
  digits.foldl (fun value digit => 10 * value + (digit.toNat - '0'.toNat)) 0

-- `(u32)atoi(text)`, with the clamp of `strtol`.
def atoi (text : Text) : UInt32 :=
  match text.dropWhile isSpace with
  | '-' :: digits => UInt32.ofInt (-min (decimalValue (digits.takeWhile Char.isDigit)) (2 ^ 63))
  | '+' :: digits => UInt32.ofInt (min (decimalValue (digits.takeWhile Char.isDigit)) (2 ^ 63 - 1))
  | digits => UInt32.ofInt (min (decimalValue (digits.takeWhile Char.isDigit)) (2 ^ 63 - 1))

def strdup (text : Text) : CharPtr :=
  some (text.map (fun char => UInt8.ofNat char.toNat) ++ [0])

def chkSnooperPattern (env : Env) (confPattern target : Text) : Bool :=
  !target.isEmpty && !confPattern.isEmpty && env.regexec confPattern target

def chkCmdlineMatched (dir : ProcDir) (cmdline : Option Text) (pid : Text) : Bool :=
  match cmdline with
  | none => true
  | some cmdline => (dir.readProcCmdline pid).any fun buf => cmdline <:+: buf

def addSnooperObjProcid (malloc : ℕ → Bool) (procId : UInt32) : Filling → Filling × Bool :=
  Slots.add malloc (.proc procId)

-- Only `set_con_info` sets `pod_info_ptr`, and it fills the id as well.
def podInfoPtr (podInfo : PodInfo) (conInfo : ConInfo) : Option PodInfo :=
  if conInfo.conId = [] then none else some podInfo

def snooperConInfo (podInfo : PodInfo) (conInfo : ConInfo) : SnooperConInfo where
  flags := conInfo.flags
  cpucgInode := conInfo.cpucgInode
  conId := strdup conInfo.conId
  containerName := strdup conInfo.containerName
  libcPath := strdup conInfo.libcPath
  libsslPath := strdup conInfo.libsslPath
  podId := (podInfoPtr podInfo conInfo).bind fun podInfo => strdup podInfo.podId
  podIpStr := (podInfoPtr podInfo conInfo).bind fun podInfo => strdup podInfo.podIpStr

def addSnooperObjConInfo (malloc : ℕ → Bool) (podInfo : PodInfo) (conInfo : ConInfo) :
    Filling → Filling × Bool :=
  Slots.add malloc (.con (snooperConInfo podInfo conInfo))

def snooperGaussdb (ip dbname usr pass : Option Text) (port : UInt32) : SnooperGaussdb where
  port := port
  ip := ip.bind strdup
  dbname := dbname.bind strdup
  usr := usr.bind strdup
  pass := pass.bind strdup

def addSnooperObjGaussdb (malloc : ℕ → Bool) (ip dbname usr pass : Option Text) (port : UInt32) :
    Filling → Filling × Bool :=
  Slots.add malloc (.gaussdb (snooperGaussdb ip dbname usr pass port))

-- The loop over the entries of `/proc`, which two generators have. No entry is skipped
-- for its name: `!__is_proc_dir(...)` is 0 or 1 and is compared with -1.
def scanProc (malloc : ℕ → Bool) (dir : ProcDir) (matched : Text → Bool) (filling : Filling) :
    Filling × Bool :=
  match dir.readdir with
  | none => (filling, false)
  | some names =>
      (names.foldl (fun filling name =>
        if matched name then (addSnooperObjProcid malloc (atoi name) filling).1 else filling)
        filling, true)

def procnameMatched (env : Env) (dir : ProcDir) (comm : Text) (cmdline : Option Text)
    (name : Text) : Bool :=
  match dir.readProcComm name with
  | none => false
  | some procComm => chkSnooperPattern env comm procComm && chkCmdlineMatched dir cmdline name

def genSnooperByProcname (malloc : ℕ → Bool) (env : Env) (comm : Text) (cmdline : Option Text)
    (filling : Filling) : Filling × Bool :=
  let dir := env.procDir 0
  scanProc malloc dir (procnameMatched env dir comm cmdline) filling

def genSnooperByProcid (malloc : ℕ → Bool) (procId : UInt32) (filling : Filling) :
    Filling × Bool :=
  addSnooperObjProcid malloc procId filling

-- `__gen_snooper_by_container`, whose result the callers ignore.
def genProcsByContainer (malloc : ℕ → Bool) (dir : ProcDir) (targetContainerId : Text)
    (filling : Filling) : Filling :=
  (scanProc malloc dir
    (fun name => dir.getContainerIdByPidCpuset name = targetContainerId) filling).1

def genSnooperByContainer (malloc : ℕ → Bool) (env : Env) (containerId : Text) (pods : Pods)
    (filling : Filling) : Pods × Filling × Bool :=
  if containerId = [] then (pods, filling, true)
  else
    match getAndAddConInfo env.toEnv pods FAKE_POD_ID containerId with
    | (pods, none) => (pods, filling, false)
    | (pods, some (podInfo, conInfo)) =>
        let filling := genProcsByContainer malloc (env.procDir 0) conInfo.conId filling
        (pods, addSnooperObjConInfo malloc podInfo conInfo filling)

-- The containers in the order they were added, each with the number of its scan.
def podContainers (podInfo : PodInfo) : List (Container × ℕ) := podInfo.conHead.reverse.zipIdx

def genSnooperByPod (malloc : ℕ → Bool) (env : Env) (podId : Text) (pods : Pods)
    (filling : Filling) : Pods × Filling × Bool :=
  match getAndAddPodInfo env.toEnv pods podId with
  | (pods, none) => (pods, filling, false)
  | (pods, some podInfo) =>
      (pods, (podContainers podInfo).foldl (fun filling con =>
        let filling := genProcsByContainer malloc (env.procDir con.2) con.1.conInfo.conId filling
        (addSnooperObjConInfo malloc podInfo con.1.conInfo filling).1) filling, true)

-- The table `snooper_generators`. The last part is whether the generator returns 0.
def snooperGenerator (malloc : ℕ → Bool) (env : Env) (conf : SnooperConf) (pods : Pods)
    (filling : Filling) : Pods × Filling × Bool :=
  match conf with
  | .app comm cmdline _ => (pods, genSnooperByProcname malloc env comm cmdline filling)
  | .gaussdb ip dbname usr pass port =>
      (pods, addSnooperObjGaussdb malloc ip dbname usr pass port filling)
  | .procId procId => (pods, genSnooperByProcid malloc procId filling)
  | .podId podId => genSnooperByPod malloc env podId pods filling
  | .containerId containerId => genSnooperByContainer malloc env containerId pods filling

-- One configuration after the other, up to the first whose generator fails.
def generateObjs (malloc : ℕ → Bool) : (ℕ → Env) → SnooperConfs → Pods → Filling → Pods × Filling
  | _, [], pods, filling => (pods, filling)
  | env, conf :: confs, pods, filling =>
      match snooperGenerator malloc (env 0) conf pods filling with
      | (pods, filling, false) => (pods, filling)
      | (pods, filling, true) => generateObjs malloc (fun i => env (i + 1)) confs pods filling

def refreshSnooperObj (malloc : ℕ → Bool) (env : ℕ → Env) (pods : Pods) (probe : SnoopedProbe) :
    Pods × SnoopedProbe :=
  let (pods, filling) := generateObjs malloc env probe.snooperConfs pods ⟨Slots.empty, 0⟩
  (pods, { probe with snooperObjs := filling.slots })

-- What was changed is sent on.
def SnoopedProbe.changed (probe : SnoopedProbe) (snooperObjs : SnooperObjs) : SnoopedProbe :=
  { probe with snooperObjs := snooperObjs, isParamsChg := false, isSnooperChg := true }

-- The loop of an event over the configurations of a probe, with an addition for each
-- that matches. The second part is `snooper_obj_added`, which is set even when nothing
-- could be added.
def addMatching (matched : SnooperConf → Bool) (add : Filling → Filling × Bool)
    (probe : SnoopedProbe) : Filling × Bool :=
  (probe.snooperConfs.take SNOOPER_MAX).foldl (fun (filling, added) conf =>
    if matched conf then ((add filling).1, true) else (filling, added))
    (⟨probe.snooperObjs, 0⟩, false)

def addedByEvent (matched : SnooperConf → Bool) (add : Filling → Filling × Bool)
    (probe : SnoopedProbe) : SnoopedProbe :=
  match addMatching matched add probe with
  | (filling, true) => probe.changed filling.slots
  | (_, false) => probe

def removedByEvent (chosen : SnooperObj → Bool) (probe : SnoopedProbe) : SnoopedProbe :=
  if (List.finRange SNOOPER_MAX).any fun pos => (probe.snooperObjs pos).any chosen then
    probe.changed (Slots.release chosen probe.snooperObjs)
  else probe

def eachProbe (change : ProbeType → SnoopedProbe → SnoopedProbe)
    (probes : ProbeType → Option SnoopedProbe) : ProbeType → Option SnoopedProbe :=
  fun type => (probes type).map (change type)

-- Which configurations a started process matches. Its id is printed by `%d`.
def execMatched (env : Env) (comm : Text) (procId : UInt32) (containerId podId : Text) :
    SnooperConf → Bool
  | .app confComm cmdline _ => chkSnooperPattern env confComm comm &&
      chkCmdlineMatched (env.procDir 0) cmdline (formatInt (toInt procId.toNat))
  | .containerId confId => !containerId.isEmpty && sameIgnoringCase containerId confId
  | .podId confId => !podId.isEmpty && sameIgnoringCase podId confId
  | _ => false

def rcvSnooperProcExec (malloc : ProbeType → ℕ → Bool) (env : Env) (comm : Text)
    (procId : UInt32) (mng : SnooperMng) : SnooperMng :=
  let containerId := (env.procDir 0).getContainerIdByPidCpuset (formatInt procId.toNat)
  let podId := if containerId = [] then [] else env.getContainerPodId containerId
  { mng with
    probes := eachProbe (fun type => addedByEvent (execMatched env comm procId containerId podId)
      (addSnooperObjProcid (malloc type) procId)) mng.probes }

def isProcObj (procId : UInt32) (obj : SnooperObj) : Bool := obj = .proc procId

def rcvSnooperProcExit (procId : UInt32) (mng : SnooperMng) : SnooperMng :=
  { mng with probes := eachProbe (fun _ => removedByEvent (isProcObj procId)) mng.probes }

-- The name after the last slash, in an array of TASK_COMM_LEN bytes.
def commOfFilename (filename : Text) : Text :=
  truncated TASK_COMM_LEN (filename.rtakeWhile (· ≠ '/'))

def cgrpMatched (podInfo : PodInfo) (conInfo : ConInfo) : SnooperConf → Bool
  | .podId confId => !podInfo.podId.isEmpty && sameIgnoringCase podInfo.podId confId
  | .containerId confId => !conInfo.conId.isEmpty && sameIgnoringCase conInfo.conId confId
  | _ => false

def rcvSnooperCgrpExec (malloc : ProbeType → ℕ → Bool) (podId conId : Text) (mng : SnooperMng) :
    SnooperMng :=
  match getConInfo mng.pods podId conId with
  | none => mng
  | some (podInfo, conInfo) =>
      if (podInfoPtr podInfo conInfo).isNone then mng
      else { mng with
        probes := eachProbe (fun type => addedByEvent (cgrpMatched podInfo conInfo)
          (addSnooperObjConInfo (malloc type) podInfo conInfo)) mng.probes }

def isConObj (conId : Text) : SnooperObj → Bool
  | .con info => info.conId = strdup conId
  | _ => false

def rcvSnooperCgrpExit (conId : Text) (mng : SnooperMng) : SnooperMng :=
  { mng with probes := eachProbe (fun _ => removedByEvent (isConObj conId)) mng.probes }

-- The ids of a cgroup event are the ones read from its path. A refresh finds the
-- configurations that were just parsed.
inductive SnooperAction
  | refresh (type : ProbeType) (confs : SnooperConfs) (malloc : ℕ → Bool) (env : ℕ → Env)
  | exec (malloc : ProbeType → ℕ → Bool) (env : Env) (filename : Text) (procId : UInt32)
  | exit (procId : UInt32)
  | cgrpMk (malloc : ProbeType → ℕ → Bool) (env : PodMng.Env) (podId conId : Text) (idRet : IdRet)
  | cgrpRm (podId conId : Text) (idRet : IdRet)

def step (mng : SnooperMng) : SnooperAction → SnooperMng
  | .refresh type confs malloc env =>
      match mng.probes type with
      | none => mng
      | some probe =>
          let (pods, probe) :=
            refreshSnooperObj malloc env mng.pods { probe with snooperConfs := confs }
          { mng with pods := pods, probes := Function.update mng.probes type (some probe) }
  | .exec malloc env filename procId =>
      rcvSnooperProcExec malloc env (commOfFilename filename) procId mng
  | .exit procId => rcvSnooperProcExit procId mng
  | .cgrpMk malloc env podId conId idRet =>
      if idRet = .failed then mng
      else
        let mng := { mng with pods := addPodConMap env mng.pods podId conId idRet }
        if idRet = .conPod ∨ idRet = .conOnly then rcvSnooperCgrpExec malloc podId conId mng
        else mng
  | .cgrpRm podId conId idRet =>
      if idRet = .failed then mng
      else
        let mng := { mng with pods := delPodConMap mng.pods podId conId idRet }
        if idRet = .conPod ∨ idRet = .conOnly then rcvSnooperCgrpExit conId mng else mng

-- The probes that are registered, before anything is snooped.
def startMng (registered : ProbeType → Bool) : SnooperMng where
  pods := []
  probes := fun type => if registered type then some ⟨[], Slots.empty, false, false⟩ else none

-- The process that a PROC object is for.
def procKey : SnooperObj → Option UInt32
  | .proc procId => some procId
  | _ => none

-- No array has two PROC objects for one process.
def SnoopedOnce (mng : SnooperMng) : Prop :=
  ∀ type probe, mng.probes type = some probe → Slots.Unique procKey probe.snooperObjs

-- Some array has a PROC object for the process.
def Snooped (mng : SnooperMng) (procId : UInt32) : Prop :=
  ∃ type probe, mng.probes type = some probe ∧ Slots.Holds procKey probe.snooperObjs procId

section Requests

abbrev Request := Slots.Request SnooperObj

def optional (obj : SnooperObj) : Request := ⟨obj, false⟩
def vital (obj : SnooperObj) : Request := ⟨obj, true⟩

def scanRequests (dir : ProcDir) (matched : Text → Bool) : List Request :=
  ((dir.readdir.getD []).filter matched).map fun name => optional (.proc (atoi name))

def containerRequests (dir : ProcDir) (targetContainerId : Text) : List Request :=
  scanRequests dir fun name => dir.getContainerIdByPidCpuset name = targetContainerId

-- The objects a configuration asks for, in the order its generator adds them.
def confRequests (env : Env) (pods : Pods) : SnooperConf → List Request
  | .app comm cmdline _ =>
      scanRequests (env.procDir 0) (procnameMatched env (env.procDir 0) comm cmdline)
  | .gaussdb ip dbname usr pass port => [vital (.gaussdb (snooperGaussdb ip dbname usr pass port))]
  | .procId procId => [vital (.proc procId)]
  | .podId podId =>
      match (getAndAddPodInfo env.toEnv pods podId).2 with
      | none => []
      | some podInfo => (podContainers podInfo).flatMap fun con =>
          containerRequests (env.procDir con.2) con.1.conInfo.conId ++
            [optional (.con (snooperConInfo podInfo con.1.conInfo))]
  | .containerId containerId =>
      if containerId = [] then []
      else
        match (getAndAddConInfo env.toEnv pods FAKE_POD_ID containerId).2 with
        | none => []
        | some (podInfo, conInfo) =>
            containerRequests (env.procDir 0) conInfo.conId ++
              [vital (.con (snooperConInfo podInfo conInfo))]

-- The generator fails whatever it could add.
def confRefused (env : Env) (pods : Pods) : SnooperConf → Bool
  | .app _ _ _ => (env.procDir 0).readdir.isNone
  | .podId podId => (getAndAddPodInfo env.toEnv pods podId).2.isNone
  | .containerId containerId => !containerId.isEmpty &&
      (getAndAddConInfo env.toEnv pods FAKE_POD_ID containerId).2.isNone
  | _ => false

def podsAfter (env : Env) (pods : Pods) : SnooperConf → Pods
  | .podId podId => (getAndAddPodInfo env.toEnv pods podId).1
  | .containerId containerId => if containerId = [] then pods
      else (getAndAddConInfo env.toEnv pods FAKE_POD_ID containerId).1
  | _ => pods

def refreshRequests : (ℕ → Env) → SnooperConfs → Pods → List Request
  | _, [], _ => []
  | env, conf :: confs, pods => confRequests (env 0) pods conf ++
      if confRefused (env 0) pods conf then []
      else refreshRequests (fun i => env (i + 1)) confs (podsAfter (env 0) pods conf)

-- One object for each configuration that matches an event.
def eventRequests (matched : SnooperConf → Bool) (obj : SnooperObj) (probe : SnoopedProbe) :
    List Request :=
  ((probe.snooperConfs.take SNOOPER_MAX).filter matched).map fun _ => optional obj

def execRequests (env : Env) (filename : Text) (procId : UInt32) (probe : SnoopedProbe) :
    List Request :=
  let containerId := (env.procDir 0).getContainerIdByPidCpuset (formatInt procId.toNat)
  let podId := if containerId = [] then [] else env.getContainerPodId containerId
  eventRequests (execMatched env (commOfFilename filename) procId containerId podId)
    (.proc procId) probe

-- The PROC objects an action adds, those of the requests that get a slot and memory,
-- are for processes the array has no object of, and for different ones.
def AddsFresh (mng : SnooperMng) : SnooperAction → Prop
  | .refresh type confs malloc env => (mng.probes type).isSome →
      Slots.Fresh procKey (Slots.empty : SnooperObjs)
        (Slots.granted malloc 0 SNOOPER_MAX (refreshRequests env confs mng.pods))
  | .exec malloc env filename procId => ∀ type probe, mng.probes type = some probe →
      Slots.Fresh procKey probe.snooperObjs (Slots.granted (malloc type) 0
        (Slots.idleCount probe.snooperObjs) (execRequests env filename procId probe))
  | _ => True

end Requests

section Generators

variable {malloc : ℕ → Bool} {dir : ProcDir} {matched : Text → Bool} {filling : Filling}

theorem scanRequests_optional : ∀ request ∈ scanRequests dir matched, request.vital = false := by
  intro request hrequest
  obtain ⟨name, -, rfl⟩ := List.mem_map.mp hrequest
  rfl

theorem addAll_scanRequests :
    Slots.addAll malloc (scanRequests dir matched) filling =
      ((scanProc malloc dir matched filling).1, true) := by
  rw [Slots.addAll_optional _ scanRequests_optional]
  unfold scanProc scanRequests
  cases dir.readdir with
  | none => rfl
  | some names =>
      simp only [Option.getD_some, List.foldl_map, List.foldl_filter]
      rfl

theorem scanProc_ok (malloc : ℕ → Bool) (dir : ProcDir) (matched : Text → Bool) (filling : Filling) :
    (scanProc malloc dir matched filling).2 = dir.readdir.isSome := by
  unfold scanProc
  cases dir.readdir <;> rfl

theorem addAll_single (request : Request) :
    Slots.addAll malloc [request] filling =
      ((Slots.add malloc request.entry filling).1,
        (Slots.add malloc request.entry filling).2 || !request.vital) := by
  rw [Slots.addAll]
  rcases Slots.add malloc request.entry filling with ⟨next, added⟩
  cases added with
  | true => rfl
  | false => cases request.vital <;> simp [Slots.addAll]

theorem addAll_vital (obj : SnooperObj) :
    Slots.addAll malloc [vital obj] filling = Slots.add malloc obj filling := by
  rw [addAll_single]
  exact Prod.ext rfl (Bool.or_false _)

theorem addAll_container (obj : Request) (conId : Text) :
    Slots.addAll malloc (containerRequests dir conId ++ [obj]) filling =
      Slots.addAll malloc [obj] (genProcsByContainer malloc dir conId filling) := by
  rw [Slots.addAll_append, containerRequests, addAll_scanRequests]
  rfl

theorem addAll_pod (env : Env) (podInfo : PodInfo) (cons : List (Container × ℕ)) (filling : Filling) :
    Slots.addAll malloc (cons.flatMap fun con =>
        containerRequests (env.procDir con.2) con.1.conInfo.conId ++
          [optional (.con (snooperConInfo podInfo con.1.conInfo))]) filling =
      (cons.foldl (fun filling con =>
        (addSnooperObjConInfo malloc podInfo con.1.conInfo
          (genProcsByContainer malloc (env.procDir con.2) con.1.conInfo.conId filling)).1) filling,
        true) := by
  induction cons generalizing filling with
  | nil => rfl
  | cons con cons ih =>
      have hoptional (obj : SnooperObj) (added : Bool) :
          (added || !(optional obj).vital) = true := Bool.or_true _
      rw [List.flatMap_cons, Slots.addAll_append, addAll_container, addAll_single, hoptional,
        List.foldl_cons]
      exact ih _

-- A generator adds what its configuration asks for.
theorem snooperGenerator_eq (env : Env) (conf : SnooperConf) (pods : Pods) :
    snooperGenerator malloc env conf pods filling =
      (podsAfter env pods conf,
        (Slots.addAll malloc (confRequests env pods conf) filling).1,
        (Slots.addAll malloc (confRequests env pods conf) filling).2 &&
          !confRefused env pods conf) := by
  cases conf with
  | app comm cmdline debugingDir =>
      have hok := scanProc_ok malloc (env.procDir 0)
        (procnameMatched env (env.procDir 0) comm cmdline) filling
      simp only [snooperGenerator, genSnooperByProcname, podsAfter, confRequests, confRefused,
        addAll_scanRequests, Option.not_isNone, Bool.true_and]
      rw [← hok]
  | gaussdb ip dbname usr pass port =>
      simp only [snooperGenerator, addSnooperObjGaussdb, podsAfter, confRequests, confRefused,
        addAll_vital, Bool.not_false, Bool.and_true]
  | procId procId =>
      simp only [snooperGenerator, genSnooperByProcid, addSnooperObjProcid, podsAfter,
        confRequests, confRefused, addAll_vital, Bool.not_false, Bool.and_true]
  | podId podId =>
      simp only [snooperGenerator, genSnooperByPod, podsAfter, confRequests, confRefused]
      rcases getAndAddPodInfo env.toEnv pods podId with ⟨pods', podInfo⟩
      cases podInfo with
      | none => rfl
      | some podInfo =>
          simp only [addAll_pod, Option.isNone_some, Bool.not_false, Bool.and_true]
  | containerId containerId =>
      simp only [snooperGenerator, genSnooperByContainer, podsAfter, confRequests, confRefused]
      by_cases hempty : containerId = []
      · subst hempty
        rfl
      · have hnonempty : containerId.isEmpty = false := by simpa using hempty
        simp only [if_neg hempty, hnonempty]
        rcases getAndAddConInfo env.toEnv pods FAKE_POD_ID containerId with ⟨pods', conInfo⟩
        cases conInfo with
        | none => rfl
        | some conInfo =>
            simp only [addAll_container, addAll_vital, addSnooperObjConInfo, Option.isNone_some,
              Bool.and_false, Bool.not_false, Bool.and_true]

theorem generateObjs_eq (env : ℕ → Env) (confs : SnooperConfs) (pods : Pods) (filling : Filling) :
    (generateObjs malloc env confs pods filling).2 =
      (Slots.addAll malloc (refreshRequests env confs pods) filling).1 := by
  induction confs generalizing env pods filling with
  | nil => rfl
  | cons conf confs ih =>
      rw [generateObjs, snooperGenerator_eq, refreshRequests, Slots.addAll_append]
      rcases Slots.addAll malloc (confRequests (env 0) pods conf) filling with ⟨next, done⟩
      cases done with
      | false => rfl
      | true =>
          cases confRefused (env 0) pods conf with
          | true => rfl
          | false => exact ih _ _ next

end Generators

section Step

variable {malloc : ℕ → Bool} {probe : SnoopedProbe} {mng : SnooperMng}

theorem unique_refresh (malloc : ℕ → Bool) (env : ℕ → Env) (pods : Pods) (probe : SnoopedProbe) :
    Slots.Unique procKey (refreshSnooperObj malloc env pods probe).2.snooperObjs ↔
      Slots.Fresh procKey (Slots.empty : SnooperObjs)
        (Slots.granted malloc 0 SNOOPER_MAX (refreshRequests env probe.snooperConfs pods)) := by
  have hobjs : (refreshSnooperObj malloc env pods probe).2.snooperObjs =
      (Slots.addAll malloc (refreshRequests env probe.snooperConfs pods)
        ⟨Slots.empty, 0⟩).1.slots := by
    rw [← generateObjs_eq]
    rfl
  rw [hobjs, Slots.unique_addAll, Slots.idleCount_empty]
  exact and_iff_right Slots.unique_empty

theorem foldl_addMatching (matched : SnooperConf → Bool) (add : Filling → Filling × Bool)
    (confs : SnooperConfs) (filling : Filling) (added : Bool) :
    confs.foldl (fun (filling, added) conf =>
      if matched conf then ((add filling).1, true) else (filling, added)) (filling, added) =
    ((confs.filter matched).foldl (fun filling _ => (add filling).1) filling,
      added || confs.any matched) := by
  induction confs generalizing filling added with
  | nil => simp
  | cons conf confs ih =>
      rw [List.foldl_cons]
      cases hmatched : matched conf with
      | true => simp [ih, hmatched]
      | false => simp [ih, hmatched]

theorem addedByEvent_objs (matched : SnooperConf → Bool) (obj : SnooperObj) :
    (addedByEvent matched (Slots.add malloc obj) probe).snooperObjs =
      (Slots.addAll malloc (eventRequests matched obj probe) ⟨probe.snooperObjs, 0⟩).1.slots := by
  have hoptional : ∀ request ∈ eventRequests matched obj probe, request.vital = false := by
    intro request hrequest
    obtain ⟨conf, -, rfl⟩ := List.mem_map.mp hrequest
    rfl
  rw [Slots.addAll_optional _ hoptional]
  unfold addedByEvent addMatching eventRequests
  rw [foldl_addMatching, List.foldl_map, Bool.false_or]
  cases hany : (probe.snooperConfs.take SNOOPER_MAX).any matched with
  | true => rfl
  | false =>
      have hnone : (probe.snooperConfs.take SNOOPER_MAX).filter matched = [] := by
        rw [List.filter_eq_nil_iff]
        simpa using hany
      rw [hnone]
      rfl

theorem unique_addedByEvent (matched : SnooperConf → Bool) (obj : SnooperObj) :
    Slots.Unique procKey (addedByEvent matched (Slots.add malloc obj) probe).snooperObjs ↔
      Slots.Unique procKey probe.snooperObjs ∧
        Slots.Fresh procKey probe.snooperObjs (Slots.granted malloc 0
          (Slots.idleCount probe.snooperObjs) (eventRequests matched obj probe)) := by
  rw [addedByEvent_objs, Slots.unique_addAll]

-- A container has no process of its own.
theorem fresh_con (matched : SnooperConf → Bool) (info : SnooperConInfo) (asked idle : ℕ) :
    Slots.Fresh procKey probe.snooperObjs
      (Slots.granted malloc asked idle (eventRequests matched (.con info) probe)) := by
  apply Slots.fresh_of_no_key
  intro obj hobj
  have hmem := (Slots.granted_sublist _ _ _).mem hobj
  obtain ⟨request, hrequest, rfl⟩ := List.mem_map.mp hmem
  obtain ⟨conf, -, rfl⟩ := List.mem_map.mp hrequest
  rfl

theorem removedByEvent_objs (chosen : SnooperObj → Bool) :
    (removedByEvent chosen probe).snooperObjs = Slots.release chosen probe.snooperObjs := by
  unfold removedByEvent
  split_ifs with hany
  · rfl
  · refine (Slots.release_of_none fun pos => ?_).symm
    simpa using fun h => hany (List.any_eq_true.mpr ⟨pos, List.mem_finRange pos, h⟩)

theorem SnoopedOnce.removed (h : SnoopedOnce mng) (chosen : SnooperObj → Bool) :
    SnoopedOnce { mng with probes := eachProbe (fun _ => removedByEvent chosen) mng.probes } := by
  intro type probe hprobe
  obtain ⟨before, hbefore, rfl⟩ := Option.map_eq_some_iff.mp hprobe
  rw [removedByEvent_objs]
  exact (h type before hbefore).release

theorem not_snooped_exit (procId : UInt32) : ¬Snooped (step mng (.exit procId)) procId := by
  rintro ⟨type, probe, hprobe, hholds⟩
  obtain ⟨before, -, rfl⟩ := Option.map_eq_some_iff.mp hprobe
  rw [removedByEvent_objs] at hholds
  refine Slots.not_holds_release (fun obj hobj => ?_) hholds
  cases obj with
  | proc other => simpa [isProcObj, procKey] using hobj
  | con info => simp [procKey] at hobj
  | gaussdb db => simp [procKey] at hobj
  | max => simp [procKey] at hobj

theorem SnoopedOnce.cgrpExec (h : SnoopedOnce mng) (malloc : ProbeType → ℕ → Bool)
    (podId conId : Text) : SnoopedOnce (rcvSnooperCgrpExec malloc podId conId mng) := by
  unfold rcvSnooperCgrpExec
  cases getConInfo mng.pods podId conId with
  | none => exact h
  | some info =>
      dsimp only
      split_ifs
      · exact h
      · intro type probe hprobe
        obtain ⟨before, hbefore, rfl⟩ := Option.map_eq_some_iff.mp hprobe
        exact (unique_addedByEvent _ _).mpr ⟨h type before hbefore, fresh_con _ _ _ _⟩

-- Another probe than the refreshed one keeps its objects.
theorem SnoopedOnce.update (h : SnoopedOnce mng) (pods : Pods) (type : ProbeType)
    (probe : SnoopedProbe) :
    SnoopedOnce { mng with
      pods := pods, probes := Function.update mng.probes type (some probe) } ↔
      Slots.Unique procKey probe.snooperObjs := by
  constructor
  · intro hunique
    exact hunique type probe (Function.update_self ..)
  · intro hprobe other found hfound
    by_cases heq : other = type
    · subst heq
      obtain rfl : probe = found := by simpa using hfound
      exact hprobe
    · dsimp only at hfound
      rw [Function.update_of_ne heq] at hfound
      exact h other found hfound

-- An action keeps the objects unique exactly if the ones it adds are fresh.
theorem snoopedOnce_step (h : SnoopedOnce mng) (action : SnooperAction) :
    SnoopedOnce (step mng action) ↔ AddsFresh mng action := by
  cases action with
  | refresh type confs malloc env =>
      cases hprobe : mng.probes type with
      | none => simp [step, AddsFresh, hprobe, h]
      | some probe =>
          have hupdate := h.update
            (refreshSnooperObj malloc env mng.pods { probe with snooperConfs := confs }).1 type
            (refreshSnooperObj malloc env mng.pods { probe with snooperConfs := confs }).2
          have hunique := unique_refresh malloc env mng.pods { probe with snooperConfs := confs }
          simpa only [step, AddsFresh, hprobe, Option.isSome_some, true_imp_iff] using
            hupdate.trans hunique
  | exec malloc env filename procId =>
      constructor
      · intro hunique type probe hprobe
        exact ((unique_addedByEvent _ _).mp
          (hunique type _ (Option.map_eq_some_iff.mpr ⟨probe, hprobe, rfl⟩))).2
      · intro hfresh type probe hprobe
        obtain ⟨before, hbefore, rfl⟩ := Option.map_eq_some_iff.mp hprobe
        exact (unique_addedByEvent _ _).mpr ⟨h type before hbefore, hfresh type before hbefore⟩
  | exit procId => exact iff_of_true (h.removed _) trivial
  | cgrpMk malloc env podId conId idRet =>
      refine iff_of_true ?_ trivial
      simp only [step]
      split_ifs
      · exact h
      · have hpods : SnoopedOnce
            { mng with pods := addPodConMap env mng.pods podId conId idRet } := h
        exact hpods.cgrpExec malloc podId conId
      · exact h
  | cgrpRm podId conId idRet =>
      refine iff_of_true ?_ trivial
      simp only [step]
      split_ifs
      · exact h
      · have hpods : SnoopedOnce
            { mng with pods := delPodConMap mng.pods podId conId idRet } := h
        exact hpods.removed _
      · exact h

theorem snoopedOnce_start (registered : ProbeType → Bool) : SnoopedOnce (startMng registered) := by
  intro type probe hprobe
  simp only [startMng] at hprobe
  split_ifs at hprobe
  cases hprobe
  exact Slots.unique_empty

-- After an exit no array has the process, whatever came before. The arrays have no
-- process twice throughout a run exactly if each action adds fresh objects.
theorem snoopedOnce_iff (registered : ProbeType → Bool) (actions : List SnooperAction) :
    Throughout step (startMng registered)
      (fun done mng => ∀ earlier procId, done = earlier ++ [.exit procId] → ¬Snooped mng procId)
      actions ∧
    (Throughout step (startMng registered) (fun _ mng => SnoopedOnce mng) actions ↔
      EachStep step (startMng registered) (fun _ mng action => AddsFresh mng action) actions) := by
  constructor
  · rintro done later - earlier procId rfl
    rw [List.foldl_append]
    exact not_snooped_exit procId
  · have hlegal : EachStep step (startMng registered) (fun _ _ _ => True) actions :=
      fun _ _ _ _ => trivial
    refine throughout_iff_eachStep (fun _ mng => SnoopedOnce mng) (snoopedOnce_start registered)
      (fun _ _ => id) ?_ ?_ hlegal
    · intro done mng action hinv _ hfresh
      exact (snoopedOnce_step hinv action).mpr hfresh
    · intro done mng action hinv _ honce
      exact (snoopedOnce_step hinv action).mp honce

end Step

-- One process is running, number 7 with the name redis.
def redisDir : ProcDir where
  readdir := some ["7".toList]
  readProcComm := fun _ => some "redis".toList
  readProcCmdline := fun _ => none
  getContainerIdByPidCpuset := fun _ => []

def redisEnv : Env where
  podMalloc := true
  conMalloc := true
  getContainerCpucgInode := fun _ => 0
  getContainerName := fun _ => []
  getElfPathByConId := fun _ _ => []
  getPodIp := fun _ => []
  listContainersByPodId := fun _ => none
  regexec := fun pattern target => pattern <:+: target
  getContainerPodId := fun _ => []
  procDir := fun _ => redisDir

-- The process is found by its name and then executes its file again.
def foundThenExecuted : List SnooperAction :=
  [.refresh .tcp [.app "redis".toList none none] (fun _ => true) (fun _ => redisEnv),
    .exec (fun _ _ => true) redisEnv "/usr/bin/redis".toList 7]

theorem foundThenExecuted_not_snoopedOnce :
    ¬∀ registered actions,
      Throughout step (startMng registered) (fun done mng => SnoopedOnce mng ∧
        ∀ earlier procId, done = earlier ++ [.exit procId] → ¬Snooped mng procId) actions := by
  intro h
  have honce := (h (fun _ => true) foundThenExecuted).last.1
  obtain ⟨probe, hprobe, hfirst, hsecond⟩ : ∃ probe,
      (foundThenExecuted.foldl step (startMng fun _ => true)).probes .tcp = some probe ∧
        probe.snooperObjs ⟨0, by decide⟩ = some (.proc 7) ∧
        probe.snooperObjs ⟨1, by decide⟩ = some (.proc 7) :=
    ⟨_, rfl, by decide, by decide⟩
  have heq := honce .tcp probe hprobe 7 _ _ (.proc 7) (.proc 7) hfirst rfl hsecond rfl
  exact absurd heq (by decide)

end Gopher.Probe.Snooper
