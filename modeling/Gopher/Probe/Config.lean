import Gopher.Probe.LifeCycle
import Gopher.Probe.Params
import Gopher.Probe.Snooper

namespace Gopher.Probe.Config

open Gopher.Lib Gopher.Ipc

def MAX_PROBE_NAME_LEN : ℕ := 32
def IPC_FLAGS_SNOOPER_CHG : UInt32 := 0x00000001
def IPC_FLAGS_PARAMS_CHG : UInt32 := 0x00000002

inductive ProbeType
  | baseinfo
  | virt
  | fg
  | l7
  | tcp
  | socket
  | io
  | proc
  | jvm
  | redisSli
  | postgreSli
  | gaussSli
  | dnsmasq
  | lvs
  | nginx
  | haproxy
  | kafka
  | tp
  | hw
  | ksli
  | sched
  deriving DecidableEq, Repr

structure ProbeDefine where
  desc : Text
  bin : Text
  type : ProbeType

def probeDefine : List ProbeDefine :=
  [⟨"baseinfo".toList, "system_infos".toList, .baseinfo⟩,
    ⟨"virt".toList, "virtualized_infos".toList, .virt⟩,
    ⟨"flamegraph".toList, "$gala-gopher-dir/stackprobe".toList, .fg⟩,
    ⟨"l7".toList, "$gala-gopher-dir/l7probe".toList, .l7⟩,
    ⟨"tcp".toList, "$gala-gopher-dir/tcpprobe".toList, .tcp⟩,
    ⟨"socket".toList, "$gala-gopher-dir/endpoint".toList, .socket⟩,
    ⟨"io".toList, "$gala-gopher-dir/ioprobe".toList, .io⟩,
    ⟨"proc".toList, "$gala-gopher-dir/taskprobe".toList, .proc⟩,
    ⟨"jvm".toList, "$gala-gopher-dir/jvmprobe".toList, .jvm⟩,
    ⟨"redis_sli".toList, "$gala-gopher-dir/redissli".toList, .redisSli⟩,
    ⟨"postgre_sli".toList, "$gala-gopher-dir/pgsliprobe".toList, .postgreSli⟩,
    ⟨"opengauss_sli".toList, "$gala-gopher-dir/pg_stat_probe.py".toList, .gaussSli⟩,
    ⟨"dnsmasq".toList, "$gala-gopher-dir/rabbitmq_probe.sh".toList, .dnsmasq⟩,
    ⟨"lvs".toList, "$gala-gopher-dir/trace_lvs".toList, .lvs⟩,
    ⟨"nginx".toList, "$gala-gopher-dir/nginx_probe".toList, .nginx⟩,
    ⟨"haproxy".toList, "$gala-gopher-dir/trace_haproxy".toList, .haproxy⟩,
    ⟨"kafka".toList, "$gala-gopher-dir/kafkaprobe".toList, .kafka⟩,
    ⟨"tprofiling".toList, "$gala-gopher-dir/tprofiling".toList, .tp⟩,
    ⟨"hw".toList, "$gala-gopher-dir/hwprobe".toList, .hw⟩,
    ⟨"ksli".toList, "$gala-gopher-dir/ksliprobe".toList, .ksli⟩,
    ⟨"sched".toList, "$gala-gopher-dir/schedprobe".toList, .sched⟩]

def getProbeTypeByName (probeName : Text) : Option ProbeType :=
  (probeDefine.find? fun define => sameIgnoringCase define.desc probeName).map ProbeDefine.type

-- `probe_define[probe_type - 1].bin`, the entry of that type.
def defaultBin (type : ProbeType) : Text :=
  ((probeDefine.find? fun define => define.type = type).map ProbeDefine.bin).getD []

structure ProbeRangeDefine where
  type : ProbeType
  desc : Text
  flags : UInt32

def probeRangeDefine : List ProbeRangeDefine :=
  [⟨.fg, "oncpu".toList, 0x1⟩, ⟨.fg, "offcpu".toList, 0x2⟩, ⟨.fg, "mem".toList, 0x4⟩,
    ⟨.fg, "io".toList, 0x8⟩,
    ⟨.l7, "l7_bytes_metrics".toList, 0x1⟩, ⟨.l7, "l7_rpc_metrics".toList, 0x2⟩,
    ⟨.l7, "l7_rpc_trace".toList, 0x4⟩,
    ⟨.tcp, "tcp_abnormal".toList, 0x1⟩, ⟨.tcp, "tcp_rtt".toList, 0x4⟩,
    ⟨.tcp, "tcp_windows".toList, 0x2⟩, ⟨.tcp, "tcp_srtt".toList, 0x40⟩,
    ⟨.tcp, "tcp_rate".toList, 0x20⟩, ⟨.tcp, "tcp_sockbuf".toList, 0x10⟩,
    ⟨.tcp, "tcp_stats".toList, 0x8⟩,
    ⟨.socket, "tcp_socket".toList, 0x1⟩, ⟨.socket, "udp_socket".toList, 0x2⟩,
    ⟨.io, "io_trace".toList, 0x1⟩, ⟨.io, "io_err".toList, 0x2⟩, ⟨.io, "io_count".toList, 0x4⟩,
    ⟨.io, "page_cache".toList, 0x8⟩,
    ⟨.proc, "proc_syscall".toList, 0x1⟩, ⟨.proc, "proc_fs".toList, 0x2⟩,
    ⟨.proc, "proc_dns".toList, 0x4⟩, ⟨.proc, "proc_io".toList, 0x8⟩,
    ⟨.proc, "proc_pagecache".toList, 0x10⟩, ⟨.proc, "proc_net".toList, 0x20⟩,
    ⟨.proc, "proc_offcpu".toList, 0x40⟩,
    ⟨.baseinfo, "cpu".toList, 0x1⟩, ⟨.baseinfo, "mem".toList, 0x2⟩,
    ⟨.baseinfo, "nic".toList, 0x4⟩, ⟨.baseinfo, "net".toList, 0x8⟩,
    ⟨.baseinfo, "disk".toList, 0x10⟩, ⟨.baseinfo, "fs".toList, 0x20⟩,
    ⟨.baseinfo, "proc".toList, 0x40⟩, ⟨.baseinfo, "host".toList, 0x80⟩,
    ⟨.tp, "oncpu".toList, 0x1⟩, ⟨.tp, "syscall_file".toList, 0x2⟩,
    ⟨.tp, "syscall_net".toList, 0x4⟩, ⟨.tp, "syscall_lock".toList, 0x10⟩,
    ⟨.tp, "syscall_sched".toList, 0x8⟩,
    ⟨.hw, "hw_nic".toList, 0x1⟩, ⟨.hw, "hw_mem".toList, 0x2⟩,
    ⟨.sched, "sched_systime".toList, 0x1⟩, ⟨.sched, "sched_syscall".toList, 0x2⟩]

def getProbeRange (type : ProbeType) (range : Text) : UInt32 :=
  ((probeRangeDefine.find? fun define =>
    define.type = type && sameIgnoringCase define.desc range).map ProbeRangeDefine.flags).getD 0

inductive ProbeCb
  | extend
  | native
  deriving DecidableEq, Repr

-- The fields of `struct probe_s` that a request reads or writes. `probeEntry` is
-- the symbol the entry was found under.
structure ProbeS where
  bin : Option Text
  chkCmd : Option Text
  isExtendProbe : Bool
  isParamsChg : Bool
  isSnooperChg : Bool
  isRestart : Bool
  probeType : ProbeType
  probeRangeFlags : UInt32
  probeEntry : Option Text
  cb : Option ProbeCb
  pid : ℤ
  flags : StatusFlags
  snooperConfs : SnooperConfs
  snooperObjs : List SnooperObj
  probeParam : ProbeParams
  deriving DecidableEq

-- The part of `struct ipc_body_s` that `__build_ipc_body` fills.
structure SnooperMsg where
  probeRangeFlags : UInt32
  probeFlags : UInt32
  probeParam : ProbeParams
  snooperObjs : List SnooperObj
  deriving DecidableEq

-- What the system answers while a request is handled.
structure Env where
  -- memory, fifo and epoll entry of a new probe
  newProbe : Bool
  -- memory of the backup and of each snooper configuration
  backupMalloc : Bool
  confMalloc : Bool
  access : Text → Bool
  dlopen : Bool
  dlsym : Text → Bool
  getInstallDir : Text → Option Text
  -- the check command prints a positive number
  checkCmd : Text → Bool
  pthreadCreate : Bool
  pthreadCancel : Bool
  -- the processes and containers found for a configuration
  snooperObjs : SnooperConfs → List SnooperObj
  sendIpcMsg : ProbeType → SnooperMsg → Bool

def newProbe (type : ProbeType) : ProbeS where
  bin := none
  chkCmd := none
  isExtendProbe := false
  isParamsChg := false
  isSnooperChg := false
  isRestart := false
  probeType := type
  probeRangeFlags := 0
  probeEntry := none
  cb := none
  pid := -1
  flags := ⟨false, false, false, false⟩
  snooperConfs := []
  snooperObjs := []
  probeParam := setDefaultParams

def isExtendProbe (env : Env) (bin : Option Text) : Bool :=
  match bin with
  | none => false
  | some bin => env.access bin || bin.contains '/'

def setProbeEntry (env : Env) (probe : ProbeS) : ProbeS × Result :=
  if probe.probeEntry ≠ none then (probe, .ok)
  else if !env.dlopen then (probe, .error none)
  else
    -- a NULL name is printed by the C library as this text
    let bin := probe.bin.getD "(null)".toList
    let entry := truncated (MAX_PROBE_NAME_LEN - 1) ("probe_main_".toList ++ bin)
    if env.dlsym entry then ({ probe with probeEntry := some entry }, .ok)
    else (probe, .error (some
      ("failed to set entry for probe, unknown func: ".toList ++ entry)))

-- What follows the last slash, where there is a slash with something behind it.
def baseName (bin : Text) : Option Text :=
  let name := (bin.reverse.takeWhile (· ≠ '/')).reverse
  if bin.contains '/' ∧ name ≠ [] then some (truncated PATH_LEN name) else none

def setProbeBin (env : Env) (bin : Text) (probe : ProbeS) : ProbeS × Result :=
  let set (probe : ProbeS) : ProbeS × Result :=
    if isExtendProbe env probe.bin then ({ probe with isExtendProbe := true }, .ok)
    else setProbeEntry env probe
  if bin.head? = some '$' then
    match baseName bin with
    | none => ({ probe with bin := none }, .error (some "invalid binfile".toList))
    | some name => set { probe with bin := env.getInstallDir name }
  else set { probe with bin := some bin }

-- Names that are not known add nothing.
def probeParserRangeItems : List Json → ProbeS → ProbeS × Result
  | [], probe => (probe, .ok)
  | object :: objects, probe =>
      match object.valuestring with
      | none => (probe, .error (some "invalid probe range: must be string".toList))
      | some range =>
          probeParserRangeItems objects { probe with
            probeRangeFlags := probe.probeRangeFlags ||| getProbeRange probe.probeType range }

def probeParserRange (item : Json) (probe : ProbeS) : ProbeS × Result :=
  probeParserRangeItems item.children { probe with probeRangeFlags := 0 }

def cmdBin (item : Json) (type : ProbeType) : Text :=
  match (item.getObjectItem "bin".toList).bind Json.valuestring with
  | none => defaultBin type
  | some bin => if bin = [] then defaultBin type else bin

def cmdChkCmd (item : Json) (probe : ProbeS) : ProbeS :=
  match (item.getObjectItem "check_cmd".toList).bind Json.valuestring with
  | none => probe
  | some chkCmd => { probe with chkCmd := some chkCmd }

def probeParserCmd (env : Env) (item : Json) (probe : ProbeS) : ProbeS × Result :=
  match setProbeBin env (cmdBin item probe.probeType) probe with
  | (probe, .error message) => (probe, .error message)
  | (probe, .ok) =>
      let probe := cmdChkCmd item probe
      let probe := { probe with cb := some (if probe.isExtendProbe then .extend else .native) }
      match item.getObjectItem "probe".toList with
      | none => (probe, .ok)
      | some range => probeParserRange range probe

def parseSnooper (env : Env) (item : Json) (probe : ProbeS) : ProbeS × Result :=
  match parseSnooperConfs env.confMalloc item with
  | (confs, .error message) => ({ probe with snooperConfs := confs }, .error message)
  | (confs, .ok) =>
      ({ probe with snooperConfs := confs, snooperObjs := env.snooperObjs confs }, .ok)

def probeParserParams (item : Json) (probe : ProbeS) : ProbeS × Result :=
  let (params, ret) := parseParams item probe.probeParam
  ({ probe with probeParam := params }, ret)

def checkProbeNeedStart (env : Env) (chkCmd : Option Text) : Bool :=
  match chkCmd with
  | none => true
  | some cmd => cmd = [] || env.checkCmd cmd

def isProbeReady (env : Env) (probe : ProbeS) : Bool :=
  probe.cb.isSome &&
    if probe.isExtendProbe then
      probe.bin.any env.access && checkProbeNeedStart env probe.chkCmd
    else probe.probeEntry.isSome

def tryStartProbe (env : Env) (probe : ProbeS) : Bool :=
  probe.flags.running || !probe.flags.started || isProbeReady env probe && env.pthreadCreate

-- `start_probe` and `stop_probe` as one call each, with no thread in between.
def startProbe (env : Env) (probe : ProbeS) : ProbeS × Result :=
  if probe.flags.running then (probe, .ok)
  else
    let started := { probe with
      isRestart := probe.flags.stopped || probe.flags.stopping
      flags := { probe.flags with started := true, stopping := false } }
    if tryStartProbe env started then (started, .ok)
    else (started, .error (some "failed to start probe".toList))

-- The thread that is joined has set STOPPED and cleared RUNNING itself when the
-- probe is an extend probe.
def stopProbe (env : Env) (probe : ProbeS) : ProbeS × Result :=
  if !probe.flags.running then (probe, .ok)
  else
    let stopping := { probe with flags := { probe.flags with stopping := true, started := false } }
    let stopped := { stopping with
      flags := { stopping.flags with stopped := true, running := false }
      pid := -1 }
    if !probe.isExtendProbe then
      if env.pthreadCancel then (stopped, .ok)
      else (stopping, .error (some "failed to cancel native probe".toList))
    else if probe.pid < 0 then
      (stopping, .error (some "failed to find process of extend probe".toList))
    else (stopped, .ok)

def probeParserState (env : Env) (item : Json) (probe : ProbeS) : ProbeS × Result :=
  match item.valuestring with
  | none => (probe, .error (some "invalid state: must be string".toList))
  | some state =>
      if sameIgnoringCase "running".toList state then startProbe env probe
      else if sameIgnoringCase "stopped".toList state then stopProbe env probe
      else (probe, .error (some ("invalid state ".toList ++ state ++
        ": must be running or stopped".toList)))

-- The cleared `struct probe_s` that the backups are written to.
structure Backup where
  bin : Option Text
  chkCmd : Option Text
  isExtendProbe : Bool
  probeEntry : Option Text
  cb : Option ProbeCb
  probeRangeFlags : UInt32
  snooperConfs : SnooperConfs
  snooperObjs : List SnooperObj
  probeParam : ProbeParams
  deriving DecidableEq

def zeroBackup : Backup where
  bin := none
  chkCmd := none
  isExtendProbe := false
  probeEntry := none
  cb := none
  probeRangeFlags := 0
  snooperConfs := []
  snooperObjs := []
  probeParam := zeroParams

def probeBackupCmd (probe : ProbeS) (backup : Backup) : Backup :=
  { backup with
    bin := probe.bin
    chkCmd := probe.chkCmd
    isExtendProbe := probe.isExtendProbe
    probeEntry := probe.probeEntry
    cb := probe.cb
    probeRangeFlags := probe.probeRangeFlags }

def probeRollbackCmd (probe : ProbeS) (backup : Backup) : ProbeS :=
  { probe with
    bin := backup.bin
    chkCmd := backup.chkCmd
    isExtendProbe := backup.isExtendProbe
    probeEntry := backup.probeEntry
    cb := backup.cb
    probeRangeFlags := backup.probeRangeFlags }

-- The configuration and the objects move to the backup.
def backupSnooper (probe : ProbeS) (backup : Backup) : ProbeS × Backup :=
  ({ probe with snooperConfs := [], snooperObjs := [] },
    { backup with snooperConfs := probe.snooperConfs, snooperObjs := probe.snooperObjs })

def rollbackSnooper (probe : ProbeS) (backup : Backup) : ProbeS :=
  { probe with snooperConfs := backup.snooperConfs, snooperObjs := backup.snooperObjs }

def probeBackupParams (probe : ProbeS) (backup : Backup) : Backup :=
  { backup with probeParam := probe.probeParam }

def probeRollbackParams (probe : ProbeS) (backup : Backup) : ProbeS :=
  { probe with probeParam := backup.probeParam }

-- The entries of `probe_parsers`.
inductive Item
  | cmd
  | snoopers
  | params
  | state
  deriving DecidableEq, Repr

def probeParsers : List Item :=
  [.cmd, .snoopers, .params, .state]

namespace Item

def name : Item → Text
  | cmd => "cmd".toList
  | snoopers => "snoopers".toList
  | params => "params".toList
  | state => "state".toList

def parser (env : Env) : Item → Json → ProbeS → ProbeS × Result
  | cmd => probeParserCmd env
  | snoopers => parseSnooper env
  | params => probeParserParams
  | state => probeParserState env

def backuper : Item → ProbeS → Backup → ProbeS × Backup
  | cmd => fun probe backup => (probe, probeBackupCmd probe backup)
  | snoopers => backupSnooper
  | params => fun probe backup => (probe, probeBackupParams probe backup)
  | state => Prod.mk

def rollbacker : Item → ProbeS → Backup → ProbeS
  | cmd => probeRollbackCmd
  | snoopers => rollbackSnooper
  | params => probeRollbackParams
  | state => fun probe _ => probe

end Item

-- `flag` holds the items whose bit is set.
def rollbackProbe (flag : List Item) (probe : ProbeS) (backup : Backup) : ProbeS :=
  probeParsers.foldl (fun probe item =>
    if item ∈ flag then item.rollbacker probe backup else probe) probe

-- The loop over the table, with the return value -1 of a request without any item.
def parseItems (env : Env) (json : Json) :
    List Item → List Item → Result → ProbeS → Backup → ProbeS × Backup × Result
  | [], _, ret, probe, backup => (probe, backup, ret)
  | item :: items, flag, ret, probe, backup =>
      match json.getObjectItem item.name with
      | none => parseItems env json items flag ret probe backup
      | some value =>
          let flag := flag ++ [item]
          let (probe, backup) := item.backuper probe backup
          match item.parser env value probe with
          | (probe, .ok) => parseItems env json items flag .ok probe backup
          | (probe, .error message) => (rollbackProbe flag probe backup, backup, .error message)

def snoopersModified (confs backup : SnooperConfs) : Bool :=
  (confs.zip backup).any fun pair => snooperIsModify pair.1 pair.2

def setProbeModify (probe : ProbeS) (backup : Backup) : ProbeS :=
  { probe with
    isParamsChg := probe.probeRangeFlags != backup.probeRangeFlags ||
      probe.probeParam != backup.probeParam
    isSnooperChg := probe.snooperConfs.length != backup.snooperConfs.length ||
      snoopersModified probe.snooperConfs backup.snooperConfs }

def buildIpcBody (probe : ProbeS) : SnooperMsg where
  probeRangeFlags := probe.probeRangeFlags
  probeFlags := (if probe.isParamsChg then IPC_FLAGS_PARAMS_CHG else 0) |||
    (if probe.isSnooperChg then IPC_FLAGS_SNOOPER_CHG else 0)
  probeParam := probe.probeParam
  snooperObjs := probe.snooperObjs

def sendSnooperObj (env : Env) (probe : ProbeS) : Bool :=
  !probe.flags.started || env.sendIpcMsg probe.probeType (buildIpcBody probe)

-- What follows the loop when every item was accepted.
def finishRequest (env : Env) (probe : ProbeS) (backup : Backup) : ProbeS × Result :=
  let probe := setProbeModify probe backup
  if (probe.flags.started || probe.flags.running) &&
      (probe.isParamsChg || probe.isSnooperChg || probe.isRestart) then
    if sendSnooperObj env probe then (probe, .ok)
    else (probe, .error (some "failed to send ipc msg to probe".toList))
  else (probe, .ok)

-- `json` is `none` when the text of the request does not parse.
def configureProbe (env : Env) (json : Option Json) (probe : ProbeS) : ProbeS × Result :=
  match json with
  | none => (probe, .error (some "invalid json format".toList))
  | some json =>
      if !env.backupMalloc then (probe, .error none)
      else match parseItems env json probeParsers [] (.error none) probe zeroBackup with
        | (probe, backup, .ok) => finishRequest env probe backup
        | (probe, _, .error message) => (probe, .error message)

abbrev Probes := ProbeType → Option ProbeS

def setProbe (probes : Probes) (type : ProbeType) (probe : ProbeS) : Probes :=
  fun other => if other = type then some probe else probes other

def getProbeByName (env : Env) (probes : Probes) (type : ProbeType) : Option ProbeS :=
  match probes type with
  | some probe => some probe
  | none => if env.newProbe then some (newProbe type) else none

-- The registered probes after the request and its outcome.
def parseProbeJson (env : Env) (probes : Probes) (probeName : Text) (json : Option Json) :
    Probes × Result :=
  match getProbeTypeByName probeName with
  | none => (probes, .error none)
  | some type =>
      match getProbeByName env probes type with
      | none => (probes, .error none)
      | some probe =>
          let (probe, ret) := configureProbe env json probe
          (setProbe probes type probe, ret)

end Gopher.Probe.Config
