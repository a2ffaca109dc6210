import Gopher.Lib.Recent
import Gopher.Lib.Text
import Mathlib.Data.Int.Notation

namespace Gopher.Profiling

open Gopher.Lib

def TASK_COMM_LEN : ℕ := 16
def PROC_CMDLINE_LEN : ℕ := 128
def CONTAINER_NAME_LEN : ℕ := 64
def CONTAINER_ABBR_ID_LEN : ℕ := 12
def MAX_PATH_SIZE : ℕ := 128
def MAX_NET_CONN_INFO_SIZE : ℕ := 128
def MAX_CMD_SIZE : ℕ := 64

def MAX_CACHE_PROC_NUM : ℕ := 64
def MAX_CACHE_THRD_NUM : ℕ := 1024
def MAX_CACHE_FD_NUM : ℕ := 1024

def SOCK_TYPE_IPV4_STR : Text := "IPv4".toList
def SOCK_TYPE_IPV6_STR : Text := "IPv6".toList
def SOCK_PROTO_TYPE_TCP_STR : Text := "TCP".toList
def SOCK_PROTO_TYPE_UDP_STR : Text := "UDP".toList

-- `extInfo` is the union of the descriptor and the futex operation.
structure SyscallData where
  nr : UInt64
  startTime : UInt64
  duration : UInt64
  count : Int32
  extInfo : Int32
  uid : Int32
  deriving DecidableEq

structure OncpuData where
  startTime : UInt64
  duration : UInt64
  count : Int32
  deriving DecidableEq

-- The type of an event with its union.
inductive EventData
  | syscall (data : SyscallData)
  | oncpu (data : OncpuData)
  | unknown (type : UInt32)
  deriving DecidableEq

inductive SockType
  | ipv4
  | ipv6
  | unsupported
  deriving DecidableEq

inductive ProtoType
  | tcp
  | udp
  | unsupported
  deriving DecidableEq

structure SockInfo where
  type : SockType
  proto : ProtoType
  conn : CString MAX_NET_CONN_INFO_SIZE
  deriving DecidableEq

-- The type of a descriptor with its union.
inductive FdType
  | reg (name : CString MAX_PATH_SIZE)
  | sock (info : SockInfo)
  | unsupported
  deriving DecidableEq

structure FdInfo where
  fd : Int32
  type : FdType
  deriving DecidableEq

-- `evt_num` is the length of `cachedEvts`.
structure ThrdInfo where
  pid : Int32
  comm : CString TASK_COMM_LEN
  cachedEvts : List EventData
  lastReportTime : ℤ
  deriving DecidableEq

structure ContainerInfo where
  id : CString (CONTAINER_ABBR_ID_LEN + 1)
  name : CString CONTAINER_NAME_LEN
  deriving DecidableEq

-- The two tables hang off the entry of their process.
structure ProcInfo where
  tgid : Int32
  comm : CString TASK_COMM_LEN
  procName : CString PROC_CMDLINE_LEN
  containerInfo : ContainerInfo
  fdTable : List FdInfo
  thrdTable : List ThrdInfo
  deriving DecidableEq

inductive FileMode
  | reg
  | sock
  | other
  deriving DecidableEq

-- What one call finds on the system: whether memory is granted, the output of a
-- command, and what the files under `/proc` and the container runtime say.
structure Env where
  calloc : Bool
  popen : Text → Option Text
  javaMainClass : Int32 → Option Text
  containerIdByPidCpuset : Int32 → Option Text
  containerName : Text → Option Text
  stat : Text → Option FileMode
  readlink : Text → Option Text

-- The formats `%llu` and `%d`.
def formatUInt (n : UInt64) : Text :=
  Nat.toDigits 10 n.toNat

def formatInt (n : Int32) : Text :=
  let digits := Nat.toDigits 10 n.toInt.natAbs
  if n.toInt < 0 then '-' :: digits else digits

-- A command or a path that does not fit its array is an error.
def formatTo (size : ℕ) (text : Text) : Option Text :=
  if text.length < size then some text else none

def execCmd (env : Env) (cmd : Text) (size : ℕ) : Option Text := do
  let output ← env.popen cmd
  let (line, _) ← fgets size output
  return splitNewlineSymbol line

def setProcComm (env : Env) (tgid : Int32) : Option (CString TASK_COMM_LEN) := do
  let cmd ← formatTo MAX_CMD_SIZE ("cat /proc/".toList ++ formatInt tgid ++ "/comm".toList)
  let comm ← execCmd env cmd TASK_COMM_LEN
  return .print (by decide) comm

def isJavaProc (comm : Text) : Bool :=
  comm = "java".toList

def fillProcName (env : Env) (tgid : Int32) (comm : CString TASK_COMM_LEN) : CString PROC_CMDLINE_LEN :=
  let default := .print (by decide) comm.text
  if isJavaProc comm.text then
    match env.javaMainClass tgid with
    | some mainClassName => .print (by decide) mainClassName
    | none => default
  else default

-- A process need not be in a container; the arrays start out empty.
def fillContainerInfo (env : Env) (tgid : Int32) : ContainerInfo :=
  let empty : Text := []
  match env.containerIdByPidCpuset tgid with
  | none => ⟨.print (by decide) empty, .print (by decide) empty⟩
  | some id =>
      let id := .print (by decide) id
      let name := if id.text = [] then none else env.containerName id.text
      ⟨id, .print (by decide) (name.getD empty)⟩

def fillProcInfo (env : Env) (procInfo : ProcInfo) : Option ProcInfo := do
  let comm ← setProcComm env procInfo.tgid
  return { procInfo with
    comm := comm
    procName := fillProcName env procInfo.tgid comm
    containerInfo := fillContainerInfo env procInfo.tgid }

-- What `add_proc_info`, `add_thrd_info` and `add_fd_info` do before the table is
-- touched; `none` is NULL.
def newProcInfo (env : Env) (tgid : Int32) : Option ProcInfo :=
  if !env.calloc then none
  else fillProcInfo env {
    tgid := tgid
    comm := .print (by decide) []
    procName := .print (by decide) []
    containerInfo := ⟨.print (by decide) [], .print (by decide) []⟩
    fdTable := []
    thrdTable := [] }

def newThrdInfo (env : Env) (pid : Int32) : Option ThrdInfo :=
  if !env.calloc then none
  else some { pid := pid, comm := .print (by decide) [], cachedEvts := [], lastReportTime := 0 }

def fillRegFileInfo (env : Env) (fdPath : Text) : Option FdType := do
  let name ← env.readlink fdPath
  if hfits : name.length < MAX_PATH_SIZE then some (.reg ⟨name, hfits⟩) else none

def getSockType (sockType : Text) : SockType :=
  if sockType = SOCK_TYPE_IPV4_STR then .ipv4
  else if sockType = SOCK_TYPE_IPV6_STR then .ipv6
  else .unsupported

def getProtoType (protoType : Text) : ProtoType :=
  if protoType = SOCK_PROTO_TYPE_TCP_STR then .tcp
  else if protoType = SOCK_PROTO_TYPE_UDP_STR then .udp
  else .unsupported

-- The three arrays that the fields of `lsof` are copied to.
structure LsofFields where
  sockType : Text
  protoType : Text
  conn : Text

def lsofLine (fields : LsofFields) (line : Text) : LsofFields :=
  match splitNewlineSymbol line with
  | 't' :: rest => { fields with sockType := truncated 8 rest }
  | 'P' :: rest => { fields with protoType := truncated 8 rest }
  | 'n' :: rest => { fields with conn := truncated 64 rest }
  | _ => fields

-- Each read takes at least one byte, so the fuel is the length of the output.
def lsofLoop : (fuel : ℕ) → Text → LsofFields → LsofFields
  | 0, _, fields => fields
  | fuel + 1, output, fields =>
      match fgets 64 output with
      | none => fields
      | some (line, rest) => lsofLoop fuel rest (lsofLine fields line)

def cmdLsofSockInfo (tgid fd : Int32) : Text :=
  "nsenter -t ".toList ++ formatInt tgid ++ " -n lsof -a -nP -d ".toList ++ formatInt fd ++
    " -p ".toList ++ formatInt tgid ++ " -FnPt".toList

def fillSockInfo (env : Env) (tgid fd : Int32) : Option FdType := do
  let cmd ← formatTo MAX_CMD_SIZE (cmdLsofSockInfo tgid fd)
  let output ← env.popen cmd
  let fields := lsofLoop output.length output ⟨[], [], []⟩
  match getSockType fields.sockType with
  | .unsupported => return .sock ⟨.unsupported, .tcp, .print (by decide) []⟩
  | type =>
      return .sock ⟨type, getProtoType fields.protoType, .print (by decide) fields.conn⟩

def fillFdInfo (env : Env) (tgid fd : Int32) : Option FdType := do
  let fdPath ← formatTo MAX_PATH_SIZE
    ("/proc/".toList ++ formatInt tgid ++ "/fd/".toList ++ formatInt fd)
  match ← env.stat fdPath with
  | .reg => fillRegFileInfo env fdPath
  | .sock => fillSockInfo env tgid fd
  | .other => some .unsupported

def newFdInfo (env : Env) (tgid fd : Int32) : Option FdInfo :=
  if !env.calloc then none
  else (fillFdInfo env tgid fd).map fun type => ⟨fd, type⟩

-- The tables are in the order of insertion, which is the one `HASH_ITER` visits them in.
section Tables

variable (env : Env)

def hashAddProcInfoWithLRU (procTable : List ProcInfo) (procInfo : ProcInfo) : List ProcInfo :=
  Lru.add MAX_CACHE_PROC_NUM procTable procInfo

def hashFindProcInfoWithLRU (procTable : List ProcInfo) (tgid : Int32) :
    List ProcInfo × Option ProcInfo :=
  Lru.find ProcInfo.tgid procTable tgid

def addProcInfo (procTable : List ProcInfo) (tgid : Int32) : List ProcInfo × Option ProcInfo :=
  match newProcInfo env tgid with
  | none => (procTable, none)
  | some pi => (hashAddProcInfoWithLRU procTable pi, some pi)

def getProcInfo (procTable : List ProcInfo) (tgid : Int32) : List ProcInfo × Option ProcInfo :=
  match hashFindProcInfoWithLRU procTable tgid with
  | (procTable, some pi) => (procTable, some pi)
  | (procTable, none) => addProcInfo env procTable tgid

def hashAddThrdInfoWithLRU (thrdTable : List ThrdInfo) (thrdInfo : ThrdInfo) : List ThrdInfo :=
  Lru.add MAX_CACHE_THRD_NUM thrdTable thrdInfo

def hashFindThrdInfoWithLRU (thrdTable : List ThrdInfo) (pid : Int32) :
    List ThrdInfo × Option ThrdInfo :=
  Lru.find ThrdInfo.pid thrdTable pid

def addThrdInfo (thrdTable : List ThrdInfo) (pid : Int32) : List ThrdInfo × Option ThrdInfo :=
  match newThrdInfo env pid with
  | none => (thrdTable, none)
  | some ti => (hashAddThrdInfoWithLRU thrdTable ti, some ti)

def getThrdInfo (procInfo : ProcInfo) (pid : Int32) : ProcInfo × Option ThrdInfo :=
  let (thrdTable, ti) :=
    match hashFindThrdInfoWithLRU procInfo.thrdTable pid with
    | (thrdTable, some ti) => (thrdTable, some ti)
    | (thrdTable, none) => addThrdInfo env thrdTable pid
  ({ procInfo with thrdTable := thrdTable }, ti)

def hashAddFdInfoWithLRU (fdTable : List FdInfo) (fdInfo : FdInfo) : List FdInfo :=
  Lru.add MAX_CACHE_FD_NUM fdTable fdInfo

def hashFindFdInfoWithLRU (fdTable : List FdInfo) (fd : Int32) : List FdInfo × Option FdInfo :=
  Lru.find FdInfo.fd fdTable fd

def addFdInfo (tgid : Int32) (fdTable : List FdInfo) (fd : Int32) : List FdInfo × Option FdInfo :=
  match newFdInfo env tgid fd with
  | none => (fdTable, none)
  | some fi => (hashAddFdInfoWithLRU fdTable fi, some fi)

def getFdInfo (procInfo : ProcInfo) (fd : Int32) : ProcInfo × Option FdInfo :=
  let (fdTable, fi) :=
    match hashFindFdInfoWithLRU procInfo.fdTable fd with
    | (fdTable, some fi) => (fdTable, some fi)
    | (fdTable, none) => addFdInfo env procInfo.tgid fdTable fd
  ({ procInfo with fdTable := fdTable }, fi)

end Tables

end Gopher.Profiling
