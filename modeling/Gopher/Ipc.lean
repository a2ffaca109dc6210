import Gopher.Lib.Memory
import Gopher.Lib.Loop
import Mathlib.Algebra.Group.Nat.Defs

namespace Gopher.Ipc

open Gopher.Lib

def SNOOPER_MAX : ℕ := 100
def GOPHER_IPC_MSG_LEN : ℕ := 4 * 1024

-- Sizes of `struct ipc_tlv_s`, of `u32` and of `struct probe_params`.
def TLV_SIZE : ℕ := 4
def U32_SIZE : ℕ := 4
def PROBE_PARAMS_SIZE : ℕ := 3152

def IPC_TLV_LEN_DEFAULT : ℕ := 3 * (TLV_SIZE + U32_SIZE) + (TLV_SIZE + PROBE_PARAMS_SIZE)

def IPCT_PROBE_RANGE : ℕ := 100
def IPCT_PROBE_PARAMS : ℕ := 101
def IPCT_PROBE_FLAGS : ℕ := 102
def IPCT_SNOOPER_NUM : ℕ := 103

def IPCT_GAUSSDB_IP : ℕ := 1000
def IPCT_GAUSSDB_DBNAME : ℕ := 1001
def IPCT_GAUSSDB_USR : ℕ := 1002
def IPCT_GAUSSDB_PASS : ℕ := 1003
def IPCT_CONTAINER_ID : ℕ := 1004
def IPCT_CONTAINER_NAME : ℕ := 1005
def IPCT_LIBC_PATH : ℕ := 1006
def IPCT_LIBSSL_PATH : ℕ := 1007
def IPCT_POD_ID : ℕ := 1008
def IPCT_POD_IP : ℕ := 1010

def SNOOPER_OBJ_PROC : ℕ := 0
def SNOOPER_OBJ_CON : ℕ := 1
def SNOOPER_OBJ_GAUSSDB : ℕ := 2
def SNOOPER_OBJ_MAX : ℕ := 3

-- A `char *`: NULL, or the block of bytes it points to.
abbrev CharPtr := Option (List UInt8)

def strlen (block : List UInt8) : ℕ := (block.takeWhile (· != 0)).length

structure SnooperConInfo where
  flags : UInt32
  cpucgInode : UInt32
  conId : CharPtr
  containerName : CharPtr
  libcPath : CharPtr
  libsslPath : CharPtr
  podId : CharPtr
  podIpStr : CharPtr
  deriving DecidableEq

structure SnooperGaussdb where
  port : UInt32
  ip : CharPtr
  dbname : CharPtr
  usr : CharPtr
  pass : CharPtr
  deriving DecidableEq

-- The tag of `struct snooper_obj_s` with its union.
inductive SnooperObj
  | proc (procId : UInt32)
  | con (info : SnooperConInfo)
  | gaussdb (db : SnooperGaussdb)
  | max
  deriving DecidableEq

-- The bytes of a `struct probe_params`, which this channel only copies.
abbrev ProbeParamBlock := {bytes : List UInt8 // bytes.length = PROBE_PARAMS_SIZE}

structure IpcBody where
  probeRangeFlags : UInt32
  snooperObjNum : UInt32
  probeFlags : UInt32
  probeParam : ProbeParamBlock
  snooperObjs : Fin SNOOPER_MAX → SnooperObj

-- What the loops `i < snooper_obj_num && i < SNOOPER_MAX` visit.
def IpcBody.objs (body : IpcBody) : List SnooperObj :=
  (List.ofFn body.snooperObjs).take body.snooperObjNum.toNat

structure IpcMsg where
  msgType : Int
  msgLen : ℕ
  msg : Memory

def tlvHeader (type len : ℕ) : List UInt8 :=
  Memory.encodeU16 type ++ Memory.encodeU16 len

-- The value of a C `int` expression.
def toInt (n : Int) : Int := n.bmod (2 ^ 32)

def stringTlvLen : CharPtr → ℕ
  | none => 0
  | some block => TLV_SIZE + strlen block + 1

def getTlvLenProc : ℕ := TLV_SIZE + U32_SIZE

def getTlvLenContainer (info : SnooperConInfo) : ℕ :=
  (TLV_SIZE + (U32_SIZE + U32_SIZE) + stringTlvLen info.conId + stringTlvLen info.containerName +
    stringTlvLen info.libcPath + stringTlvLen info.libsslPath + stringTlvLen info.podId +
    stringTlvLen info.podIpStr) % 2 ^ 32

def getTlvLenGaussdb (db : SnooperGaussdb) : ℕ :=
  (TLV_SIZE + U32_SIZE + stringTlvLen db.ip + stringTlvLen db.dbname + stringTlvLen db.usr +
    stringTlvLen db.pass) % 2 ^ 32

def getTlvLen : SnooperObj → ℕ
  | .proc _ => getTlvLenProc
  | .con info => getTlvLenContainer info
  | .gaussdb db => getTlvLenGaussdb db
  | .max => 0

def calcIpcMsgLen (body : IpcBody) : ℕ :=
  body.objs.foldl (fun len obj => (len + getTlvLen obj) % 2 ^ 32) IPC_TLV_LEN_DEFAULT

structure BuildState where
  memory : Memory
  tlvLen1st : ℕ
  maxLen : Int

-- One optional string of a container or database object.
def buildString (start type : ℕ) (field : CharPtr) (state : BuildState) : Option BuildState :=
  match field with
  | none => some state
  | some block =>
      let tlvLen2nd : ℕ := (strlen block + 1 + TLV_SIZE) % 2 ^ 32
      let maxLen := toInt (state.maxLen - tlvLen2nd)
      if maxLen < 0 then none
      else
        let p := start + state.tlvLen1st
        let len := (tlvLen2nd + 65536 - TLV_SIZE) % 65536
        let memory := state.memory.write p (tlvHeader type len)
        some {
          memory := memory.write (p + TLV_SIZE) (block.take len)
          tlvLen1st := (state.tlvLen1st + tlvLen2nd) % 2 ^ 32
          maxLen := maxLen }

-- `none` is the return value -1. Otherwise the new memory and the length.
def buildTlvProc (memory : Memory) (buf size : ℕ) (procId : UInt32) : Option (Memory × ℕ) :=
  if size < U32_SIZE + TLV_SIZE then none
  else
    let memory := memory.write buf (tlvHeader SNOOPER_OBJ_PROC U32_SIZE)
    some (memory.write (buf + TLV_SIZE) (Memory.encodeU32 procId), U32_SIZE + TLV_SIZE)

def finishTlv (buf : ℕ) (state : BuildState) : Memory × ℕ :=
  (state.memory.write (buf + 2) (Memory.encodeU16 state.tlvLen1st),
    state.tlvLen1st % 65536 + TLV_SIZE)

def buildTlvContainer (memory : Memory) (buf size : ℕ) (info : SnooperConInfo) :
    Option (Memory × ℕ) := do
  let start := buf + TLV_SIZE
  let memory := memory.write buf (Memory.encodeU16 SNOOPER_OBJ_CON)
  let memory := memory.write start (Memory.encodeU32 info.flags)
  let memory := memory.write (start + U32_SIZE) (Memory.encodeU32 info.cpucgInode)
  -- the running total is subtracted twice, first 4 and then 8
  let state := {
    memory := memory
    tlvLen1st := U32_SIZE + U32_SIZE
    maxLen := toInt (toInt (toInt size - U32_SIZE) - (U32_SIZE + U32_SIZE : ℕ)) }
  let state ← buildString start IPCT_CONTAINER_ID info.conId state
  let state ← buildString start IPCT_CONTAINER_NAME info.containerName state
  let state ← buildString start IPCT_LIBC_PATH info.libcPath state
  let state ← buildString start IPCT_LIBSSL_PATH info.libsslPath state
  let state ← buildString start IPCT_POD_ID info.podId state
  let state ← buildString start IPCT_POD_IP info.podIpStr state
  return finishTlv buf state

def buildTlvGaussdb (memory : Memory) (buf size : ℕ) (db : SnooperGaussdb) :
    Option (Memory × ℕ) := do
  let start := buf + TLV_SIZE
  let memory := memory.write buf (Memory.encodeU16 SNOOPER_OBJ_GAUSSDB)
  let memory := memory.write start (Memory.encodeU32 db.port)
  let state := {
    memory := memory
    tlvLen1st := U32_SIZE
    maxLen := toInt (toInt size - U32_SIZE) }
  let state ← buildString start IPCT_GAUSSDB_IP db.ip state
  let state ← buildString start IPCT_GAUSSDB_DBNAME db.dbname state
  let state ← buildString start IPCT_GAUSSDB_USR db.usr state
  let state ← buildString start IPCT_GAUSSDB_PASS db.pass state
  return finishTlv buf state

-- The table `ipc_operators` has no entry for `SNOOPER_OBJ_MAX`.
def buildTlv (memory : Memory) (buf size : ℕ) : SnooperObj → Option (Memory × ℕ)
  | .proc procId => buildTlvProc memory buf size procId
  | .con info => buildTlvContainer memory buf size info
  | .gaussdb db => buildTlvGaussdb memory buf size db
  | .max => none

def buildSnooperTlv (memory : Memory) (cur : ℕ) (maxLen : Int) (fillLen : ℕ) :
    List SnooperObj → Option (Memory × ℕ)
  | [] => some (memory, fillLen)
  | obj :: objs => do
      let (memory, buildLen) ← buildTlv memory cur maxLen.toNat obj
      let maxLen := maxLen - buildLen
      if maxLen < 0 then none
      else buildSnooperTlv memory (cur + buildLen) maxLen (fillLen + buildLen) objs

def buildU32Tlv (type : ℕ) (memory : Memory) (buf : ℕ) (value : UInt32) : Memory × ℕ :=
  let memory := memory.write buf (tlvHeader type U32_SIZE)
  (memory.write (buf + TLV_SIZE) (Memory.encodeU32 value), TLV_SIZE + U32_SIZE)

def buildProbeRangeTlv (memory : Memory) (buf : ℕ) (body : IpcBody) : Memory × ℕ :=
  buildU32Tlv IPCT_PROBE_RANGE memory buf body.probeRangeFlags

def buildProbeFlagsTlv (memory : Memory) (buf : ℕ) (body : IpcBody) : Memory × ℕ :=
  buildU32Tlv IPCT_PROBE_FLAGS memory buf body.probeFlags

def buildSnooperNumTlv (memory : Memory) (buf : ℕ) (body : IpcBody) : Memory × ℕ :=
  buildU32Tlv IPCT_SNOOPER_NUM memory buf body.snooperObjNum

def buildProbeParamsTlv (memory : Memory) (buf : ℕ) (body : IpcBody) : Memory × ℕ :=
  let memory := memory.write buf (tlvHeader IPCT_PROBE_PARAMS PROBE_PARAMS_SIZE)
  (memory.write (buf + TLV_SIZE) body.probeParam.val, TLV_SIZE + PROBE_PARAMS_SIZE)

def buildIpcMsg (memory : Memory) (size : ℕ) (body : IpcBody) : Option Memory := do
  let maxLen := toInt size
  let cur := 0
  let (memory, buildLen) := buildProbeRangeTlv memory cur body
  let maxLen := maxLen - buildLen
  if maxLen ≤ 0 then none
  let cur := cur + buildLen
  let (memory, buildLen) := buildProbeParamsTlv memory cur body
  let maxLen := maxLen - buildLen
  if maxLen ≤ 0 then none
  let cur := cur + buildLen
  let (memory, buildLen) := buildProbeFlagsTlv memory cur body
  let maxLen := maxLen - buildLen
  if maxLen ≤ 0 then none
  let cur := cur + buildLen
  let (memory, buildLen) := buildSnooperNumTlv memory cur body
  let maxLen := maxLen - buildLen
  if maxLen < 0 then none
  let cur := cur + buildLen
  let (memory, fillLen) ← buildSnooperTlv memory cur maxLen cur body.objs
  if fillLen ≠ size then none
  return memory

-- `malloc` says whether the one allocation, which is then cleared, succeeds.
def createIpcMsg (malloc : Bool) (body : IpcBody) (msgType : Int) : Option IpcMsg := do
  let msgLen := calcIpcMsgLen body
  if !malloc then none
  let msg ← buildIpcMsg (fun _ => 0) msgLen body
  return { msgType := msgType, msgLen := msgLen, msg := msg }

end Gopher.Ipc
