import Gopher.Ipc
import Mathlib.Logic.Function.Basic

namespace Gopher.Ipc

open Gopher.Lib

def SnooperConInfo.zero : SnooperConInfo :=
  { flags := 0, cpucgInode := 0, conId := none, containerName := none, libcPath := none,
    libsslPath := none, podId := none, podIpStr := none }

def SnooperGaussdb.zero : SnooperGaussdb :=
  { port := 0, ip := none, dbname := none, usr := none, pass := none }

-- `recv_ipc_msg` clears the body before it decodes into it.
def IpcBody.zero : IpcBody :=
  { probeRangeFlags := 0, snooperObjNum := 0, probeFlags := 0,
    probeParam := ⟨List.replicate PROBE_PARAMS_SIZE 0, List.length_replicate⟩,
    snooperObjs := fun _ => .proc 0 }

-- The union read as one of its members. A cleared object reads as all zero.
def SnooperObj.conInfo : SnooperObj → SnooperConInfo
  | con info => info
  | _ => .zero

def SnooperObj.gaussdbInfo : SnooperObj → SnooperGaussdb
  | gaussdb db => db
  | _ => .zero

def deserializeTlvProc (memory : Memory) (buf size : ℕ) (obj : SnooperObj) : Int × SnooperObj :=
  if size < TLV_SIZE + U32_SIZE then (-1, obj)
  else if memory.readU16 (buf + 2) ≠ U32_SIZE ∨ memory.readU16 buf ≠ SNOOPER_OBJ_PROC then
    (-1, obj)
  else ((TLV_SIZE + U32_SIZE : ℕ), .proc (memory.readU32 (buf + TLV_SIZE)))

section SubTlv

variable {τ : Type}

structure SubState (τ : Type) where
  offset : ℕ
  target : τ
  err : Bool

-- One round of the inner `do ... while (offset < size)`. `assign` gives the field
-- a subtype is stored in, `malloc` whether the copy made for the sub-TLV at an
-- address is granted. The unknown subtype only leaves the switch, not the loop.
def subTlvRound (assign : ℕ → Option (τ → List UInt8 → τ)) (malloc : ℕ → Bool)
    (memory : Memory) (start size : ℕ) (state : SubState τ) : SubState τ ⊕ SubState τ :=
  let p := start + state.offset
  let len := memory.readU16 (p + 2)
  match assign (memory.readU16 p) with
  | some store =>
      if malloc p then
        let next := {
          offset := state.offset + (len + TLV_SIZE)
          target := store state.target (memory.bytes (p + TLV_SIZE) len)
          err := state.err }
        if next.offset < size then .inl next else .inr next
      else .inr { state with err := true }
  | none =>
      let next := { state with err := true }
      if next.offset < size then .inl next else .inr next

def deserializeSubTlvs (assign : ℕ → Option (τ → List UInt8 → τ)) (malloc : ℕ → Bool)
    (memory : Memory) (start size fuel : ℕ) (state : SubState τ) : Option (SubState τ) :=
  if size ≤ state.offset then some state
  else loop (fun state => some (subTlvRound assign malloc memory start size state)) fuel state

end SubTlv

def assignContainer (type : ℕ) : Option (SnooperConInfo → List UInt8 → SnooperConInfo) :=
  if type = IPCT_CONTAINER_ID then some fun info value => { info with conId := some value }
  else if type = IPCT_CONTAINER_NAME then
    some fun info value => { info with containerName := some value }
  else if type = IPCT_LIBC_PATH then some fun info value => { info with libcPath := some value }
  else if type = IPCT_LIBSSL_PATH then
    some fun info value => { info with libsslPath := some value }
  else if type = IPCT_POD_ID then some fun info value => { info with podId := some value }
  else if type = IPCT_POD_IP then some fun info value => { info with podIpStr := some value }
  else none

def assignGaussdb (type : ℕ) : Option (SnooperGaussdb → List UInt8 → SnooperGaussdb) :=
  if type = IPCT_GAUSSDB_IP then some fun db value => { db with ip := some value }
  else if type = IPCT_GAUSSDB_DBNAME then some fun db value => { db with dbname := some value }
  else if type = IPCT_GAUSSDB_USR then some fun db value => { db with usr := some value }
  else if type = IPCT_GAUSSDB_PASS then some fun db value => { db with pass := some value }
  else none

-- The label `end`: on an error the fields are freed and the object invalidated.
def finishSub {τ : Type} (wrap : τ → SnooperObj) (state : SubState τ) : Int × SnooperObj :=
  if state.err then (-1, .max) else ((state.offset + TLV_SIZE : ℕ), wrap state.target)

def deserializeTlvContainer (malloc : ℕ → Bool) (fuel : ℕ) (memory : Memory) (buf size : ℕ)
    (obj : SnooperObj) : Option (Int × SnooperObj) :=
  if memory.readU16 buf ≠ SNOOPER_OBJ_CON then some (-1, obj)
  else if memory.readU16 (buf + 2) < U32_SIZE + U32_SIZE then some (-1, obj)
  else
    let start := buf + TLV_SIZE
    let info := { obj.conInfo with
      flags := memory.readU32 start
      cpucgInode := memory.readU32 (start + U32_SIZE) }
    (deserializeSubTlvs assignContainer malloc memory start size fuel
      { offset := U32_SIZE + U32_SIZE, target := info, err := false }).map (finishSub .con)

def deserializeTlvGaussdb (malloc : ℕ → Bool) (fuel : ℕ) (memory : Memory) (buf size : ℕ)
    (obj : SnooperObj) : Option (Int × SnooperObj) :=
  if memory.readU16 buf ≠ SNOOPER_OBJ_GAUSSDB then some (-1, obj)
  else if memory.readU16 (buf + 2) < U32_SIZE then some (-1, obj)
  else
    let start := buf + TLV_SIZE
    let db := { obj.gaussdbInfo with port := memory.readU32 start }
    (deserializeSubTlvs assignGaussdb malloc memory start size fuel
      { offset := U32_SIZE, target := db, err := false }).map (finishSub .gaussdb)

-- The entry of `ipc_operators` for a type below `SNOOPER_OBJ_MAX`.
def deserializeTlv (malloc : ℕ → Bool) (fuel : ℕ) (memory : Memory) (type buf size : ℕ)
    (obj : SnooperObj) : Option (Int × SnooperObj) :=
  if type = SNOOPER_OBJ_PROC then some (deserializeTlvProc memory buf size obj)
  else if type = SNOOPER_OBJ_CON then deserializeTlvContainer malloc fuel memory buf size obj
  else deserializeTlvGaussdb malloc fuel memory buf size obj

structure SnooperState where
  maxLen : Int
  offsetLen : ℕ
  snooperIndex : ℕ
  body : IpcBody

def IpcBody.setObj (body : IpcBody) (index : Fin SNOOPER_MAX) (obj : SnooperObj) : IpcBody :=
  { body with snooperObjs := Function.update body.snooperObjs index obj }

-- One round of the outer `do ... while (max_len > 0)`.
def snooperRound (malloc : ℕ → Bool) (fuel : ℕ) (memory : Memory) (buf : ℕ)
    (state : SnooperState) : Option (SnooperState ⊕ Int × IpcBody) :=
  let cur := buf + state.offsetLen
  let type := memory.readU16 cur
  if SNOOPER_OBJ_MAX ≤ type then some (.inr (-1, state.body))
  else if hindex : state.snooperIndex < SNOOPER_MAX then
    let index : Fin SNOOPER_MAX := ⟨state.snooperIndex, hindex⟩
    match deserializeTlv malloc fuel memory type cur state.maxLen.toNat
        (state.body.snooperObjs index) with
    | none => none
    | some (deserializeLen, obj) =>
        let body := state.body.setObj index obj
        if deserializeLen < 0 then some (.inr (-1, body))
        else
          let next := {
            maxLen := state.maxLen - deserializeLen
            offsetLen := state.offsetLen + deserializeLen.toNat
            snooperIndex := state.snooperIndex + 1
            body := body }
          if 0 < next.maxLen then some (.inl next) else some (.inr (next.offsetLen, body))
  else some (.inr (-1, state.body))

def deserializeSnooperTlv (malloc : ℕ → Bool) (fuel : ℕ) (memory : Memory) (buf : ℕ)
    (size : Int) (body : IpcBody) : Option (Int × IpcBody) :=
  loop (snooperRound malloc fuel memory buf) fuel
    { maxLen := size, offsetLen := 0, snooperIndex := 0, body := body }

def isTlv (memory : Memory) (buf type len : ℕ) : Bool :=
  memory.readU16 buf = type && memory.readU16 (buf + 2) = len

def deserializeProbeRangeTlv (memory : Memory) (buf : ℕ) (body : IpcBody) : Int × IpcBody :=
  if !isTlv memory buf IPCT_PROBE_RANGE U32_SIZE then (-1, body)
  else ((U32_SIZE + TLV_SIZE : ℕ),
    { body with probeRangeFlags := memory.readU32 (buf + TLV_SIZE) })

def deserializeProbeParamsTlv (memory : Memory) (buf : ℕ) (body : IpcBody) : Int × IpcBody :=
  if !isTlv memory buf IPCT_PROBE_PARAMS PROBE_PARAMS_SIZE then (-1, body)
  else ((PROBE_PARAMS_SIZE + TLV_SIZE : ℕ),
    { body with probeParam :=
        ⟨memory.bytes (buf + TLV_SIZE) PROBE_PARAMS_SIZE, Memory.length_bytes _ _ _⟩ })

def deserializeProbeFlagsTlv (memory : Memory) (buf : ℕ) (body : IpcBody) : Int × IpcBody :=
  if !isTlv memory buf IPCT_PROBE_FLAGS U32_SIZE then (-1, body)
  else ((U32_SIZE + TLV_SIZE : ℕ),
    { body with probeFlags := memory.readU32 (buf + TLV_SIZE) })

def deserializeSnooperNumTlv (memory : Memory) (buf : ℕ) (body : IpcBody) : Int × IpcBody :=
  if !isTlv memory buf IPCT_SNOOPER_NUM U32_SIZE then (-1, body)
  else ((U32_SIZE + TLV_SIZE : ℕ),
    { body with snooperObjNum := memory.readU32 (buf + TLV_SIZE) })

structure Cursor where
  maxLen : Int
  offset : ℕ
  body : IpcBody

-- The stanza repeated after each of the four fixed TLVs: give up on -1 and when
-- more was consumed than the message has.
def Cursor.advance (cursor : Cursor) (deserialize : ℕ → IpcBody → Int × IpcBody) :
    Except (Int × IpcBody) Cursor :=
  let (len, body) := deserialize cursor.offset cursor.body
  if len < 0 then .error (-1, body)
  else if cursor.maxLen - len < 0 then .error (-1, body)
  else .ok { maxLen := cursor.maxLen - len, offset := cursor.offset + len.toNat, body := body }

def deserializeFixedTlvs (memory : Memory) (msgLen : ℕ) (body : IpcBody) :
    Except (Int × IpcBody) Cursor := do
  let cursor : Cursor := { maxLen := toInt msgLen, offset := 0, body := body }
  let cursor ← cursor.advance (deserializeProbeRangeTlv memory)
  let cursor ← cursor.advance (deserializeProbeParamsTlv memory)
  let cursor ← cursor.advance (deserializeProbeFlagsTlv memory)
  cursor.advance (deserializeSnooperNumTlv memory)

def deserializeIpcMsg (malloc : ℕ → Bool) (fuel : ℕ) (memory : Memory) (msgLen : ℕ)
    (body : IpcBody) : Option (Int × IpcBody) :=
  match deserializeFixedTlvs memory msgLen body with
  | .error failed => some failed
  | .ok cursor =>
      if cursor.maxLen = 0 then some (cursor.offset, cursor.body)
      else do
        let (len, body) ← deserializeSnooperTlv malloc fuel memory cursor.offset cursor.maxLen
          cursor.body
        if len < 0 then return (-1, body)
        else if cursor.maxLen - len < 0 then return (-1, body)
        else return (cursor.offset + len, body)

end Gopher.Ipc
