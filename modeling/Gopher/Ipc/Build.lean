import Gopher.Ipc

namespace Gopher.Ipc

open Gopher.Lib

-- The string a pointer denotes, without its terminating NUL.
def cstr (block : List UInt8) : List UInt8 := block.takeWhile (· != 0)

def NulTerminated (field : CharPtr) : Prop := ∀ block, field = some block → 0 ∈ block

-- The wire format: what each part of a body looks like between sender and receiver.
def encodeString (type : ℕ) : CharPtr → List UInt8
  | none => []
  | some block => tlvHeader type (strlen block + 1) ++ (cstr block ++ [0])

def encodeStrings (fields : List (ℕ × CharPtr)) : List UInt8 :=
  fields.flatMap fun field => encodeString field.1 field.2

-- The optional strings of an object in the order they are sent.
def SnooperConInfo.strings (info : SnooperConInfo) : List (ℕ × CharPtr) :=
  [(IPCT_CONTAINER_ID, info.conId), (IPCT_CONTAINER_NAME, info.containerName),
    (IPCT_LIBC_PATH, info.libcPath), (IPCT_LIBSSL_PATH, info.libsslPath),
    (IPCT_POD_ID, info.podId), (IPCT_POD_IP, info.podIpStr)]

def SnooperGaussdb.strings (db : SnooperGaussdb) : List (ℕ × CharPtr) :=
  [(IPCT_GAUSSDB_IP, db.ip), (IPCT_GAUSSDB_DBNAME, db.dbname), (IPCT_GAUSSDB_USR, db.usr),
    (IPCT_GAUSSDB_PASS, db.pass)]

def encodeContainer (info : SnooperConInfo) : List UInt8 :=
  Memory.encodeU32 info.flags ++ Memory.encodeU32 info.cpucgInode ++ encodeStrings info.strings

def encodeGaussdb (db : SnooperGaussdb) : List UInt8 :=
  Memory.encodeU32 db.port ++ encodeStrings db.strings

def encodeTlv (type : ℕ) (value : List UInt8) : List UInt8 :=
  tlvHeader type value.length ++ value

def encodeObj : SnooperObj → List UInt8
  | .proc procId => encodeTlv SNOOPER_OBJ_PROC (Memory.encodeU32 procId)
  | .con info => encodeTlv SNOOPER_OBJ_CON (encodeContainer info)
  | .gaussdb db => encodeTlv SNOOPER_OBJ_GAUSSDB (encodeGaussdb db)
  | .max => []

def encodeFixed (body : IpcBody) : List UInt8 :=
  encodeTlv IPCT_PROBE_RANGE (Memory.encodeU32 body.probeRangeFlags) ++
    encodeTlv IPCT_PROBE_PARAMS body.probeParam.val ++
    encodeTlv IPCT_PROBE_FLAGS (Memory.encodeU32 body.probeFlags) ++
    encodeTlv IPCT_SNOOPER_NUM (Memory.encodeU32 body.snooperObjNum)

def encodeBody (body : IpcBody) : List UInt8 :=
  encodeFixed body ++ body.objs.flatMap encodeObj

-- A body a caller may hand over: every object has one of the three real types
-- and every string ends somewhere.
def SnooperObj.WellFormed : SnooperObj → Prop
  | proc _ => True
  | con info => ∀ field ∈ info.strings, NulTerminated field.2
  | gaussdb db => ∀ field ∈ db.strings, NulTerminated field.2
  | max => False

@[simp] theorem length_tlvHeader (type len : ℕ) : (tlvHeader type len).length = TLV_SIZE := rfl

@[simp] theorem length_encodeTlv (type : ℕ) (value : List UInt8) :
    (encodeTlv type value).length = TLV_SIZE + value.length := by
  simp [encodeTlv]

theorem strlen_eq (block : List UInt8) : strlen block = (cstr block).length := rfl

theorem length_encodeString (type : ℕ) (field : CharPtr) :
    (encodeString type field).length = stringTlvLen field := by
  cases field with
  | none => rfl
  | some block =>
      simp only [encodeString, stringTlvLen, List.length_append, length_tlvHeader, strlen_eq,
        List.length_singleton]
      omega

theorem length_encodeFixed (body : IpcBody) :
    (encodeFixed body).length = IPC_TLV_LEN_DEFAULT := by
  have hparam := body.probeParam.property
  simp only [encodeFixed, List.length_append, length_encodeTlv, Memory.length_encodeU32, hparam]
  rfl

theorem toInt_of_bounds {n : Int} (hlow : -2147483648 ≤ n) (hhigh : n < 2147483648) :
    toInt n = n := by
  unfold toInt
  exact Int.bmod_eq_of_le (by omega) (by omega)

-- Copying `strlen + 1` bytes of a terminated block takes the string and its NUL.
theorem take_strlen {block : List UInt8} (h : 0 ∈ block) :
    block.take (strlen block + 1) = cstr block ++ [0] := by
  induction block with
  | nil => simp at h
  | cons byte rest ih =>
      by_cases hz : byte = 0
      · subst hz
        simp [strlen, cstr]
      · have hrest : 0 ∈ rest := by simpa [Ne.symm hz] using h
        have htail := ih hrest
        simp only [strlen, cstr] at htail ⊢
        simp [hz, htail]

theorem buildString_eq (memory : Memory) (start type : ℕ) (field : CharPtr)
    (done : List UInt8) (maxLen : Int) (hfield : NulTerminated field)
    (hlen : ((encodeString type field).length : Int) ≤ maxLen) (hmax : maxLen < 2147483648)
    (hdone : done.length + (encodeString type field).length < 65536) :
    buildString start type field ⟨memory.write start done, done.length, maxLen⟩ =
      some ⟨memory.write start (done ++ encodeString type field),
        (done ++ encodeString type field).length,
        maxLen - (encodeString type field).length⟩ := by
  cases field with
  | none => simp [buildString, encodeString]
  | some block =>
      have hnul := hfield block rfl
      rw [length_encodeString] at hlen hdone ⊢
      simp only [stringTlvLen, TLV_SIZE] at hlen hdone
      have hstr := strlen_eq block
      have h2nd : (strlen block + 1 + TLV_SIZE) % 2 ^ 32 = strlen block + 1 + TLV_SIZE := by
        simp only [TLV_SIZE]
        omega
      have h16 : (strlen block + 1 + TLV_SIZE + 65536 - TLV_SIZE) % 65536 = strlen block + 1 := by
        simp only [TLV_SIZE]
        omega
      have hrest : toInt (maxLen - (strlen block + 1 + TLV_SIZE : ℕ)) =
          maxLen - (strlen block + 1 + TLV_SIZE : ℕ) := by
        apply toInt_of_bounds <;> simp only [TLV_SIZE] <;> omega
      have hroom : ¬maxLen - ((strlen block + 1 + TLV_SIZE : ℕ) : Int) < 0 := by
        simp only [TLV_SIZE]
        omega
      have hmemory : ((memory.write start done).write (start + done.length)
            (tlvHeader type (strlen block + 1))).write (start + done.length + TLV_SIZE)
            (cstr block ++ [0]) =
          memory.write start (done ++ encodeString type (some block)) := by
        rw [Memory.write_append, ← length_tlvHeader type (strlen block + 1), Nat.add_assoc,
          ← List.length_append, Memory.write_append, List.append_assoc]
        rfl
      simp only [buildString, h2nd, h16, hrest, hroom, ite_false, take_strlen hnul, hmemory,
        List.length_append, length_encodeString, stringTlvLen, Option.some.injEq,
        BuildState.mk.injEq, true_and]
      simp only [TLV_SIZE]
      omega

theorem buildStrings_eq (memory : Memory) (start : ℕ) (fields : List (ℕ × CharPtr))
    (done : List UInt8) (maxLen : Int) (hfields : ∀ field ∈ fields, NulTerminated field.2)
    (hlen : ((encodeStrings fields).length : Int) ≤ maxLen) (hmax : maxLen < 2147483648)
    (hdone : done.length + (encodeStrings fields).length < 65536) :
    fields.foldlM (fun state field => buildString start field.1 field.2 state)
        ⟨memory.write start done, done.length, maxLen⟩ =
      some ⟨memory.write start (done ++ encodeStrings fields),
        (done ++ encodeStrings fields).length, maxLen - (encodeStrings fields).length⟩ := by
  induction fields generalizing done maxLen with
  | nil => simp [encodeStrings]
  | cons field fields ih =>
      have hcons : encodeStrings (field :: fields) =
          encodeString field.1 field.2 ++ encodeStrings fields := List.flatMap_cons
      simp only [hcons, List.length_append] at hlen hdone ⊢
      have hhead := buildString_eq memory start field.1 field.2 done maxLen
        (hfields field List.mem_cons_self) (by omega) hmax (by omega)
      have htail := ih (done ++ encodeString field.1 field.2)
        (maxLen - (encodeString field.1 field.2).length)
        (fun other h => hfields other (List.mem_cons_of_mem _ h)) (by omega) (by omega)
        (by simp only [List.length_append]; omega)
      rw [List.foldlM_cons, hhead, Option.bind_eq_bind, Option.bind_some, htail]
      simp only [List.append_assoc, List.length_append, Option.some.injEq, BuildState.mk.injEq,
        true_and]
      omega

-- The length of the outer TLV is known and written last.
theorem finishTlv_eq (memory : Memory) (buf type : ℕ) (content : List UInt8) (maxLen : Int)
    (hlen : content.length < 65536) :
    finishTlv buf ⟨(memory.write buf (Memory.encodeU16 type)).write (buf + TLV_SIZE) content,
        content.length, maxLen⟩ =
      (memory.write buf (encodeTlv type content), (encodeTlv type content).length) := by
  have hmod : content.length % 65536 = content.length := Nat.mod_eq_of_lt hlen
  have hbefore : buf + 2 + (Memory.encodeU16 content.length).length ≤ buf + TLV_SIZE := by
    simp [TLV_SIZE]
  have hmemory : ((memory.write buf (Memory.encodeU16 type)).write (buf + TLV_SIZE) content).write
        (buf + 2) (Memory.encodeU16 content.length) =
      memory.write buf (encodeTlv type content) := by
    rw [Memory.write_comm _ hbefore, ← Memory.length_encodeU16 type, Memory.write_append]
    exact Memory.write_append memory buf (tlvHeader type content.length) content
  simp only [finishTlv, hmemory, hmod, length_encodeTlv, Prod.mk.injEq, true_and]
  omega

theorem buildTlvContainer_eq (memory : Memory) (buf size : ℕ) (info : SnooperConInfo)
    (hwf : (SnooperObj.con info).WellFormed)
    (hobj : (encodeObj (.con info)).length < 65536)
    (hlen : (encodeObj (.con info)).length ≤ size) (hsize : size < 2147483648) :
    buildTlvContainer memory buf size info =
      some (memory.write buf (encodeObj (.con info)), (encodeObj (.con info)).length) := by
  let content := Memory.encodeU32 info.flags ++ Memory.encodeU32 info.cpucgInode
  simp only [encodeObj, length_encodeTlv, encodeContainer, List.length_append,
    Memory.length_encodeU32, TLV_SIZE] at hobj hlen
  have hmax : toInt (toInt (toInt size - U32_SIZE) - (U32_SIZE + U32_SIZE : ℕ)) =
      (size : Int) - 12 := by
    simp only [U32_SIZE]
    rw [toInt_of_bounds (n := (size : Int)) (by omega) (by omega),
      toInt_of_bounds (n := (size : Int) - (4 : ℕ)) (by omega) (by omega),
      toInt_of_bounds (by omega) (by omega)]
    omega
  have hfold : buildTlvContainer memory buf size info =
      (info.strings.foldlM (fun state field => buildString (buf + TLV_SIZE) field.1 field.2 state)
        ⟨(memory.write buf (Memory.encodeU16 SNOOPER_OBJ_CON)).write (buf + TLV_SIZE) content,
          content.length, size - 12⟩ >>= fun state => some (finishTlv buf state)) := by
    rw [← hmax, ← Memory.write_append]
    simp only [SnooperConInfo.strings, List.foldlM_cons, List.foldlM_nil, bind_assoc, pure_bind]
    rfl
  rw [hfold, buildStrings_eq _ _ _ _ _ hwf (by omega) (by omega) (by simp [content]; omega)]
  exact congrArg some (finishTlv_eq memory buf SNOOPER_OBJ_CON _ _ (by simp [content]; omega))

theorem buildTlvGaussdb_eq (memory : Memory) (buf size : ℕ) (db : SnooperGaussdb)
    (hwf : (SnooperObj.gaussdb db).WellFormed)
    (hobj : (encodeObj (.gaussdb db)).length < 65536)
    (hlen : (encodeObj (.gaussdb db)).length ≤ size) (hsize : size < 2147483648) :
    buildTlvGaussdb memory buf size db =
      some (memory.write buf (encodeObj (.gaussdb db)), (encodeObj (.gaussdb db)).length) := by
  let content := Memory.encodeU32 db.port
  simp only [encodeObj, length_encodeTlv, encodeGaussdb, List.length_append,
    Memory.length_encodeU32, TLV_SIZE] at hobj hlen
  have hmax : toInt (toInt size - U32_SIZE) = (size : Int) - 4 := by
    simp only [U32_SIZE]
    rw [toInt_of_bounds (n := (size : Int)) (by omega) (by omega),
      toInt_of_bounds (by omega) (by omega)]
    omega
  have hfold : buildTlvGaussdb memory buf size db =
      (db.strings.foldlM (fun state field => buildString (buf + TLV_SIZE) field.1 field.2 state)
        ⟨(memory.write buf (Memory.encodeU16 SNOOPER_OBJ_GAUSSDB)).write (buf + TLV_SIZE) content,
          content.length, size - 4⟩ >>= fun state => some (finishTlv buf state)) := by
    rw [← hmax]
    simp only [SnooperGaussdb.strings, List.foldlM_cons, List.foldlM_nil, bind_assoc, pure_bind]
    rfl
  rw [hfold, buildStrings_eq _ _ _ _ _ hwf (by omega) (by omega) (by simp [content]; omega)]
  exact congrArg some (finishTlv_eq memory buf SNOOPER_OBJ_GAUSSDB _ _ (by simp [content]; omega))

theorem buildTlv_eq (memory : Memory) (buf size : ℕ) (obj : SnooperObj) (hwf : obj.WellFormed)
    (hobj : (encodeObj obj).length < 65536) (hlen : (encodeObj obj).length ≤ size)
    (hsize : size < 2147483648) :
    buildTlv memory buf size obj =
      some (memory.write buf (encodeObj obj), (encodeObj obj).length) := by
  cases obj with
  | proc procId =>
      simp only [encodeObj, length_encodeTlv, Memory.length_encodeU32] at hlen
      have hroom : ¬size < U32_SIZE + TLV_SIZE := by
        simp only [U32_SIZE, TLV_SIZE] at hlen ⊢
        omega
      simp only [buildTlv, buildTlvProc, hroom, ite_false, encodeObj]
      exact congrArg (fun written => some (written, 8)) (Memory.write_append memory buf
        (tlvHeader SNOOPER_OBJ_PROC U32_SIZE) (Memory.encodeU32 procId))
  | con info => exact buildTlvContainer_eq memory buf size info hwf hobj hlen hsize
  | gaussdb db => exact buildTlvGaussdb_eq memory buf size db hwf hobj hlen hsize
  | max => cases hwf

theorem buildSnooperTlv_eq (memory : Memory) (cur : ℕ) (maxLen : Int) (fillLen : ℕ)
    (objs : List SnooperObj) (hwf : ∀ obj ∈ objs, obj.WellFormed)
    (hobjs : ∀ obj ∈ objs, (encodeObj obj).length < 65536)
    (hlen : ((objs.flatMap encodeObj).length : Int) ≤ maxLen) (hmax : maxLen < 2147483648) :
    buildSnooperTlv memory cur maxLen fillLen objs =
      some (memory.write cur (objs.flatMap encodeObj),
        fillLen + (objs.flatMap encodeObj).length) := by
  induction objs generalizing memory cur maxLen fillLen with
  | nil => simp [buildSnooperTlv]
  | cons obj objs ih =>
      simp only [List.flatMap_cons, List.length_append] at hlen ⊢
      have hobj := buildTlv_eq memory cur maxLen.toNat obj (hwf obj List.mem_cons_self)
        (hobjs obj List.mem_cons_self) (by omega) (by omega)
      have hroom : ¬maxLen - ((encodeObj obj).length : Int) < 0 := by omega
      simp only [buildSnooperTlv, hobj, Option.bind_eq_bind, Option.bind_some, hroom, ite_false]
      rw [ih _ _ _ _ (fun other h => hwf other (List.mem_cons_of_mem _ h))
          (fun other h => hobjs other (List.mem_cons_of_mem _ h)) (by omega) (by omega),
        Memory.write_append, Nat.add_assoc]

theorem getTlvLen_eq (obj : SnooperObj) (hlen : (encodeObj obj).length < 2 ^ 32) :
    getTlvLen obj = (encodeObj obj).length := by
  cases obj with
  | proc procId => rfl
  | con info =>
      simp only [encodeObj, length_encodeTlv, encodeContainer, encodeStrings,
        SnooperConInfo.strings, List.flatMap_cons, List.flatMap_nil, List.length_append,
        List.length_nil, length_encodeString, Memory.length_encodeU32] at hlen ⊢
      simp only [getTlvLen, getTlvLenContainer, U32_SIZE]
      omega
  | gaussdb db =>
      simp only [encodeObj, length_encodeTlv, encodeGaussdb, encodeStrings,
        SnooperGaussdb.strings, List.flatMap_cons, List.flatMap_nil, List.length_append,
        List.length_nil, length_encodeString, Memory.length_encodeU32] at hlen ⊢
      simp only [getTlvLen, getTlvLenGaussdb, U32_SIZE]
      omega
  | max => rfl

theorem foldl_getTlvLen_eq (objs : List SnooperObj) (len : ℕ)
    (hlen : len + (objs.flatMap encodeObj).length < 2 ^ 32) :
    objs.foldl (fun len obj => (len + getTlvLen obj) % 2 ^ 32) len =
      len + (objs.flatMap encodeObj).length := by
  induction objs generalizing len with
  | nil => simp
  | cons obj objs ih =>
      simp only [List.flatMap_cons, List.length_append] at hlen ⊢
      have hobj := getTlvLen_eq obj (by omega)
      rw [List.foldl_cons, hobj, Nat.mod_eq_of_lt (by omega), ih _ (by omega)]
      omega

theorem calcIpcMsgLen_eq (body : IpcBody) (hlen : (encodeBody body).length < 2 ^ 32) :
    calcIpcMsgLen body = (encodeBody body).length := by
  simp only [encodeBody, List.length_append, length_encodeFixed] at hlen ⊢
  exact foldl_getTlvLen_eq body.objs IPC_TLV_LEN_DEFAULT hlen

theorem buildU32Tlv_eq (type : ℕ) (memory : Memory) (buf : ℕ) (value : UInt32) :
    buildU32Tlv type memory buf value =
      (memory.write buf (encodeTlv type (Memory.encodeU32 value)), 8) :=
  congrArg (fun written => (written, 8)) (Memory.write_append memory buf
    (tlvHeader type U32_SIZE) (Memory.encodeU32 value))

theorem buildProbeParamsTlv_eq (memory : Memory) (buf : ℕ) (body : IpcBody) :
    buildProbeParamsTlv memory buf body =
      (memory.write buf (encodeTlv IPCT_PROBE_PARAMS body.probeParam.val), 3156) := by
  have hwrite := Memory.write_append memory buf
    (tlvHeader IPCT_PROBE_PARAMS body.probeParam.val.length) body.probeParam.val
  rw [length_tlvHeader, body.probeParam.property] at hwrite
  simp only [buildProbeParamsTlv, hwrite, encodeTlv, body.probeParam.property]
  rfl

theorem write_encodeFixed (memory : Memory) (body : IpcBody) :
    (((memory.write 0 (encodeTlv IPCT_PROBE_RANGE (Memory.encodeU32 body.probeRangeFlags))).write 8
      (encodeTlv IPCT_PROBE_PARAMS body.probeParam.val)).write 3164
      (encodeTlv IPCT_PROBE_FLAGS (Memory.encodeU32 body.probeFlags))).write 3172
      (encodeTlv IPCT_SNOOPER_NUM (Memory.encodeU32 body.snooperObjNum)) =
    memory.write 0 (encodeFixed body) := by
  have hparam := body.probeParam.property
  have hlen (value : UInt32) (type : ℕ) :
      (encodeTlv type (Memory.encodeU32 value)).length = 8 := rfl
  have hrange := Memory.write_append memory 0
    (encodeTlv IPCT_PROBE_RANGE (Memory.encodeU32 body.probeRangeFlags))
    (encodeTlv IPCT_PROBE_PARAMS body.probeParam.val)
  have hflags := Memory.write_append memory 0
    (encodeTlv IPCT_PROBE_RANGE (Memory.encodeU32 body.probeRangeFlags) ++
      encodeTlv IPCT_PROBE_PARAMS body.probeParam.val)
    (encodeTlv IPCT_PROBE_FLAGS (Memory.encodeU32 body.probeFlags))
  have hnum := Memory.write_append memory 0
    (encodeTlv IPCT_PROBE_RANGE (Memory.encodeU32 body.probeRangeFlags) ++
      encodeTlv IPCT_PROBE_PARAMS body.probeParam.val ++
      encodeTlv IPCT_PROBE_FLAGS (Memory.encodeU32 body.probeFlags))
    (encodeTlv IPCT_SNOOPER_NUM (Memory.encodeU32 body.snooperObjNum))
  simp only [List.length_append, hlen, length_encodeTlv, hparam, TLV_SIZE, PROBE_PARAMS_SIZE,
    Nat.zero_add, Nat.reduceAdd] at hrange hflags hnum
  rw [hrange, hflags, hnum, encodeFixed]

theorem buildIpcMsg_eq (memory : Memory) (body : IpcBody)
    (hwf : ∀ obj ∈ body.objs, obj.WellFormed)
    (hobjs : ∀ obj ∈ body.objs, (encodeObj obj).length < 65536)
    (hlen : (encodeBody body).length < 2147483648) :
    buildIpcMsg memory (encodeBody body).length body =
      some (memory.write 0 (encodeBody body)) := by
  have hbody : (encodeBody body).length = 3180 + (body.objs.flatMap encodeObj).length := by
    rw [encodeBody, List.length_append, length_encodeFixed]
    rfl
  have hsize : toInt ((encodeBody body).length : ℕ) = (encodeBody body).length :=
    toInt_of_bounds (by omega) (by omega)
  have hbuild := buildSnooperTlv_eq (memory.write 0 (encodeFixed body)) 3180
    (((encodeBody body).length : Int) - (8 : ℕ) - (3156 : ℕ) - (8 : ℕ) - (8 : ℕ)) 3180 body.objs hwf
    hobjs (by omega) (by omega)
  have hall := Memory.write_append memory 0 (encodeFixed body) (body.objs.flatMap encodeObj)
  rw [length_encodeFixed] at hall
  simp only [buildIpcMsg, buildProbeRangeTlv, buildProbeFlagsTlv, buildSnooperNumTlv,
    buildU32Tlv_eq, buildProbeParamsTlv_eq, hsize, Nat.zero_add, Nat.reduceAdd,
    write_encodeFixed]
  rw [if_neg (by omega), if_neg (by omega), if_neg (by omega), if_neg (by omega)]
  rw [hbuild, Option.bind_eq_bind, Option.bind_some, if_neg (by simpa using hbody.symm)]
  exact congrArg some hall

theorem length_encodeObj_le {body : IpcBody} {obj : SnooperObj} (hobj : obj ∈ body.objs) :
    (encodeObj obj).length ≤ (encodeBody body).length := by
  have hsub : (encodeObj obj).Sublist (body.objs.flatMap encodeObj) := by
    rw [List.flatMap_def]
    exact List.sublist_flatten_of_mem (List.mem_map_of_mem hobj)
  have hle := hsub.length_le
  rw [encodeBody, List.length_append]
  omega

-- Every message of a well-formed body that fits is created, and is its encoding.
theorem createIpcMsg_eq (body : IpcBody) (msgType : Int)
    (hwf : ∀ obj ∈ body.objs, obj.WellFormed) (hlen : (encodeBody body).length < 65536) :
    createIpcMsg true body msgType = some {
      msgType := msgType
      msgLen := (encodeBody body).length
      msg := Memory.write (fun _ => 0) 0 (encodeBody body) } := by
  have hcalc := calcIpcMsgLen_eq body (by omega)
  have hobjs : ∀ obj ∈ body.objs, (encodeObj obj).length < 65536 :=
    fun obj hobj => Nat.lt_of_le_of_lt (length_encodeObj_le hobj) hlen
  have hbuild := buildIpcMsg_eq (fun _ => 0) body hwf hobjs (by omega)
  simp only [createIpcMsg, hcalc, hbuild, Bool.not_true, Bool.false_eq_true, ite_false,
    Option.bind_eq_bind, Option.bind_some]
  rfl

theorem length_flatMap_encodeObj_le {objs : List SnooperObj} {bound : ℕ}
    (hobjs : ∀ obj ∈ objs, (encodeObj obj).length ≤ bound) :
    (objs.flatMap encodeObj).length ≤ objs.length * bound := by
  induction objs with
  | nil => exact Nat.zero_le _
  | cons obj objs ih =>
      have hobj := hobjs obj List.mem_cons_self
      have hrest := ih fun other h => hobjs other (List.mem_cons_of_mem _ h)
      rw [List.flatMap_cons, List.length_append, List.length_cons, Nat.succ_mul]
      omega

-- As long as each object fits the 16 bits of its length word, the computed length is
-- what the builder writes: all of these bytes, whatever was there before, and no other.
theorem buildIpcMsg_fills (body : IpcBody) (hwf : ∀ obj ∈ body.objs, obj.WellFormed)
    (hobjs : ∀ obj ∈ body.objs, (encodeObj obj).length ≤ 65535) :
    ∃ written : List UInt8, written.length = calcIpcMsgLen body ∧
      ∀ memory : Memory, ∃ built : Memory,
        buildIpcMsg memory (calcIpcMsgLen body) body = some built ∧ built.Holds 0 written ∧
        ∀ i, calcIpcMsgLen body ≤ i → built i = memory i := by
  have hnum : body.objs.length ≤ SNOOPER_MAX := by
    rw [IpcBody.objs, List.length_take, List.length_ofFn]
    omega
  have hlen : (encodeBody body).length < 2147483648 := by
    have hall := length_flatMap_encodeObj_le hobjs
    have hmax := Nat.mul_le_mul_right 65535 hnum
    simp only [SNOOPER_MAX] at hmax
    have hfixed : IPC_TLV_LEN_DEFAULT = 3180 := rfl
    rw [encodeBody, List.length_append, length_encodeFixed]
    omega
  have hcalc := calcIpcMsgLen_eq body (by omega)
  have hsmall : ∀ obj ∈ body.objs, (encodeObj obj).length < 65536 :=
    fun obj hobj => Nat.lt_succ_of_le (hobjs obj hobj)
  refine ⟨encodeBody body, hcalc.symm, fun memory => ?_⟩
  rw [hcalc]
  refine ⟨memory.write 0 (encodeBody body), buildIpcMsg_eq memory body hwf hsmall hlen,
    Memory.write_holds memory 0 _, fun i hi => ?_⟩
  apply Memory.write_of_outside
  omega

-- A process and a container with a name, among the 100 places of the array.
def namedContainerBody : IpcBody where
  probeRangeFlags := 1
  snooperObjNum := 2
  probeFlags := 0
  probeParam := ⟨List.replicate PROBE_PARAMS_SIZE 1, List.length_replicate⟩
  snooperObjs := fun i => if i.val = 0 then .proc 7 else .con
    { flags := 0, cpucgInode := 1, conId := some [97, 98, 0], containerName := none,
      libcPath := none, libsslPath := none, podId := none, podIpStr := none }

theorem buildIpcMsg_fills_namedContainer :
    ∃ written : List UInt8, written.length = calcIpcMsgLen namedContainerBody ∧
      ∀ memory : Memory, ∃ built : Memory,
        buildIpcMsg memory (calcIpcMsgLen namedContainerBody) namedContainerBody = some built ∧
        built.Holds 0 written ∧ ∀ i, calcIpcMsgLen namedContainerBody ≤ i → built i = memory i := by
  have hobjs : namedContainerBody.objs = [.proc 7, .con
      { flags := 0, cpucgInode := 1, conId := some [97, 98, 0], containerName := none,
        libcPath := none, libsslPath := none, podId := none, podIpStr := none }] := rfl
  apply buildIpcMsg_fills
  · rw [hobjs]
    simp [SnooperObj.WellFormed, SnooperConInfo.strings, NulTerminated]
  · rw [hobjs]
    decide

end Gopher.Ipc
