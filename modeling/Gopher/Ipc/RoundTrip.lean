import Gopher.Ipc.Build
import Gopher.Ipc.Termination

namespace Gopher.Ipc

open Gopher.Lib

def SnooperObj.isProc : SnooperObj → Bool
  | proc _ => true
  | _ => false

-- Two pointers denote the same string. NULL denotes none.
def SameString (sent received : CharPtr) : Prop := sent.map cstr = received.map cstr

def SameObj : SnooperObj → SnooperObj → Prop
  | .proc sent, .proc received => sent = received
  | .con sent, .con received =>
      sent.flags = received.flags ∧ sent.cpucgInode = received.cpucgInode ∧
        SameString sent.conId received.conId ∧
        SameString sent.containerName received.containerName ∧
        SameString sent.libcPath received.libcPath ∧
        SameString sent.libsslPath received.libsslPath ∧
        SameString sent.podId received.podId ∧ SameString sent.podIpStr received.podIpStr
  | .gaussdb sent, .gaussdb received =>
      sent.port = received.port ∧ SameString sent.ip received.ip ∧
        SameString sent.dbname received.dbname ∧ SameString sent.usr received.usr ∧
        SameString sent.pass received.pass
  | _, _ => False

structure SameBody (sent received : IpcBody) : Prop where
  range : sent.probeRangeFlags = received.probeRangeFlags
  flags : sent.probeFlags = received.probeFlags
  param : sent.probeParam = received.probeParam
  num : sent.snooperObjNum = received.snooperObjNum
  objs : ∀ i : Fin SNOOPER_MAX, i.val < sent.snooperObjNum.toNat →
    SameObj (sent.snooperObjs i) (received.snooperObjs i)

-- The message is created, and whatever follows it in the receive buffer, decoding
-- it into a cleared body takes all of it and gives the body back.
def RoundTrips (malloc : ℕ → Bool) (body : IpcBody) (msgType : Int) : Prop :=
  ∃ msg, createIpcMsg true body msgType = some msg ∧
    ∀ received : Memory, (∀ i < msg.msgLen, received i = msg.msg i) →
      ∃ fuel decoded, deserializeIpcMsg malloc fuel received msg.msgLen .zero =
        some ((msg.msgLen : Int), decoded) ∧ SameBody body decoded

section Received

variable {memory : Memory} {address : ℕ}

theorem isTlv_of_holds {type : ℕ} {value : List UInt8} (htype : type < 65536)
    (hlen : value.length < 65536) (h : memory.Holds address (encodeTlv type value)) :
    isTlv memory address type value.length = true := by
  rw [encodeTlv, tlvHeader, List.append_assoc, Memory.holds_append, Memory.holds_append] at h
  obtain ⟨hfirst, hsecond, -⟩ := h
  rw [Memory.length_encodeU16] at hsecond
  simp [isTlv, Memory.readU16_of_holds hfirst, Memory.readU16_of_holds hsecond,
    Nat.mod_eq_of_lt htype, Nat.mod_eq_of_lt hlen]

theorem value_of_holds {type : ℕ} {value : List UInt8}
    (h : memory.Holds address (encodeTlv type value)) : memory.Holds (address + TLV_SIZE) value := by
  rw [encodeTlv, Memory.holds_append, length_tlvHeader] at h
  exact h.2

theorem fixedTlvs_of_holds {body : IpcBody} (h : memory.Holds 0 (encodeFixed body)) :
    FixedTlvs memory ∧ ∀ target : IpcBody, target.readFixed memory =
      { body with snooperObjs := target.snooperObjs } := by
  have hparam := body.probeParam.property
  simp only [encodeFixed, Memory.holds_append, List.length_append, length_encodeTlv,
    Memory.length_encodeU32, hparam, TLV_SIZE, PROBE_PARAMS_SIZE, Nat.reduceAdd] at h
  obtain ⟨⟨⟨hrange, hparams⟩, hflags⟩, hnum⟩ := h
  have hbytes := Memory.bytes_of_holds (value_of_holds hparams)
  rw [hparam] at hbytes
  simp only [TLV_SIZE, Nat.reduceAdd] at hbytes
  refine ⟨⟨isTlv_of_holds (by decide) (by simp) hrange, ?_,
    isTlv_of_holds (by decide) (by simp) hflags, isTlv_of_holds (by decide) (by simp) hnum⟩,
    fun target => ?_⟩
  · have htlv := isTlv_of_holds (by decide) (by rw [hparam]; decide) hparams
    rwa [hparam] at htlv
  · simp only [IpcBody.readFixed, IpcBody.mk.injEq, and_true]
    exact ⟨Memory.readU32_of_holds (value_of_holds hrange),
      Memory.readU32_of_holds (value_of_holds hnum),
      Memory.readU32_of_holds (value_of_holds hflags), Subtype.ext (by rw [← hbytes])⟩

theorem readU16_encodeObj {obj : SnooperObj} (hwf : obj.WellFormed) (hproc : obj.isProc = false)
    (h : memory.Holds address (encodeObj obj)) : memory.readU16 address ≠ SNOOPER_OBJ_PROC := by
  have htype {type : ℕ} {value : List UInt8} (h : memory.Holds address (encodeTlv type value)) :
      memory.readU16 address = type % 65536 := by
    rw [encodeTlv, tlvHeader, List.append_assoc, Memory.holds_append] at h
    exact Memory.readU16_of_holds h.1
  cases obj with
  | proc procId => cases hproc
  | con info => rw [htype h]; decide
  | gaussdb db => rw [htype h]; decide
  | max => cases hwf

theorem length_encodeProcs {procs : List SnooperObj} (h : ∀ obj ∈ procs, obj.isProc = true) :
    (procs.flatMap encodeObj).length = 8 * procs.length := by
  induction procs with
  | nil => rfl
  | cons obj procs ih =>
      cases obj with
      | proc procId =>
          rw [List.flatMap_cons, List.length_append, List.length_cons,
            ih fun other hother => h other (List.mem_cons_of_mem _ hother)]
          simp only [encodeObj, length_encodeTlv, Memory.length_encodeU32, TLV_SIZE]
          omega
      | con info => cases h _ List.mem_cons_self
      | gaussdb db => cases h _ List.mem_cons_self
      | max => cases h _ List.mem_cons_self

theorem procs_of_holds {procs : List SnooperObj} (hprocs : ∀ obj ∈ procs, obj.isProc = true)
    (h : memory.Holds address (procs.flatMap encodeObj)) (i : ℕ) (hi : i < procs.length) :
    IsProcTlv memory (address + 8 * i) ∧
      procs[i] = .proc (memory.readU32 (address + 8 * i + TLV_SIZE)) := by
  induction procs generalizing address i with
  | nil => cases hi
  | cons obj procs ih =>
      rw [List.flatMap_cons, Memory.holds_append] at h
      cases obj with
      | proc procId =>
          cases i with
          | zero =>
              have htlv := isTlv_of_holds (by decide) (by simp) h.1
              simp only [isTlv, Bool.and_eq_true, decide_eq_true_eq] at htlv
              exact ⟨htlv, congrArg _ (Memory.readU32_of_holds (value_of_holds h.1)).symm⟩
          | succ i =>
              have htail := ih (fun other hother => hprocs other (List.mem_cons_of_mem _ hother))
                h.2 i (by simpa using hi)
              have haddress : address + (encodeObj (.proc procId)).length + 8 * i =
                  address + 8 * (i + 1) := by
                simp only [encodeObj, length_encodeTlv, Memory.length_encodeU32, TLV_SIZE]
                omega
              rwa [haddress] at htail
      | con info => cases hprocs _ List.mem_cons_self
      | gaussdb db => cases hprocs _ List.mem_cons_self
      | max => cases hprocs _ List.mem_cons_self

end Received

section Decode

variable {malloc : ℕ → Bool} {memory : Memory} {buf size count fuel : ℕ}

theorem setObj_eq {body base : IpcBody} (h : body = { base with snooperObjs := body.snooperObjs })
    (index : Fin SNOOPER_MAX) (obj : SnooperObj) :
    body.setObj index obj =
      { base with snooperObjs := Function.update body.snooperObjs index obj } := by
  rw [IpcBody.setObj, h]

-- Process objects only: the loop ends exactly at the end of the message.
theorem deserializeSnooperTlv_procs (malloc : ℕ → Bool) (base : IpcBody) (hcount : 0 < count)
    (hmax : count ≤ SNOOPER_MAX) (hprocs : ProcPrefix memory buf count) (hfuel : 8 * count < fuel) :
    ∃ outcome, deserializeSnooperTlv malloc fuel memory buf (8 * count : ℕ) base = some outcome ∧
      (outcome.1 = (8 * count : ℕ) ∧
        outcome.2 = { base with snooperObjs := outcome.2.snooperObjs } ∧
        ∀ i : Fin SNOOPER_MAX, i.val < count →
          outcome.2.snooperObjs i = .proc (memory.readU32 (buf + 8 * i + TLV_SIZE))) := by
  let inv := fun state : SnooperState => state.AfterProcs memory buf (8 * count) ∧
    state.body = { base with snooperObjs := state.body.snooperObjs } ∧
    ∀ i : Fin SNOOPER_MAX, i.val < state.snooperIndex →
      state.body.snooperObjs i = .proc (memory.readU32 (buf + 8 * i + TLV_SIZE))
  have hstart : inv ⟨(8 * count : ℕ), 0, 0, base⟩ :=
    ⟨⟨rfl, by simp, by dsimp only; omega, by simp [ProcPrefix]⟩, rfl, by simp⟩
  refine Loop.loop_terminates inv _ (fun state => state.maxLen.toNat) ?_ hstart
    (by dsimp only; omega)
  rintro state ⟨hafter, hbase, hdone⟩
  have hoffset := hafter.offset
  have hleft := hafter.maxLen
  have hinside := hafter.inside
  have hindex : state.snooperIndex < SNOOPER_MAX := by omega
  have htlv : IsProcTlv memory (buf + state.offsetLen) := by
    rw [hoffset]
    exact hprocs state.snooperIndex (by omega)
  have hround := snooperRound_proc malloc fuel htlv (by omega) hindex
  have hbase' := setObj_eq hbase ⟨state.snooperIndex, hindex⟩
    (.proc (memory.readU32 (buf + state.offsetLen + TLV_SIZE)))
  have hdone' : ∀ i : Fin SNOOPER_MAX, i.val < state.snooperIndex + 1 →
      (state.nextProc memory buf ⟨state.snooperIndex, hindex⟩).body.snooperObjs i =
        .proc (memory.readU32 (buf + 8 * i + TLV_SIZE)) := by
    intro i hi
    simp only [SnooperState.nextProc, IpcBody.setObj, Function.update_apply, Fin.ext_iff]
    split_ifs with hlast
    · rw [hoffset, hlast]
    · exact hdone i (by omega)
  by_cases hnext : 0 < (state.nextProc memory buf ⟨state.snooperIndex, hindex⟩).maxLen
  · refine .inl ⟨_, hround.trans (if_pos hnext), ⟨hafter.nextProc htlv _ hnext, ?_, hdone'⟩, ?_⟩
    · simp only [SnooperState.nextProc, hbase']
    · simp only [SnooperState.nextProc]
      omega
  · refine .inr ⟨_, hround.trans (if_neg hnext), ?_, ?_, fun i hi => hdone' i ?_⟩
    · simp only [SnooperState.nextProc] at hnext ⊢
      omega
    · simp only [SnooperState.nextProc, hbase']
    · simp only [SnooperState.nextProc] at hnext
      omega

theorem deserializeSnooperTlv_notProc {body : IpcBody} {outcome : Int × IpcBody}
    (hprocs : ProcPrefix memory buf count) (hinside : 8 * count < size)
    (htype : memory.readU16 (buf + 8 * count) ≠ SNOOPER_OBJ_PROC)
    (h : deserializeSnooperTlv malloc fuel memory buf size body = some outcome) :
    outcome.1 = -1 ∨ (size : Int) < outcome.1 := by
  let inv := fun state : SnooperState =>
    state.AfterProcs memory buf size ∧ state.snooperIndex ≤ count
  have hstart : inv ⟨size, 0, 0, body⟩ :=
    ⟨⟨rfl, by simp, by dsimp only; omega, by simp [ProcPrefix]⟩, Nat.zero_le count⟩
  -- before the object that is no process every round goes on
  have hgoes (state : SnooperState) (hinv : inv state) (hlt : state.snooperIndex < count)
      (hindex : state.snooperIndex < SNOOPER_MAX) :
      ∃ next, inv next ∧ snooperRound malloc fuel memory buf state = some (.inl next) := by
    obtain ⟨hafter, -⟩ := hinv
    have hleft := hafter.maxLen
    have htlv : IsProcTlv memory (buf + state.offsetLen) := by
      rw [hafter.offset]
      exact hprocs state.snooperIndex hlt
    have hnext : 0 < (state.nextProc memory buf ⟨state.snooperIndex, hindex⟩).maxLen := by
      simp only [SnooperState.nextProc]
      omega
    exact ⟨_, ⟨hafter.nextProc htlv _ hnext, hlt⟩,
      (snooperRound_proc malloc fuel htlv (by omega) hindex).trans (if_pos hnext)⟩
  refine Loop.loop_post inv (fun result => result.1 = -1 ∨ (size : Int) < result.1)
    (fun state outcome hinv hrun => ?_) hstart h
  by_cases hindex : state.snooperIndex < SNOOPER_MAX
  · by_cases hlt : state.snooperIndex < count
    · obtain ⟨next, hnext, hstep⟩ := hgoes state hinv hlt hindex
      rw [hstep] at hrun
      cases hrun
      exact hnext
    · have hlast : state.snooperIndex = count := by
        have hle := hinv.2
        omega
      rw [← hlast, ← hinv.1.offset] at htype
      obtain ⟨result, rfl, hresult⟩ := snooperRound_notProc hinv.1 htype hrun
      exact hresult
  · simp only [snooperRound, hindex, dite_false, ite_self] at hrun
    cases hrun
    exact .inl rfl

end Decode

theorem length_objs {body : IpcBody} (hnum : body.snooperObjNum.toNat ≤ SNOOPER_MAX) :
    body.objs.length = body.snooperObjNum.toNat := by
  simp only [IpcBody.objs, List.length_take, List.length_ofFn]
  omega

theorem objs_getElem (body : IpcBody) (i : Fin SNOOPER_MAX) (hi : i.val < body.objs.length) :
    body.objs[i.val] = body.snooperObjs i := by
  simp [IpcBody.objs]

theorem exists_first_notProc {objs : List SnooperObj} (h : ∃ obj ∈ objs, obj.isProc = false) :
    ∃ procs obj rest, objs = procs ++ obj :: rest ∧ (∀ other ∈ procs, other.isProc = true) ∧
      obj.isProc = false := by
  obtain ⟨obj, hmem, hobj⟩ := h
  have hfind : (objs.find? fun obj => !obj.isProc).isSome := by
    rw [List.find?_isSome]
    exact ⟨obj, hmem, by simp [hobj]⟩
  obtain ⟨first, hfirst⟩ := Option.isSome_iff_exists.mp hfind
  obtain ⟨hnot, procs, rest, hsplit, hprocs⟩ := List.find?_eq_some_iff_append.mp hfirst
  exact ⟨procs, first, rest, hsplit, by simpa using hprocs, by simpa using hnot⟩

theorem length_encodeObj_pos {obj : SnooperObj} (h : obj.WellFormed) :
    0 < (encodeObj obj).length := by
  cases obj with
  | proc procId => exact Nat.succ_pos 7
  | con info =>
      simp only [encodeObj, length_encodeTlv, TLV_SIZE]
      omega
  | gaussdb db =>
      simp only [encodeObj, length_encodeTlv, TLV_SIZE]
      omega
  | max => cases h

section Body

variable {malloc : ℕ → Bool} {memory : Memory} {body : IpcBody}

theorem deserializeIpcMsg_procs (hnum : body.snooperObjNum.toNat ≤ SNOOPER_MAX)
    (hprocs : ∀ obj ∈ body.objs, obj.isProc = true)
    (hlen : (encodeBody body).length ≤ GOPHER_IPC_MSG_LEN)
    (h : memory.Holds 0 (encodeBody body)) :
    ∃ fuel decoded, deserializeIpcMsg malloc fuel memory (encodeBody body).length .zero =
      some (((encodeBody body).length : Int), decoded) ∧ SameBody body decoded := by
  rw [encodeBody, Memory.holds_append, length_encodeFixed, Nat.zero_add] at h
  obtain ⟨htlvs, hread⟩ := fixedTlvs_of_holds h.1
  have hobjs := procs_of_holds hprocs h.2
  have hlength := length_objs hnum
  have htotal : (encodeBody body).length =
      IPC_TLV_LEN_DEFAULT + 8 * body.snooperObjNum.toNat := by
    rw [encodeBody, List.length_append, length_encodeFixed, length_encodeProcs hprocs,
      length_objs hnum]
  rw [htotal] at hlen ⊢
  obtain ⟨hno, -⟩ | ⟨-, hfixed⟩ := deserializeFixedTlvs_cases memory .zero hlen
  · exact absurd ⟨htlvs, by omega⟩ hno
  rw [hread] at hfixed
  by_cases hzero : body.snooperObjNum.toNat = 0
  · refine ⟨0, { body with snooperObjs := IpcBody.zero.snooperObjs }, ?_,
      ⟨rfl, rfl, rfl, rfl, fun i hi => by omega⟩⟩
    simp only [hzero, Nat.mul_zero, Nat.add_zero, Int.sub_self] at hfixed ⊢
    simp only [deserializeIpcMsg, hfixed, ite_true]
  · obtain ⟨⟨len, decoded⟩, hrun, hlen', hbase, hdecoded⟩ := deserializeSnooperTlv_procs malloc
      { body with snooperObjs := IpcBody.zero.snooperObjs } (by omega) hnum
      (fun i hi => (hobjs i (by omega)).1) (Nat.lt_succ_self _)
    dsimp only at hlen' hbase hdecoded
    have hleft : ((IPC_TLV_LEN_DEFAULT + 8 * body.snooperObjNum.toNat : ℕ) : Int) -
        IPC_TLV_LEN_DEFAULT = (8 * body.snooperObjNum.toNat : ℕ) := by omega
    rw [hleft] at hfixed
    refine ⟨8 * body.snooperObjNum.toNat + 1, decoded, ?_, ?_⟩
    · simp only [deserializeIpcMsg, hfixed, hrun, Option.bind_eq_bind, Option.bind_some, hlen',
        show ¬((8 * body.snooperObjNum.toNat : ℕ) : Int) = 0 by omega,
        show ¬((8 * body.snooperObjNum.toNat : ℕ) : Int) < 0 by omega, ite_false, Int.sub_self,
        Int.natCast_add]
      rfl
    · rw [hbase]
      refine ⟨rfl, rfl, rfl, rfl, fun i hi => ?_⟩
      dsimp only
      rw [hdecoded i hi, ← objs_getElem body i (by omega), (hobjs i.val (by omega)).2]
      exact rfl

-- One object of another type anywhere, and no receive buffer decodes to success.
theorem deserializeIpcMsg_notProc (hwf : ∀ obj ∈ body.objs, obj.WellFormed)
    (hlen : (encodeBody body).length ≤ GOPHER_IPC_MSG_LEN)
    (hobj : ∃ obj ∈ body.objs, obj.isProc = false) (h : memory.Holds 0 (encodeBody body))
    (fuel : ℕ) (outcome : Int × IpcBody)
    (hrun : deserializeIpcMsg malloc fuel memory (encodeBody body).length .zero = some outcome) :
    outcome.1 = -1 := by
  obtain ⟨procs, obj, rest, hsplit, hprocs, hother⟩ := exists_first_notProc hobj
  have hmem : obj ∈ body.objs := by simp [hsplit]
  rw [encodeBody, Memory.holds_append, length_encodeFixed, Nat.zero_add, hsplit,
    List.flatMap_append, List.flatMap_cons, Memory.holds_append, Memory.holds_append,
    length_encodeProcs hprocs] at h
  obtain ⟨-, hpre, hhere, -⟩ := h
  have htype := readU16_encodeObj (hwf obj hmem) hother hhere
  have hbegins : ProcPrefix memory IPC_TLV_LEN_DEFAULT procs.length :=
    fun i hi => (procs_of_holds hprocs hpre i hi).1
  have htotal : (encodeBody body).length = IPC_TLV_LEN_DEFAULT + (8 * procs.length +
      ((encodeObj obj).length + (rest.flatMap encodeObj).length)) := by
    simp only [encodeBody, hsplit, List.flatMap_append, List.flatMap_cons, List.length_append,
      length_encodeFixed, length_encodeProcs hprocs]
  have hpos := length_encodeObj_pos (hwf obj hmem)
  obtain hfailed | ⟨left, hleft, -, hobjs⟩ := deserializeIpcMsg_cases hlen hrun
  · exact hfailed
  · have hrest : left = 8 * procs.length +
        ((encodeObj obj).length + (rest.flatMap encodeObj).length) := by omega
    obtain ⟨hzero, -⟩ | ⟨-, taken, hlow, hhigh, htaken⟩ := hobjs
    · omega
    · rw [hrest] at hhigh htaken
      have hcases := deserializeSnooperTlv_notProc hbegins (by omega) htype htaken
      dsimp only at hcases
      omega

end Body

theorem isProc_of_roundTrips {malloc : ℕ → Bool} {body : IpcBody} {msgType : Int}
    (hwf : ∀ obj ∈ body.objs, obj.WellFormed)
    (hlen : (encodeBody body).length ≤ GOPHER_IPC_MSG_LEN)
    (h : RoundTrips malloc body msgType) : ∀ obj ∈ body.objs, obj.isProc = true := by
  obtain ⟨msg, hmsg, hdecode⟩ := h
  have hsmall := Nat.lt_of_le_of_lt hlen (show GOPHER_IPC_MSG_LEN < 65536 by decide)
  cases hmsg.symm.trans (createIpcMsg_eq body msgType hwf hsmall)
  obtain ⟨fuel, decoded, hrun, -⟩ := hdecode _ fun _ _ => rfl
  by_contra hnot
  simp only [not_forall, Bool.not_eq_true] at hnot
  obtain ⟨obj, hmem, hproc⟩ := hnot
  have hfail := deserializeIpcMsg_notProc hwf hlen ⟨obj, hmem, hproc⟩
    (Memory.write_holds _ _ _) fuel _ hrun
  dsimp only at hfail
  omega

theorem roundTrips_iff (malloc : ℕ → Bool) {body : IpcBody} (msgType : Int)
    (hnum : body.snooperObjNum.toNat ≤ SNOOPER_MAX) (hwf : ∀ obj ∈ body.objs, obj.WellFormed)
    (hlen : (encodeBody body).length ≤ GOPHER_IPC_MSG_LEN) :
    RoundTrips malloc body msgType ↔ ∀ obj ∈ body.objs, obj.isProc = true := by
  refine ⟨isProc_of_roundTrips hwf hlen, fun hprocs => ?_⟩
  have hsmall := Nat.lt_of_le_of_lt hlen (show GOPHER_IPC_MSG_LEN < 65536 by decide)
  refine ⟨_, createIpcMsg_eq body msgType hwf hsmall, fun received hsame => ?_⟩
  have hwritten := Memory.write_holds (fun _ => 0) 0 (encodeBody body)
  exact deserializeIpcMsg_procs hnum hprocs hlen
    (Memory.holds_congr (fun i hi => (hsame i (by simpa using hi)).symm) hwritten)

-- A body with a single object.
def IpcBody.single (obj : SnooperObj) : IpcBody :=
  { IpcBody.zero with snooperObjNum := 1, snooperObjs := fun _ => obj }

theorem objs_single (obj : SnooperObj) : (IpcBody.single obj).objs = [obj] := rfl

theorem length_encodeBody_single (obj : SnooperObj) :
    (encodeBody (.single obj)).length = IPC_TLV_LEN_DEFAULT + (encodeObj obj).length := by
  rw [encodeBody, List.length_append, length_encodeFixed, objs_single, List.flatMap_singleton]

theorem roundTrips_iff_proc : RoundTrips (fun _ => true) (.single (.proc 7)) 1 :=
  (roundTrips_iff _ 1 (by decide) (by simp [objs_single, SnooperObj.WellFormed])
    (by rw [length_encodeBody_single]; decide)).mpr (by simp [objs_single, SnooperObj.isProc])

theorem container_not_roundTrips :
    ¬∀ body : IpcBody, body.snooperObjNum.toNat ≤ SNOOPER_MAX →
      (∀ obj ∈ body.objs, obj.WellFormed) → (encodeBody body).length ≤ GOPHER_IPC_MSG_LEN →
      RoundTrips (fun _ => true) body 1 := by
  intro h
  have hwf : ∀ obj ∈ (IpcBody.single (.con .zero)).objs, obj.WellFormed := by
    simp [objs_single, SnooperObj.WellFormed, SnooperConInfo.strings, SnooperConInfo.zero,
      NulTerminated]
  have hlen : (encodeBody (.single (.con .zero))).length ≤ GOPHER_IPC_MSG_LEN := by
    rw [length_encodeBody_single]
    decide
  have hproc := isProc_of_roundTrips hwf hlen (h _ (by decide) hwf hlen)
  simp [objs_single, SnooperObj.isProc] at hproc

end Gopher.Ipc
