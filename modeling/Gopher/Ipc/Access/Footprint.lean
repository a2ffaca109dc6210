import Gopher.Ipc.Access

namespace Gopher.Ipc

open Gopher.Lib

-- The two buffers hold the same bytes where the access looks.
def Access.Agree (memory other : Memory) (access : Access) : Prop :=
  ∀ i < access.bytes.len, other (access.bytes.address + i) = memory (access.bytes.address + i)

section Values

variable {memory other : Memory} {address : ℕ}

theorem readU16_congr (h : (Access.read ⟨address, 2⟩).Agree memory other) :
    other.readU16 address = memory.readU16 address := by
  have hlow := h 0 Nat.zero_lt_two
  have hhigh := h 1 Nat.one_lt_two
  simp only [Access.bytes, Nat.add_zero] at hlow hhigh
  rw [Memory.readU16, Memory.readU16, hlow, hhigh]

theorem readU32_congr (h : (Access.read ⟨address, U32_SIZE⟩).Agree memory other) :
    other.readU32 address = memory.readU32 address := by
  have hfirst : other.readU16 address = memory.readU16 address :=
    readU16_congr fun i hi => h i (Nat.lt_of_lt_of_le hi (show 2 ≤ 4 by omega))
  have hsecond : other.readU16 (address + 2) = memory.readU16 (address + 2) := by
    apply readU16_congr
    intro i hi
    have hbyte := h (2 + i) (Nat.add_lt_add_left hi 2)
    simp only [Access.bytes, ← Nat.add_assoc] at hbyte ⊢
    exact hbyte
  rw [Memory.readU32, Memory.readU32, hfirst, hsecond]

theorem bytes_congr {access : Access} (h : access.Agree memory other) :
    other.bytes access.bytes.address access.bytes.len =
      memory.bytes access.bytes.address access.bytes.len := by
  apply List.map_congr_left
  intro i hi
  exact h i (List.mem_range.mp hi)

end Values

section SubTlv

variable {τ : Type} {assign : ℕ → Option (τ → List UInt8 → τ)} {malloc : ℕ → Bool}
  {memory other : Memory} {own : Span} {size : ℕ}

theorem subTlvRound_congr {state : SubState τ}
    (h : ∀ access ∈ subTlvAccesses assign malloc memory own state, access.Agree memory other) :
    subTlvRound assign malloc other own.address size state =
      subTlvRound assign malloc memory own.address size state := by
  rw [subTlvAccesses, List.forall_mem_cons] at h
  obtain ⟨htype, hrest⟩ := h
  rw [subTlvRound, subTlvRound, readU16_congr htype]
  cases hassign : assign (memory.readU16 (own.address + state.offset)) with
  | none => rfl
  | some store =>
      rw [hassign] at hrest
      simp only [Option.isNone_some, Bool.false_eq_true, ite_false, List.forall_mem_cons] at hrest
      obtain ⟨hlen, hcopy⟩ := hrest
      rw [readU16_congr hlen]
      cases hmalloc : malloc (own.address + state.offset) with
      | false => simp
      | true =>
          rw [hmalloc] at hcopy
          simp only [ite_true, List.forall_mem_singleton] at hcopy
          have hvalue := bytes_congr hcopy
          simp only [Access.bytes] at hvalue
          simp only [hvalue]

theorem deserializeSubTlvs_congr {fuel : ℕ} {state : SubState τ}
    (h : ∀ access ∈ deserializeSubTlvsAccesses assign malloc memory own size fuel state,
      access.Agree memory other) :
    deserializeSubTlvs assign malloc other own.address size fuel state =
      deserializeSubTlvs assign malloc memory own.address size fuel state := by
  rw [deserializeSubTlvsAccesses] at h
  rw [deserializeSubTlvs, deserializeSubTlvs]
  split_ifs at h ⊢
  · rfl
  · apply Loop.loop_congr
    intro visited hvisited
    exact congrArg some (subTlvRound_congr fun access haccess =>
      h access (List.mem_flatMap.mpr ⟨visited, hvisited, haccess⟩))

end SubTlv

section Objects

variable {malloc : ℕ → Bool} {fuel : ℕ} {memory other : Memory} {buf size : ℕ}

theorem deserializeTlvProc_congr (obj : SnooperObj)
    (h : ∀ access ∈ deserializeTlvProcAccesses memory buf size, access.Agree memory other) :
    deserializeTlvProc other buf size obj = deserializeTlvProc memory buf size obj := by
  rw [deserializeTlvProcAccesses] at h
  rw [deserializeTlvProc, deserializeTlvProc]
  by_cases hroom : size < TLV_SIZE + U32_SIZE
  · simp only [hroom, ite_true]
  · simp only [hroom, ite_false, List.forall_mem_cons] at h ⊢
    obtain ⟨hlen, hrest⟩ := h
    rw [readU16_congr hlen]
    by_cases hlength : memory.readU16 (buf + 2) = U32_SIZE
    · simp only [hlength, ne_eq, not_true_eq_false, ite_false, List.forall_mem_cons,
        false_or] at hrest ⊢
      obtain ⟨htype, hvalue⟩ := hrest
      rw [readU16_congr htype]
      by_cases hproc : memory.readU16 buf = SNOOPER_OBJ_PROC
      · simp only [hproc, not_true_eq_false, ite_false, List.forall_mem_singleton] at hvalue ⊢
        rw [readU32_congr hvalue]
      · simp only [hproc, not_false_eq_true, ite_true]
    · simp only [hlength, ne_eq, not_false_eq_true, true_or, ite_true]

theorem deserializeTlvContainer_congr (obj : SnooperObj)
    (h : ∀ access ∈ deserializeTlvContainerAccesses malloc fuel memory buf size obj,
      access.Agree memory other) :
    deserializeTlvContainer malloc fuel other buf size obj =
      deserializeTlvContainer malloc fuel memory buf size obj := by
  rw [deserializeTlvContainerAccesses, List.forall_mem_cons] at h
  obtain ⟨htype, hrest⟩ := h
  rw [deserializeTlvContainer, deserializeTlvContainer, readU16_congr htype]
  by_cases hcon : memory.readU16 buf = SNOOPER_OBJ_CON
  · simp only [hcon, ne_eq, not_true_eq_false, ite_false, List.forall_mem_cons] at hrest ⊢
    obtain ⟨hlen, hrest⟩ := hrest
    rw [readU16_congr hlen]
    by_cases hshort : memory.readU16 (buf + 2) < U32_SIZE + U32_SIZE
    · simp only [hshort, ite_true]
    · simp only [hshort, ite_false, List.forall_mem_cons] at hrest ⊢
      obtain ⟨hflags, hinode, hsub⟩ := hrest
      rw [readU32_congr hflags, readU32_congr hinode]
      exact congrArg (Option.map (finishSub .con)) (deserializeSubTlvs_congr hsub)
  · simp only [hcon, ne_eq, not_false_eq_true, ite_true]

theorem deserializeTlvGaussdb_congr (obj : SnooperObj)
    (h : ∀ access ∈ deserializeTlvGaussdbAccesses malloc fuel memory buf size obj,
      access.Agree memory other) :
    deserializeTlvGaussdb malloc fuel other buf size obj =
      deserializeTlvGaussdb malloc fuel memory buf size obj := by
  rw [deserializeTlvGaussdbAccesses, List.forall_mem_cons] at h
  obtain ⟨htype, hrest⟩ := h
  rw [deserializeTlvGaussdb, deserializeTlvGaussdb, readU16_congr htype]
  by_cases hgauss : memory.readU16 buf = SNOOPER_OBJ_GAUSSDB
  · simp only [hgauss, ne_eq, not_true_eq_false, ite_false, List.forall_mem_cons] at hrest ⊢
    obtain ⟨hlen, hrest⟩ := hrest
    rw [readU16_congr hlen]
    by_cases hshort : memory.readU16 (buf + 2) < U32_SIZE
    · simp only [hshort, ite_true]
    · simp only [hshort, ite_false, List.forall_mem_cons] at hrest ⊢
      obtain ⟨hport, hsub⟩ := hrest
      rw [readU32_congr hport]
      exact congrArg (Option.map (finishSub .gaussdb)) (deserializeSubTlvs_congr hsub)
  · simp only [hgauss, ne_eq, not_false_eq_true, ite_true]

theorem snooperRound_congr {state : SnooperState}
    (h : ∀ access ∈ snooperRoundAccesses malloc fuel memory buf state,
      access.Agree memory other) :
    snooperRound malloc fuel other buf state = snooperRound malloc fuel memory buf state := by
  rw [snooperRoundAccesses, List.forall_mem_cons] at h
  obtain ⟨htype, hrest⟩ := h
  simp only [snooperRound, readU16_congr htype]
  by_cases hmax : SNOOPER_OBJ_MAX ≤ memory.readU16 (buf + state.offsetLen)
  · simp only [hmax, ite_true]
  · by_cases hindex : state.snooperIndex < SNOOPER_MAX
    · simp only [hmax, hindex, ite_false, dite_true] at hrest ⊢
      have hobj : deserializeTlv malloc fuel other (memory.readU16 (buf + state.offsetLen))
            (buf + state.offsetLen) state.maxLen.toNat
            (state.body.snooperObjs ⟨state.snooperIndex, hindex⟩) =
          deserializeTlv malloc fuel memory (memory.readU16 (buf + state.offsetLen))
            (buf + state.offsetLen) state.maxLen.toNat
            (state.body.snooperObjs ⟨state.snooperIndex, hindex⟩) := by
        unfold deserializeTlv
        unfold deserializeTlvAccesses at hrest
        split_ifs at hrest ⊢
        · exact congrArg some (deserializeTlvProc_congr _ hrest)
        · exact deserializeTlvContainer_congr _ hrest
        · exact deserializeTlvGaussdb_congr _ hrest
      rw [hobj]
    · simp only [hmax, hindex, ite_false, dite_false]

theorem deserializeSnooperTlv_congr {len : Int} {body : IpcBody}
    (h : ∀ access ∈ deserializeSnooperTlvAccesses malloc fuel memory buf len body,
      access.Agree memory other) :
    deserializeSnooperTlv malloc fuel other buf len body =
      deserializeSnooperTlv malloc fuel memory buf len body := by
  apply Loop.loop_congr
  intro visited hvisited
  apply snooperRound_congr
  intro access haccess
  exact h access (List.mem_flatMap.mpr ⟨visited, hvisited, haccess⟩)

end Objects

section Fixed

variable {memory other : Memory}

theorem isTlv_congr {type len buf : ℕ}
    (h : ∀ access ∈ fixedTlvAccesses memory type len buf, access.Agree memory other) :
    isTlv other buf type len = isTlv memory buf type len ∧
      (isTlv memory buf type len = true →
        (Access.read ⟨buf + TLV_SIZE, len⟩).Agree memory other) := by
  rw [fixedTlvAccesses, List.forall_mem_cons] at h
  obtain ⟨hfirst, hrest⟩ := h
  rw [isTlv, isTlv, readU16_congr hfirst]
  by_cases htype : memory.readU16 buf = type
  · simp only [htype, ne_eq, not_true_eq_false, ite_false, List.forall_mem_cons] at hrest
    obtain ⟨hsecond, hvalue⟩ := hrest
    rw [readU16_congr hsecond]
    refine ⟨rfl, fun hvalid => ?_⟩
    simp only [htype, decide_true, Bool.true_and, decide_eq_true_eq] at hvalid
    simpa [hvalid] using hvalue
  · simp [htype]

theorem deserializeProbeRangeTlv_congr {buf : ℕ} (body : IpcBody)
    (h : ∀ access ∈ fixedTlvAccesses memory IPCT_PROBE_RANGE U32_SIZE buf,
      access.Agree memory other) :
    deserializeProbeRangeTlv other buf body = deserializeProbeRangeTlv memory buf body := by
  obtain ⟨htlv, hvalue⟩ := isTlv_congr h
  rw [deserializeProbeRangeTlv, deserializeProbeRangeTlv, htlv]
  split_ifs with hvalid
  · rfl
  · rw [readU32_congr (hvalue (by simpa using hvalid))]

theorem deserializeProbeParamsTlv_congr {buf : ℕ} (body : IpcBody)
    (h : ∀ access ∈ fixedTlvAccesses memory IPCT_PROBE_PARAMS PROBE_PARAMS_SIZE buf,
      access.Agree memory other) :
    deserializeProbeParamsTlv other buf body = deserializeProbeParamsTlv memory buf body := by
  obtain ⟨htlv, hvalue⟩ := isTlv_congr h
  rw [deserializeProbeParamsTlv, deserializeProbeParamsTlv, htlv]
  split_ifs with hvalid
  · rfl
  · have hbytes := bytes_congr (hvalue (by simpa using hvalid))
    simp only [Access.bytes] at hbytes
    simp only [hbytes]

theorem deserializeProbeFlagsTlv_congr {buf : ℕ} (body : IpcBody)
    (h : ∀ access ∈ fixedTlvAccesses memory IPCT_PROBE_FLAGS U32_SIZE buf,
      access.Agree memory other) :
    deserializeProbeFlagsTlv other buf body = deserializeProbeFlagsTlv memory buf body := by
  obtain ⟨htlv, hvalue⟩ := isTlv_congr h
  rw [deserializeProbeFlagsTlv, deserializeProbeFlagsTlv, htlv]
  split_ifs with hvalid
  · rfl
  · rw [readU32_congr (hvalue (by simpa using hvalid))]

theorem deserializeSnooperNumTlv_congr {buf : ℕ} (body : IpcBody)
    (h : ∀ access ∈ fixedTlvAccesses memory IPCT_SNOOPER_NUM U32_SIZE buf,
      access.Agree memory other) :
    deserializeSnooperNumTlv other buf body = deserializeSnooperNumTlv memory buf body := by
  obtain ⟨htlv, hvalue⟩ := isTlv_congr h
  rw [deserializeSnooperNumTlv, deserializeSnooperNumTlv, htlv]
  split_ifs with hvalid
  · rfl
  · rw [readU32_congr (hvalue (by simpa using hvalid))]

-- What agrees on a fixed TLV and on what follows it goes through both in the same way.
theorem Cursor.advance_congr {type len : ℕ} {cursor : Cursor}
    {deserialize : Memory → ℕ → IpcBody → Int × IpcBody} {rest : Cursor → List Access}
    (hdecoder : (∀ access ∈ fixedTlvAccesses memory type len cursor.offset,
      access.Agree memory other) →
      deserialize other cursor.offset cursor.body = deserialize memory cursor.offset cursor.body)
    (h : ∀ access ∈ cursor.accesses memory type len (deserialize memory) rest,
      access.Agree memory other) :
    cursor.advance (deserialize other) = cursor.advance (deserialize memory) ∧
      ∀ next, cursor.advance (deserialize memory) = .ok next →
        ∀ access ∈ rest next, access.Agree memory other := by
  rw [Cursor.accesses, List.forall_mem_append] at h
  constructor
  · simp only [Cursor.advance, hdecoder h.1]
  · intro next hnext
    simpa only [hnext] using h.2

end Fixed

-- The decoder depends on no byte but those of its accesses.
theorem deserializeIpcMsg_congr {malloc : ℕ → Bool} {fuel msgLen : ℕ} {memory other : Memory}
    {body : IpcBody}
    (h : ∀ access ∈ deserializeIpcMsgAccesses malloc fuel memory msgLen body,
      access.Agree memory other) :
    deserializeIpcMsg malloc fuel other msgLen body =
      deserializeIpcMsg malloc fuel memory msgLen body := by
  rw [deserializeIpcMsgAccesses] at h
  simp only [deserializeIpcMsg, deserializeFixedTlvs, bind, Except.bind]
  obtain ⟨hrange, h⟩ := Cursor.advance_congr (deserializeProbeRangeTlv_congr body) h
  rw [hrange]
  cases hfirst : Cursor.advance { maxLen := toInt msgLen, offset := 0, body := body }
      (deserializeProbeRangeTlv memory) with
  | error failed => rfl
  | ok first =>
      obtain ⟨hparams, h⟩ :=
        Cursor.advance_congr (deserializeProbeParamsTlv_congr _) (h _ hfirst)
      dsimp only
      rw [hparams]
      cases hsecond : first.advance (deserializeProbeParamsTlv memory) with
      | error failed => rfl
      | ok second =>
          obtain ⟨hflags, h⟩ :=
            Cursor.advance_congr (deserializeProbeFlagsTlv_congr _) (h _ hsecond)
          dsimp only
          rw [hflags]
          cases hthird : second.advance (deserializeProbeFlagsTlv memory) with
          | error failed => rfl
          | ok third =>
              obtain ⟨hnum, h⟩ :=
                Cursor.advance_congr (deserializeSnooperNumTlv_congr _) (h _ hthird)
              dsimp only
              rw [hnum]
              cases hlast : third.advance (deserializeSnooperNumTlv memory) with
              | error failed => rfl
              | ok last =>
                  have hobjs := h _ hlast
                  dsimp only
                  split_ifs at hobjs ⊢
                  · rfl
                  · rw [deserializeSnooperTlv_congr hobjs]

theorem Access.Inside.agree {msgLen : ℕ} {memory other : Memory} {access : Access}
    (h : access.Inside msgLen) (hsame : ∀ i < msgLen, other i = memory i) :
    access.Agree memory other := by
  have hbytes : access.bytes.Within ⟨0, msgLen⟩ := by
    cases access with
    | read bytes => exact h
    | copy own bytes => exact h.1
  intro i hi
  have hend := (hbytes i hi).2
  rw [Nat.zero_add] at hend
  exact hsame _ hend

-- A decoder that stays inside sees nothing of what stands behind the message.
theorem StaysInside.deserializeIpcMsg_congr {malloc : ℕ → Bool} {msgLen : ℕ}
    {memory other : Memory} {body : IpcBody} (h : StaysInside malloc memory msgLen body)
    (hsame : ∀ i < msgLen, other i = memory i) (fuel : ℕ) :
    deserializeIpcMsg malloc fuel other msgLen body =
      deserializeIpcMsg malloc fuel memory msgLen body :=
  Ipc.deserializeIpcMsg_congr fun access haccess => (h fuel access haccess).agree hsame

end Gopher.Ipc
