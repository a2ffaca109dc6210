import Gopher.Ipc.Termination

namespace Gopher.Ipc

open Gopher.Lib

structure Span where
  address : ℕ
  len : ℕ
  deriving DecidableEq, Repr

-- Every byte of the span lies in the other one. A span without bytes lies in any.
def Span.Within (span other : Span) : Prop :=
  ∀ i < span.len, other.address ≤ span.address + i ∧ span.address + i < other.address + other.len

-- What the decoder does to the receive buffer: it reads bytes, or copies a string that
-- stands in the value `own` of an object.
inductive Access
  | read (bytes : Span)
  | copy (own bytes : Span)
  deriving DecidableEq, Repr

def Access.bytes : Access → Span
  | read bytes => bytes
  | copy _ bytes => bytes

-- Below `msgLen`, and a string inside its own TLV.
def Access.Inside (msgLen : ℕ) : Access → Prop
  | read bytes => bytes.Within ⟨0, msgLen⟩
  | copy own bytes => bytes.Within ⟨0, msgLen⟩ ∧ bytes.Within own

def deserializeTlvProcAccesses (memory : Memory) (buf size : ℕ) : List Access :=
  if size < TLV_SIZE + U32_SIZE then []
  else .read ⟨buf + 2, 2⟩ ::
    if memory.readU16 (buf + 2) ≠ U32_SIZE then []
    else .read ⟨buf, 2⟩ ::
      if memory.readU16 buf ≠ SNOOPER_OBJ_PROC then []
      else [.read ⟨buf + TLV_SIZE, U32_SIZE⟩]

section SubTlv

variable {τ : Type} (assign : ℕ → Option (τ → List UInt8 → τ)) (malloc : ℕ → Bool)
  (memory : Memory)

-- The unknown subtype is all that is read of its sub-TLV; a known one has its length
-- read for `malloc`, and its value copied if the block is there.
def subTlvAccesses (own : Span) (state : SubState τ) : List Access :=
  let p := own.address + state.offset
  .read ⟨p, 2⟩ ::
    if (assign (memory.readU16 p)).isNone then []
    else .read ⟨p + 2, 2⟩ ::
      if malloc p then [.copy own ⟨p + TLV_SIZE, memory.readU16 (p + 2)⟩] else []

def deserializeSubTlvsAccesses (own : Span) (size fuel : ℕ) (state : SubState τ) : List Access :=
  if size ≤ state.offset then []
  else (Loop.trace (fun state => some (subTlvRound assign malloc memory own.address size state))
    fuel state).flatMap (subTlvAccesses assign malloc memory own)

end SubTlv

def deserializeTlvContainerAccesses (malloc : ℕ → Bool) (fuel : ℕ) (memory : Memory)
    (buf size : ℕ) (obj : SnooperObj) : List Access :=
  .read ⟨buf, 2⟩ ::
    if memory.readU16 buf ≠ SNOOPER_OBJ_CON then []
    else .read ⟨buf + 2, 2⟩ ::
      if memory.readU16 (buf + 2) < U32_SIZE + U32_SIZE then []
      else
        let start := buf + TLV_SIZE
        let info := { obj.conInfo with
          flags := memory.readU32 start
          cpucgInode := memory.readU32 (start + U32_SIZE) }
        .read ⟨start, U32_SIZE⟩ :: .read ⟨start + U32_SIZE, U32_SIZE⟩ ::
          deserializeSubTlvsAccesses assignContainer malloc memory
            ⟨start, memory.readU16 (buf + 2)⟩ size fuel
            { offset := U32_SIZE + U32_SIZE, target := info, err := false }

def deserializeTlvGaussdbAccesses (malloc : ℕ → Bool) (fuel : ℕ) (memory : Memory)
    (buf size : ℕ) (obj : SnooperObj) : List Access :=
  .read ⟨buf, 2⟩ ::
    if memory.readU16 buf ≠ SNOOPER_OBJ_GAUSSDB then []
    else .read ⟨buf + 2, 2⟩ ::
      if memory.readU16 (buf + 2) < U32_SIZE then []
      else
        let start := buf + TLV_SIZE
        let db := { obj.gaussdbInfo with port := memory.readU32 start }
        .read ⟨start, U32_SIZE⟩ ::
          deserializeSubTlvsAccesses assignGaussdb malloc memory
            ⟨start, memory.readU16 (buf + 2)⟩ size fuel
            { offset := U32_SIZE, target := db, err := false }

def deserializeTlvAccesses (malloc : ℕ → Bool) (fuel : ℕ) (memory : Memory) (type buf size : ℕ)
    (obj : SnooperObj) : List Access :=
  if type = SNOOPER_OBJ_PROC then deserializeTlvProcAccesses memory buf size
  else if type = SNOOPER_OBJ_CON then
    deserializeTlvContainerAccesses malloc fuel memory buf size obj
  else deserializeTlvGaussdbAccesses malloc fuel memory buf size obj

def snooperRoundAccesses (malloc : ℕ → Bool) (fuel : ℕ) (memory : Memory) (buf : ℕ)
    (state : SnooperState) : List Access :=
  let cur := buf + state.offsetLen
  let type := memory.readU16 cur
  .read ⟨cur, 2⟩ ::
    if SNOOPER_OBJ_MAX ≤ type then []
    else if hindex : state.snooperIndex < SNOOPER_MAX then
      deserializeTlvAccesses malloc fuel memory type cur state.maxLen.toNat
        (state.body.snooperObjs ⟨state.snooperIndex, hindex⟩)
    else []

def deserializeSnooperTlvAccesses (malloc : ℕ → Bool) (fuel : ℕ) (memory : Memory) (buf : ℕ)
    (size : Int) (body : IpcBody) : List Access :=
  (Loop.trace (snooperRound malloc fuel memory buf) fuel
    { maxLen := size, offsetLen := 0, snooperIndex := 0, body := body }).flatMap
      (snooperRoundAccesses malloc fuel memory buf)

-- A fixed TLV: its type is compared first, then its length, then the value is taken.
def fixedTlvAccesses (memory : Memory) (type len buf : ℕ) : List Access :=
  .read ⟨buf, 2⟩ ::
    if memory.readU16 buf ≠ type then []
    else .read ⟨buf + 2, 2⟩ ::
      if memory.readU16 (buf + 2) ≠ len then [] else [.read ⟨buf + TLV_SIZE, len⟩]

def Cursor.accesses (memory : Memory) (cursor : Cursor) (type len : ℕ)
    (deserialize : ℕ → IpcBody → Int × IpcBody) (rest : Cursor → List Access) : List Access :=
  fixedTlvAccesses memory type len cursor.offset ++
    match cursor.advance deserialize with
    | .error _ => []
    | .ok next => rest next

def deserializeIpcMsgAccesses (malloc : ℕ → Bool) (fuel : ℕ) (memory : Memory) (msgLen : ℕ)
    (body : IpcBody) : List Access :=
  let cursor : Cursor := { maxLen := toInt msgLen, offset := 0, body := body }
  cursor.accesses memory IPCT_PROBE_RANGE U32_SIZE (deserializeProbeRangeTlv memory) fun cursor =>
  cursor.accesses memory IPCT_PROBE_PARAMS PROBE_PARAMS_SIZE (deserializeProbeParamsTlv memory)
    fun cursor =>
  cursor.accesses memory IPCT_PROBE_FLAGS U32_SIZE (deserializeProbeFlagsTlv memory) fun cursor =>
  cursor.accesses memory IPCT_SNOOPER_NUM U32_SIZE (deserializeSnooperNumTlv memory) fun cursor =>
  if cursor.maxLen = 0 then []
  else deserializeSnooperTlvAccesses malloc fuel memory cursor.offset cursor.maxLen cursor.body

-- No run of the decoder, finished or not, leaves the message, and each string comes
-- from inside its own TLV.
def StaysInside (malloc : ℕ → Bool) (memory : Memory) (msgLen : ℕ) (body : IpcBody) : Prop :=
  ∀ fuel, ∀ access ∈ deserializeIpcMsgAccesses malloc fuel memory msgLen body,
    access.Inside msgLen

-- Where the message may end around a fixed TLV at `buf`: behind its type, or behind its
-- header if the type is the right one, or behind all of it if the length is right as well.
def FixedTlvFits (memory : Memory) (msgLen type len buf : ℕ) : Prop :=
  buf + 2 ≤ msgLen ∧ (memory.readU16 buf = type → buf + TLV_SIZE ≤ msgLen ∧
    (memory.readU16 (buf + 2) = len → buf + TLV_SIZE + len ≤ msgLen))

-- The chain of sub-TLVs from an offset on comes to an unknown subtype or to a copy that
-- is not granted, within the `size` bytes left of the message and, as long as strings
-- are copied, within the object.
inductive SubStops {τ : Type} (assign : ℕ → Option (τ → List UInt8 → τ)) (malloc : ℕ → Bool)
    (memory : Memory) (own : Span) (size : ℕ) : ℕ → Prop
  | unknown {offset : ℕ} (hsize : TLV_SIZE + offset + 2 ≤ size)
      (htype : assign (memory.readU16 (own.address + offset)) = none) :
      SubStops assign malloc memory own size offset
  | refused {offset : ℕ} (hsize : TLV_SIZE + offset + TLV_SIZE ≤ size)
      (htype : (assign (memory.readU16 (own.address + offset))).isSome)
      (hmalloc : malloc (own.address + offset) = false) :
      SubStops assign malloc memory own size offset
  | next {offset : ℕ}
      (hsize : TLV_SIZE + offset + TLV_SIZE + memory.readU16 (own.address + offset + 2) ≤ size)
      (hown : 0 < memory.readU16 (own.address + offset + 2) →
        offset + TLV_SIZE + memory.readU16 (own.address + offset + 2) ≤ own.len)
      (htype : (assign (memory.readU16 (own.address + offset))).isSome)
      (hmalloc : malloc (own.address + offset) = true)
      (hnext : SubStops assign malloc memory own size
        (offset + (memory.readU16 (own.address + offset + 2) + TLV_SIZE))) :
      SubStops assign malloc memory own size offset

-- An object of type `type` at `buf`, of which `size` bytes are left: a length below that
-- of its fixed fields is refused at once, otherwise its chain stops.
def NestedTlvFits {τ : Type} (assign : ℕ → Option (τ → List UInt8 → τ)) (malloc : ℕ → Bool)
    (memory : Memory) (type fixed buf size : ℕ) : Prop :=
  memory.readU16 buf = type → TLV_SIZE ≤ size ∧ (fixed ≤ memory.readU16 (buf + 2) →
    SubStops assign malloc memory ⟨buf + TLV_SIZE, memory.readU16 (buf + 2)⟩ size fixed)

def ObjFits (malloc : ℕ → Bool) (memory : Memory) (buf size : ℕ) : Prop :=
  NestedTlvFits assignContainer malloc memory SNOOPER_OBJ_CON (U32_SIZE + U32_SIZE) buf size ∧
    NestedTlvFits assignGaussdb malloc memory SNOOPER_OBJ_GAUSSDB U32_SIZE buf size

-- Each object that the decoder comes to, behind process objects, has its type inside and
-- fits if there is still a place for it.
def ObjsFit (malloc : ℕ → Bool) (memory : Memory) (buf size : ℕ) : Prop :=
  ∀ count ≤ SNOOPER_MAX, ProcPrefix memory buf count → 8 * count < size →
    2 ≤ size - 8 * count ∧
      (count < SNOOPER_MAX → ObjFits malloc memory (buf + 8 * count) (size - 8 * count))

-- Up to the TLV that makes the decoder give up, the message does not end too early.
structure MsgFits (malloc : ℕ → Bool) (memory : Memory) (msgLen : ℕ) : Prop where
  range : FixedTlvFits memory msgLen IPCT_PROBE_RANGE U32_SIZE 0
  params : isTlv memory 0 IPCT_PROBE_RANGE U32_SIZE = true →
    FixedTlvFits memory msgLen IPCT_PROBE_PARAMS PROBE_PARAMS_SIZE 8
  flags : isTlv memory 0 IPCT_PROBE_RANGE U32_SIZE = true →
    isTlv memory 8 IPCT_PROBE_PARAMS PROBE_PARAMS_SIZE = true →
      FixedTlvFits memory msgLen IPCT_PROBE_FLAGS U32_SIZE 3164
  num : isTlv memory 0 IPCT_PROBE_RANGE U32_SIZE = true →
    isTlv memory 8 IPCT_PROBE_PARAMS PROBE_PARAMS_SIZE = true →
      isTlv memory 3164 IPCT_PROBE_FLAGS U32_SIZE = true →
        FixedTlvFits memory msgLen IPCT_SNOOPER_NUM U32_SIZE 3172
  objs : FixedTlvs memory →
    ObjsFit malloc memory IPC_TLV_LEN_DEFAULT (msgLen - IPC_TLV_LEN_DEFAULT)

theorem Span.within_iff {span other : Span} (hlen : 0 < span.len) :
    span.Within other ↔ other.address ≤ span.address ∧
      span.address + span.len ≤ other.address + other.len := by
  constructor
  · intro h
    have hfirst := h 0 hlen
    have hlast := h (span.len - 1) (by omega)
    omega
  · rintro ⟨hfirst, hlast⟩ i hi
    omega

theorem Span.within_of_empty {span other : Span} (hlen : span.len = 0) : span.Within other := by
  intro i hi
  omega

theorem read_inside_iff {msgLen address len : ℕ} (hlen : 0 < len) :
    (Access.read ⟨address, len⟩).Inside msgLen ↔ address + len ≤ msgLen := by
  rw [Access.Inside, Span.within_iff hlen]
  dsimp only
  omega

theorem read_u16_inside_iff {msgLen address : ℕ} :
    (Access.read ⟨address, 2⟩).Inside msgLen ↔ address + 2 ≤ msgLen :=
  read_inside_iff (by omega)

section SubTlv

variable {τ : Type} {assign : ℕ → Option (τ → List UInt8 → τ)} {malloc : ℕ → Bool}
  {memory : Memory} {own : Span} {buf size : ℕ}

-- One round over the sub-TLV at `offset` stays inside.
theorem subTlvAccesses_inside_iff {state : SubState τ} (hown : own.address = buf + TLV_SIZE) :
    (∀ access ∈ subTlvAccesses assign malloc memory own state, access.Inside (buf + size)) ↔
      TLV_SIZE + state.offset + 2 ≤ size ∧
      ((assign (memory.readU16 (own.address + state.offset))).isSome →
        TLV_SIZE + state.offset + TLV_SIZE ≤ size ∧
        (malloc (own.address + state.offset) = true →
          TLV_SIZE + state.offset + TLV_SIZE +
              memory.readU16 (own.address + state.offset + 2) ≤ size ∧
            (0 < memory.readU16 (own.address + state.offset + 2) →
              state.offset + TLV_SIZE + memory.readU16 (own.address + state.offset + 2) ≤
                own.len))) := by
  rw [subTlvAccesses, List.forall_mem_cons, read_u16_inside_iff]
  have hTlv : TLV_SIZE = 4 := rfl
  cases htype : assign (memory.readU16 (own.address + state.offset)) with
  | none =>
      simp only [Option.isNone_none, ite_true, List.not_mem_nil, false_implies, implies_true,
        and_true, Option.isSome_none, Bool.false_eq_true]
      omega
  | some store =>
      simp only [Option.isNone_some, Bool.false_eq_true, ite_false, List.forall_mem_cons,
        Option.isSome_some, true_implies, read_u16_inside_iff]
      cases hmalloc : malloc (own.address + state.offset) with
      | false =>
          simp only [Bool.false_eq_true, ite_false, List.not_mem_nil, false_implies, implies_true,
            and_true]
          omega
      | true =>
          simp only [ite_true, List.forall_mem_singleton, true_implies, Access.Inside]
          by_cases hlen : 0 < memory.readU16 (own.address + state.offset + 2)
          · rw [Span.within_iff hlen, Span.within_iff hlen]
            dsimp only
            omega
          · have hempty : memory.readU16 (own.address + state.offset + 2) = 0 := by omega
            simp only [hempty, Span.within_of_empty, and_true]
            omega

theorem SubStops.inside {state : SubState τ} (hown : own.address = buf + TLV_SIZE)
    (h : SubStops assign malloc memory own size state.offset) :
    ∀ access ∈ subTlvAccesses assign malloc memory own state, access.Inside (buf + size) := by
  rw [subTlvAccesses_inside_iff hown]
  have hTlv : TLV_SIZE = 4 := rfl
  cases h with
  | unknown hsize htype => exact ⟨hsize, fun hsome => by simp [htype] at hsome⟩
  | refused hsize htype hmalloc =>
      exact ⟨by omega, fun _ => ⟨hsize, fun hgranted => by simp [hmalloc] at hgranted⟩⟩
  | next hsize howned htype hmalloc hnext =>
      exact ⟨by omega, fun _ => ⟨by omega, fun _ => ⟨hsize, howned⟩⟩⟩

-- A round that goes on stays on the chain: it has passed a sub-TLV, or it will read the
-- same unknown subtype again.
theorem SubStops.round {state next : SubState τ}
    (h : SubStops assign malloc memory own size state.offset)
    (hround : subTlvRound assign malloc memory own.address size state = .inl next) :
    SubStops assign malloc memory own size next.offset := by
  cases h with
  | unknown hsize htype =>
      simp only [subTlvRound, htype] at hround
      split_ifs at hround
      cases hround
      exact .unknown hsize htype
  | refused hsize htype hmalloc =>
      obtain ⟨store, hstore⟩ := Option.isSome_iff_exists.mp htype
      simp [subTlvRound, hstore, hmalloc] at hround
  | next hsize howned htype hmalloc hnext =>
      obtain ⟨store, hstore⟩ := Option.isSome_iff_exists.mp htype
      obtain ⟨after, hoffset, hafter⟩ := subTlvRound_known hstore hmalloc
      rw [hafter] at hround
      split_ifs at hround
      cases hround
      rwa [hoffset]

theorem SubStops.offset_lt {offset : ℕ} (h : SubStops assign malloc memory own size offset) :
    TLV_SIZE + offset + 2 ≤ size := by
  have hTlv : TLV_SIZE = 4 := rfl
  cases h <;> omega

-- Copying strings never brings the offset to the end within the message, so a chain
-- that stays inside ends in one of the two other ways.
theorem subStops_of_inside {state : SubState τ} (hown : own.address = buf + TLV_SIZE)
    (h : ∀ fuel, ∀ access ∈ (Loop.trace (fun state =>
        some (subTlvRound assign malloc memory own.address size state)) fuel state).flatMap
          (subTlvAccesses assign malloc memory own), access.Inside (buf + size)) :
    SubStops assign malloc memory own size state.offset := by
  induction hleft : size - state.offset using Nat.strongRecOn generalizing state with
  | ind left ih =>
      have hfirst : ∀ access ∈ subTlvAccesses assign malloc memory own state,
          access.Inside (buf + size) := by
        intro access haccess
        apply h 1
        exact List.mem_flatMap.mpr ⟨state, List.mem_cons_self, haccess⟩
      rw [subTlvAccesses_inside_iff hown] at hfirst
      obtain ⟨hsize, hknown⟩ := hfirst
      have hTlv : TLV_SIZE = 4 := rfl
      cases htype : assign (memory.readU16 (own.address + state.offset)) with
      | none => exact .unknown hsize htype
      | some store =>
          obtain ⟨hheader, hcopy⟩ := hknown (by simp [htype])
          cases hmalloc : malloc (own.address + state.offset) with
          | false => exact .refused hheader (by simp [htype]) hmalloc
          | true =>
              obtain ⟨hvalue, howned⟩ := hcopy hmalloc
              obtain ⟨next, hoffset, hround⟩ := subTlvRound_known htype hmalloc
              rw [if_pos (show next.offset < size by omega)] at hround
              have hlater : ∀ fuel, ∀ access ∈ (Loop.trace (fun state =>
                  some (subTlvRound assign malloc memory own.address size state)) fuel
                    next).flatMap (subTlvAccesses assign malloc memory own),
                    access.Inside (buf + size) := by
                intro fuel access haccess
                apply h (fuel + 1)
                rw [Loop.trace_succ_of_next (congrArg some hround), List.flatMap_cons]
                exact List.mem_append_right _ haccess
              have hnext := ih (size - next.offset) (by omega) hlater rfl
              rw [hoffset] at hnext
              exact .next hvalue howned (by simp [htype]) hmalloc hnext

-- The fields and sub-TLVs of an object with `fixed` bytes of fields.
theorem deserializeSubTlvsAccesses_inside_iff {state : SubState τ}
    (hown : own.address = buf + TLV_SIZE) (hfields : TLV_SIZE + state.offset ≤ size) :
    (∀ fuel, ∀ access ∈ deserializeSubTlvsAccesses assign malloc memory own size fuel state,
      access.Inside (buf + size)) ↔ SubStops assign malloc memory own size state.offset := by
  have hTlv : TLV_SIZE = 4 := rfl
  simp only [deserializeSubTlvsAccesses, show ¬size ≤ state.offset by omega, ite_false]
  constructor
  · exact subStops_of_inside hown
  · intro h fuel access haccess
    obtain ⟨visited, hvisited, haccess⟩ := List.mem_flatMap.mp haccess
    have hstops := Loop.forall_mem_trace
      (fun state : SubState τ => SubStops assign malloc memory own size state.offset)
      (fun state next hstate hround => hstate.round (Option.some.inj hround)) h visited hvisited
    exact hstops.inside hown access haccess

-- The header of an object, its fields and what follows them.
theorem nestedTlv_inside_iff {type fixed : ℕ} (fields : List Access) {rest : ℕ → List Access}
    (hfields : (∀ access ∈ fields, access.Inside (buf + size)) ↔ TLV_SIZE + fixed ≤ size)
    (hrest : TLV_SIZE + fixed ≤ size →
      ((∀ fuel, ∀ access ∈ rest fuel, access.Inside (buf + size)) ↔
        SubStops assign malloc memory ⟨buf + TLV_SIZE, memory.readU16 (buf + 2)⟩ size fixed)) :
    (∀ fuel, ∀ access ∈ Access.read ⟨buf, 2⟩ ::
      (if memory.readU16 buf ≠ type then []
      else Access.read ⟨buf + 2, 2⟩ ::
        if memory.readU16 (buf + 2) < fixed then [] else fields ++ rest fuel),
      access.Inside (buf + size)) ↔
    2 ≤ size ∧ NestedTlvFits assign malloc memory type fixed buf size := by
  have hTlv : TLV_SIZE = 4 := rfl
  simp only [List.forall_mem_cons, read_u16_inside_iff, forall_and, forall_const]
  have htwo : buf + 2 ≤ buf + size ↔ 2 ≤ size := by omega
  rw [htwo, NestedTlvFits]
  by_cases htype : memory.readU16 buf = type
  · simp only [htype, ne_eq, not_true_eq_false, ite_false, List.forall_mem_cons,
      read_u16_inside_iff, forall_and, forall_const]
    by_cases hlen : memory.readU16 (buf + 2) < fixed
    · simp only [hlen, ite_true, List.not_mem_nil, false_implies, implies_true, and_true,
        show ¬fixed ≤ memory.readU16 (buf + 2) by omega]
      omega
    · simp only [hlen, ite_false, List.forall_mem_append, forall_and, forall_const, hfields,
        show fixed ≤ memory.readU16 (buf + 2) by omega]
      constructor
      · rintro ⟨hsize, hheader, hroom, hall⟩
        exact ⟨hsize, by omega, (hrest hroom).mp hall⟩
      · rintro ⟨hsize, hheader, hstops⟩
        have hroom : TLV_SIZE + fixed ≤ size := by
          have hlt := hstops.offset_lt
          omega
        exact ⟨hsize, by omega, hroom, (hrest hroom).mpr hstops⟩
  · simp [htype]

end SubTlv

section SnooperTlv

variable {malloc : ℕ → Bool} {memory : Memory} {buf size : ℕ}

theorem deserializeTlvContainerAccesses_inside_iff (obj : SnooperObj) :
    (∀ fuel, ∀ access ∈ deserializeTlvContainerAccesses malloc fuel memory buf size obj,
      access.Inside (buf + size)) ↔
    2 ≤ size ∧
      NestedTlvFits assignContainer malloc memory SNOOPER_OBJ_CON (U32_SIZE + U32_SIZE) buf size := by
  apply nestedTlv_inside_iff [.read ⟨buf + TLV_SIZE, U32_SIZE⟩,
    .read ⟨buf + TLV_SIZE + U32_SIZE, U32_SIZE⟩]
  · simp only [List.forall_mem_cons, List.not_mem_nil, false_implies, implies_true, and_true,
      read_inside_iff (show 0 < U32_SIZE by decide)]
    simp only [TLV_SIZE, U32_SIZE]
    omega
  · exact fun hroom => deserializeSubTlvsAccesses_inside_iff rfl hroom

theorem deserializeTlvGaussdbAccesses_inside_iff (obj : SnooperObj) :
    (∀ fuel, ∀ access ∈ deserializeTlvGaussdbAccesses malloc fuel memory buf size obj,
      access.Inside (buf + size)) ↔
    2 ≤ size ∧
      NestedTlvFits assignGaussdb malloc memory SNOOPER_OBJ_GAUSSDB U32_SIZE buf size := by
  apply nestedTlv_inside_iff [.read ⟨buf + TLV_SIZE, U32_SIZE⟩]
  · simp only [List.forall_mem_singleton, read_inside_iff (show 0 < U32_SIZE by decide)]
    simp only [TLV_SIZE, U32_SIZE]
    omega
  · exact fun hroom => deserializeSubTlvsAccesses_inside_iff rfl hroom

-- Nothing is read of a process object that does not have its eight bytes.
theorem deserializeTlvProcAccesses_inside :
    ∀ access ∈ deserializeTlvProcAccesses memory buf size, access.Inside (buf + size) := by
  rw [deserializeTlvProcAccesses]
  by_cases hroom : size < TLV_SIZE + U32_SIZE
  · simp [hroom]
  · have hlen : (Access.read ⟨buf + 2, 2⟩).Inside (buf + size) := by
      rw [read_u16_inside_iff]
      simp only [TLV_SIZE, U32_SIZE] at hroom
      omega
    have htype : (Access.read ⟨buf, 2⟩).Inside (buf + size) := by
      rw [read_u16_inside_iff]
      simp only [TLV_SIZE, U32_SIZE] at hroom
      omega
    have hvalue : (Access.read ⟨buf + TLV_SIZE, U32_SIZE⟩).Inside (buf + size) := by
      rw [read_inside_iff (by decide)]
      omega
    simp only [hroom, ite_false]
    split_ifs <;> simp [hlen, htype, hvalue]

theorem deserializeTlvAccesses_inside_iff (hsize : 2 ≤ size) (obj : SnooperObj) :
    (∀ fuel, ∀ access ∈
        deserializeTlvAccesses malloc fuel memory (memory.readU16 buf) buf size obj,
      access.Inside (buf + size)) ↔ ObjFits malloc memory buf size := by
  have hproc : SNOOPER_OBJ_PROC = 0 := rfl
  have hcon : SNOOPER_OBJ_CON = 1 := rfl
  have hgauss : SNOOPER_OBJ_GAUSSDB = 2 := rfl
  simp only [deserializeTlvAccesses, ObjFits]
  by_cases hzero : memory.readU16 buf = SNOOPER_OBJ_PROC
  · have hcontainer : NestedTlvFits assignContainer malloc memory SNOOPER_OBJ_CON
        (U32_SIZE + U32_SIZE) buf size := fun h => by omega
    have hgaussdb : NestedTlvFits assignGaussdb malloc memory SNOOPER_OBJ_GAUSSDB U32_SIZE buf
        size := fun h => by omega
    simp only [hzero, ite_true, hcontainer, hgaussdb, and_self, iff_true]
    exact fun _ => deserializeTlvProcAccesses_inside
  · simp only [hzero, ite_false]
    by_cases hone : memory.readU16 buf = SNOOPER_OBJ_CON
    · have hgaussdb : NestedTlvFits assignGaussdb malloc memory SNOOPER_OBJ_GAUSSDB U32_SIZE buf
          size := fun htwo => by omega
      simp only [hone, ite_true, hgaussdb, and_true,
        deserializeTlvContainerAccesses_inside_iff, hsize, true_and]
    · have hcontainer : NestedTlvFits assignContainer malloc memory SNOOPER_OBJ_CON
          (U32_SIZE + U32_SIZE) buf size := fun h => absurd h hone
      simp only [hone, ite_false, hcontainer, true_and,
        deserializeTlvGaussdbAccesses_inside_iff, hsize]

theorem SnooperState.AfterProcs.start (hsize : 0 < size) (body : IpcBody) :
    SnooperState.AfterProcs memory buf size ⟨size, 0, 0, body⟩ :=
  ⟨rfl, by simp, by simpa using hsize, by simp [ProcPrefix]⟩

-- A round that stands behind `snooperIndex` process objects stays inside if the object
-- it finds there fits.
theorem snooperRoundAccesses_inside {fuel : ℕ} {state : SnooperState}
    (hafter : state.AfterProcs memory buf size) (hindex : state.snooperIndex ≤ SNOOPER_MAX)
    (h : ObjsFit malloc memory buf size) :
    ∀ access ∈ snooperRoundAccesses malloc fuel memory buf state,
      access.Inside (buf + size) := by
  have hinside := hafter.inside
  have hend : buf + size = buf + state.offsetLen + state.maxLen.toNat := by
    have hoffset := hafter.offset
    have hleft := hafter.toNat
    omega
  obtain ⟨htwo, hobj⟩ := h state.snooperIndex hindex hafter.procs hinside
  rw [← hafter.toNat, ← hafter.offset] at hobj
  rw [← hafter.toNat] at htwo
  rw [snooperRoundAccesses, List.forall_mem_cons, read_u16_inside_iff]
  refine ⟨by omega, ?_⟩
  split_ifs with hmax hplace
  · simp
  · rw [hend]
    exact (deserializeTlvAccesses_inside_iff htwo _).mpr (hobj hplace) fuel
  · simp

-- The round behind `count` process objects is reached, whatever fuel its own loop has.
theorem exists_mem_trace_afterProcs (malloc : ℕ → Bool) {count : ℕ} (hcount : count ≤ SNOOPER_MAX)
    (hprocs : ProcPrefix memory buf count) (hinside : 8 * count < size) (body : IpcBody) :
    ∃ state : SnooperState, state.AfterProcs memory buf size ∧ state.snooperIndex = count ∧
      ∀ fuel more, ∀ visited ∈ Loop.trace (snooperRound malloc fuel memory buf) more state,
        visited ∈ Loop.trace (snooperRound malloc fuel memory buf) (more + count)
          ⟨size, 0, 0, body⟩ := by
  induction count with
  | zero =>
      exact ⟨⟨size, 0, 0, body⟩, .start (by omega) body, rfl, fun _ _ _ h => h⟩
  | succ count ih =>
      obtain ⟨state, hafter, hlast, hmem⟩ :=
        ih (by omega) (fun i hi => hprocs i (by omega)) (by omega)
      have hmax := hafter.maxLen
      have hindex : state.snooperIndex < SNOOPER_MAX := by omega
      have htlv : IsProcTlv memory (buf + state.offsetLen) := by
        rw [hafter.offset, hlast]
        exact hprocs count (by omega)
      have hnext : 0 < (state.nextProc memory buf ⟨state.snooperIndex, hindex⟩).maxLen := by
        simp only [SnooperState.nextProc]
        omega
      refine ⟨_, hafter.nextProc htlv ⟨state.snooperIndex, hindex⟩ hnext, ?_,
        fun fuel more visited hvisited => ?_⟩
      · simp only [SnooperState.nextProc]
        omega
      · have hround := snooperRound_proc malloc fuel htlv (by omega) hindex
        rw [show more + (count + 1) = more + 1 + count by omega]
        apply hmem
        rw [Loop.trace_succ_of_next (hround.trans (if_pos hnext))]
        exact List.mem_cons_of_mem _ hvisited

theorem deserializeSubTlvsAccesses_mono {τ : Type} {assign : ℕ → Option (τ → List UInt8 → τ)}
    {own : Span} {fuel more : ℕ} (h : fuel ≤ more) (state : SubState τ) {access : Access}
    (haccess : access ∈ deserializeSubTlvsAccesses assign malloc memory own size fuel state) :
    access ∈ deserializeSubTlvsAccesses assign malloc memory own size more state := by
  rw [deserializeSubTlvsAccesses] at haccess ⊢
  split_ifs at haccess ⊢
  · exact haccess
  · obtain ⟨visited, hvisited, haccess⟩ := List.mem_flatMap.mp haccess
    exact List.mem_flatMap.mpr ⟨visited, (Loop.trace_prefix _ h state).subset hvisited, haccess⟩

theorem deserializeTlvAccesses_mono {fuel more type : ℕ} (h : fuel ≤ more) (obj : SnooperObj)
    {access : Access}
    (haccess : access ∈ deserializeTlvAccesses malloc fuel memory type buf size obj) :
    access ∈ deserializeTlvAccesses malloc more memory type buf size obj := by
  unfold deserializeTlvAccesses deserializeTlvContainerAccesses
    deserializeTlvGaussdbAccesses at haccess ⊢
  split_ifs at haccess ⊢
  · exact haccess
  · exact haccess
  · exact haccess
  · simp only [List.mem_cons] at haccess ⊢
    exact haccess.imp_right (.imp_right (.imp_right (.imp_right
      (deserializeSubTlvsAccesses_mono h _))))
  · exact haccess
  · exact haccess
  · simp only [List.mem_cons] at haccess ⊢
    exact haccess.imp_right (.imp_right (.imp_right (deserializeSubTlvsAccesses_mono h _)))

theorem objFits_of_type_ge (h : SNOOPER_OBJ_MAX ≤ memory.readU16 buf) :
    ObjFits malloc memory buf size := by
  have hcon : SNOOPER_OBJ_CON < SNOOPER_OBJ_MAX := by decide
  have hgauss : SNOOPER_OBJ_GAUSSDB < SNOOPER_OBJ_MAX := by decide
  exact ⟨fun htype => by omega, fun htype => by omega⟩

theorem deserializeSnooperTlvAccesses_inside_iff (hsize : 0 < size) (body : IpcBody) :
    (∀ fuel, ∀ access ∈ deserializeSnooperTlvAccesses malloc fuel memory buf size body,
      access.Inside (buf + size)) ↔ ObjsFit malloc memory buf size := by
  constructor
  · intro h count hcount hprocs hinside
    obtain ⟨state, hafter, hlast, hmem⟩ :=
      exists_mem_trace_afterProcs malloc hcount hprocs hinside body
    have hround : ∀ fuel, ∀ access ∈
        snooperRoundAccesses malloc (fuel + 1 + count) memory buf state,
          access.Inside (buf + size) := by
      intro fuel access haccess
      apply h (fuel + 1 + count)
      exact List.mem_flatMap.mpr
        ⟨state, hmem (fuel + 1 + count) (fuel + 1) state List.mem_cons_self, haccess⟩
    have hleft := hafter.toNat
    have hoffset := hafter.offset
    rw [hlast] at hleft hoffset
    have htwo : 2 ≤ size - 8 * count := by
      have hread := hround 0 (.read ⟨buf + state.offsetLen, 2⟩) List.mem_cons_self
      rw [read_u16_inside_iff] at hread
      omega
    refine ⟨htwo, fun hplace => ?_⟩
    rw [← hlast] at hplace
    rw [← hleft] at htwo ⊢
    rw [← hoffset]
    by_cases htype : SNOOPER_OBJ_MAX ≤ memory.readU16 (buf + state.offsetLen)
    · exact objFits_of_type_ge htype
    · apply (deserializeTlvAccesses_inside_iff htwo
        (state.body.snooperObjs ⟨state.snooperIndex, hplace⟩)).mp
      intro fuel access haccess
      rw [show buf + state.offsetLen + state.maxLen.toNat = buf + size by omega]
      apply hround fuel
      simp only [snooperRoundAccesses, htype, hplace, ite_false, dite_true]
      exact List.mem_cons_of_mem _ (deserializeTlvAccesses_mono (by omega) _ haccess)
  · intro h fuel access haccess
    obtain ⟨visited, hvisited, haccess⟩ := List.mem_flatMap.mp haccess
    have hinv := Loop.forall_mem_trace (fun state : SnooperState =>
      state.AfterProcs memory buf size ∧ state.snooperIndex ≤ SNOOPER_MAX)
      (fun state next hstate hround => by
        obtain ⟨hindex, hnext, hafter⟩ | ⟨result, hresult, -⟩ :=
          snooperRound_cases hstate.1 hround
        · cases hnext
          exact ⟨hafter, hindex⟩
        · cases hresult)
      ⟨SnooperState.AfterProcs.start hsize body, Nat.zero_le _⟩ visited hvisited
    exact snooperRoundAccesses_inside hinv.1 hinv.2 h access haccess

end SnooperTlv

section Fixed

variable {memory : Memory} {msgLen type len : ℕ}

theorem isTlv_iff {buf : ℕ} : isTlv memory buf type len = true ↔
    memory.readU16 buf = type ∧ memory.readU16 (buf + 2) = len := by
  simp [isTlv]

theorem fixedTlvAccesses_inside_iff (hlen : 0 < len) {buf : ℕ} :
    (∀ access ∈ fixedTlvAccesses memory type len buf, access.Inside msgLen) ↔
      FixedTlvFits memory msgLen type len buf := by
  have hTlv : TLV_SIZE = 4 := rfl
  rw [fixedTlvAccesses, FixedTlvFits, List.forall_mem_cons, read_u16_inside_iff]
  by_cases htype : memory.readU16 buf = type
  · by_cases hlength : memory.readU16 (buf + 2) = len
    · simp only [htype, hlength, ne_eq, not_true_eq_false, ite_false, List.forall_mem_cons,
        List.not_mem_nil, false_implies, implies_true, and_true, read_u16_inside_iff,
        read_inside_iff hlen, true_implies]
      omega
    · simp only [htype, hlength, ne_eq, not_true_eq_false, not_false_eq_true, ite_false, ite_true,
        List.forall_mem_cons, List.not_mem_nil, false_implies, implies_true, and_true,
        read_u16_inside_iff, true_implies]
      omega
  · simp [htype]

-- One fixed TLV and what is decoded behind it.
theorem Cursor.accesses_inside_iff {cursor : Cursor} {deserialize : ℕ → IpcBody → Int × IpcBody}
    {rest : ℕ → Cursor → List Access} {body : IpcBody} (hlen : 0 < len)
    (hleft : cursor.maxLen = (msgLen : Int) - cursor.offset)
    (hrun : deserialize cursor.offset cursor.body =
      if !isTlv memory cursor.offset type len then (-1, cursor.body)
      else (((len + TLV_SIZE : ℕ) : Int), body)) :
    (∀ fuel, ∀ access ∈ cursor.accesses memory type len deserialize (rest fuel),
      access.Inside msgLen) ↔
    FixedTlvFits memory msgLen type len cursor.offset ∧
      (isTlv memory cursor.offset type len = true → ∀ fuel, ∀ access ∈
        rest fuel ⟨cursor.maxLen - (len + TLV_SIZE : ℕ), cursor.offset + (len + TLV_SIZE), body⟩,
          access.Inside msgLen) := by
  simp only [Cursor.accesses, List.forall_mem_append, forall_and, forall_const,
    fixedTlvAccesses_inside_iff hlen]
  apply and_congr_right
  intro hfits
  obtain ⟨hno, failed, hstep⟩ | ⟨hvalid, hroom, hstep⟩ :=
    advance_cases cursor deserialize (len + TLV_SIZE) hrun
  · have hinvalid : ¬isTlv memory cursor.offset type len = true := by
      intro hvalid
      obtain ⟨htype, hlength⟩ := isTlv_iff.mp hvalid
      have hend := (hfits.2 htype).2 hlength
      exact hno ⟨hvalid, by omega⟩
    simp [hstep, hinvalid]
  · simp [hstep, hvalid]

end Fixed

theorem msgFits_iff (malloc : ℕ → Bool) (memory : Memory) (msgLen : ℕ) :
    MsgFits malloc memory msgLen ↔
      FixedTlvFits memory msgLen IPCT_PROBE_RANGE U32_SIZE 0 ∧
      (isTlv memory 0 IPCT_PROBE_RANGE U32_SIZE = true →
        FixedTlvFits memory msgLen IPCT_PROBE_PARAMS PROBE_PARAMS_SIZE 8 ∧
        (isTlv memory 8 IPCT_PROBE_PARAMS PROBE_PARAMS_SIZE = true →
          FixedTlvFits memory msgLen IPCT_PROBE_FLAGS U32_SIZE 3164 ∧
          (isTlv memory 3164 IPCT_PROBE_FLAGS U32_SIZE = true →
            FixedTlvFits memory msgLen IPCT_SNOOPER_NUM U32_SIZE 3172 ∧
            (isTlv memory 3172 IPCT_SNOOPER_NUM U32_SIZE = true →
              ObjsFit malloc memory IPC_TLV_LEN_DEFAULT (msgLen - IPC_TLV_LEN_DEFAULT))))) := by
  constructor
  · rintro ⟨hrange, hparams, hflags, hnum, hobjs⟩
    exact ⟨hrange, fun h0 => ⟨hparams h0, fun h8 => ⟨hflags h0 h8, fun h3164 =>
      ⟨hnum h0 h8 h3164, fun h3172 => hobjs ⟨h0, h8, h3164, h3172⟩⟩⟩⟩⟩
  · rintro ⟨hrange, hrest⟩
    exact ⟨hrange, fun h0 => (hrest h0).1, fun h0 h8 => ((hrest h0).2 h8).1,
      fun h0 h8 h3164 => (((hrest h0).2 h8).2 h3164).1,
      fun h => (((hrest h.range).2 h.params).2 h.flags).2 h.num⟩

theorem staysInside_iff (malloc : ℕ → Bool) (memory : Memory) {msgLen : ℕ}
    (hmax : msgLen ≤ GOPHER_IPC_MSG_LEN) (body : IpcBody) :
    StaysInside malloc memory msgLen body ↔ MsgFits malloc memory msgLen := by
  have hint : toInt msgLen = msgLen := by
    simp only [GOPHER_IPC_MSG_LEN] at hmax
    exact toInt_of_bounds (by omega) (by omega)
  have hTlv : TLV_SIZE = 4 := rfl
  have hU32 : U32_SIZE = 4 := rfl
  have hParams : PROBE_PARAMS_SIZE = 3152 := rfl
  have htotal : IPC_TLV_LEN_DEFAULT = 3180 := rfl
  simp only [StaysInside, deserializeIpcMsgAccesses, hint]
  rw [msgFits_iff, Cursor.accesses_inside_iff (by decide) (by simp) rfl]
  refine and_congr_right fun hrange => imp_congr_right fun h0 => ?_
  rw [Cursor.accesses_inside_iff (by decide) (by dsimp only; omega) rfl]
  refine and_congr_right fun hparams => imp_congr_right fun h8 => ?_
  rw [Cursor.accesses_inside_iff (by decide) (by dsimp only; omega) rfl]
  refine and_congr_right fun hflags => imp_congr_right fun h3164 => ?_
  rw [Cursor.accesses_inside_iff (by decide) (by dsimp only; omega) rfl]
  refine and_congr_right fun hnum => imp_congr_right fun h3172 => ?_
  -- behind the four TLVs the message has at least their length
  obtain ⟨htype, hlength⟩ := isTlv_iff.mp h3172
  have hmin : 3180 ≤ msgLen := (hnum.2 htype).2 hlength
  have hleft : (msgLen : Int) - (U32_SIZE + TLV_SIZE : ℕ) - (PROBE_PARAMS_SIZE + TLV_SIZE : ℕ) -
      (U32_SIZE + TLV_SIZE : ℕ) - (U32_SIZE + TLV_SIZE : ℕ) =
        (msgLen - IPC_TLV_LEN_DEFAULT : ℕ) := by omega
  have hoffset : 0 + (U32_SIZE + TLV_SIZE) + (PROBE_PARAMS_SIZE + TLV_SIZE) +
      (U32_SIZE + TLV_SIZE) + (U32_SIZE + TLV_SIZE) = IPC_TLV_LEN_DEFAULT := rfl
  have hend : msgLen = IPC_TLV_LEN_DEFAULT + (msgLen - IPC_TLV_LEN_DEFAULT) := by omega
  simp only [hleft, hoffset]
  by_cases hempty : msgLen - IPC_TLV_LEN_DEFAULT = 0
  · have hobjs : ObjsFit malloc memory IPC_TLV_LEN_DEFAULT 0 := by
      intro count hcount hprocs hinside
      omega
    simp [hempty, hobjs]
  · simp only [Int.natCast_eq_zero, hempty, ite_false]
    rw [← deserializeSnooperTlvAccesses_inside_iff (by omega), ← hend]

-- With four more bytes of the same buffer the unknown subtype is read inside.
theorem staysInside_iff_bareContainer :
    3196 ≤ GOPHER_IPC_MSG_LEN ∧ StaysInside (fun _ => true) bareContainer 3196 .zero := by
  refine ⟨by decide, (staysInside_iff _ _ (by decide) _).mpr ?_⟩
  refine ⟨⟨by decide, by decide⟩, fun _ => ⟨by decide, by decide⟩,
    fun _ _ => ⟨by decide, by decide⟩,
    fun _ _ _ => ⟨by decide, by decide⟩, fun _ count hcount hprocs hinside => ?_⟩
  have hzero : count = 0 := by
    by_contra hne
    have hfirst := (hprocs 0 (by omega)).1
    revert hfirst
    decide
  subst hzero
  refine ⟨by decide, fun _ => ⟨fun _ => ⟨by decide, fun _ => ?_⟩, fun htype => ?_⟩⟩
  · exact .unknown (by decide) rfl
  · exact absurd htype (by decide)

-- A message of the sender with one container without strings: its decoder looks for a
-- sub-TLV behind the end.
theorem bareContainer_leaves : ¬∀ (malloc : ℕ → Bool) (memory : Memory) (msgLen : ℕ),
    msgLen ≤ GOPHER_IPC_MSG_LEN → StaysInside malloc memory msgLen .zero := by
  intro h
  have hfits := (staysInside_iff (fun _ => true) bareContainer (by decide) .zero).mp
    (h (fun _ => true) bareContainer 3192 (by decide))
  have hobj := ((hfits.objs ⟨by decide, by decide, by decide, by decide⟩) 0 (by decide)
    (fun i hi => absurd hi (Nat.not_lt_zero i)) (by decide)).2 (by decide)
  have hstops := (hobj.1 (by decide)).2 (by decide)
  have hlt := hstops.offset_lt
  revert hlt
  decide

end Gopher.Ipc
