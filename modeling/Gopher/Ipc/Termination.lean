import Gopher.Ipc.Build
import Gopher.Ipc.Deserialize

namespace Gopher.Ipc

open Gopher.Lib

section SubTlv

variable {τ : Type} (assign : ℕ → Option (τ → List UInt8 → τ)) (malloc : ℕ → Bool)
  (memory : Memory) (start size : ℕ)

-- The chain of sub-TLVs from an offset on meets an unknown subtype before the
-- end, and every copy on the way there is granted.
inductive SubSpins : ℕ → Prop
  | unknown {offset : ℕ} (hlt : offset < size)
      (htype : assign (memory.readU16 (start + offset)) = none) : SubSpins offset
  | next {offset : ℕ} (hlt : offset < size)
      (htype : (assign (memory.readU16 (start + offset))).isSome)
      (hmalloc : malloc (start + offset) = true)
      (hnext : SubSpins (offset + (memory.readU16 (start + offset + 2) + TLV_SIZE))) :
      SubSpins offset

variable {assign malloc memory start size}

theorem SubSpins.lt {offset : ℕ} (h : SubSpins assign malloc memory start size offset) :
    offset < size := by
  cases h <;> assumption

theorem subTlvRound_known {state : SubState τ} {store : τ → List UInt8 → τ}
    (htype : assign (memory.readU16 (start + state.offset)) = some store)
    (hmalloc : malloc (start + state.offset) = true) :
    ∃ next : SubState τ,
      next.offset = state.offset + (memory.readU16 (start + state.offset + 2) + TLV_SIZE) ∧
      subTlvRound assign malloc memory start size state =
        if next.offset < size then .inl next else .inr next := by
  refine ⟨⟨state.offset + (memory.readU16 (start + state.offset + 2) + TLV_SIZE),
    store state.target (memory.bytes (start + state.offset + TLV_SIZE)
      (memory.readU16 (start + state.offset + 2))), state.err⟩, rfl, ?_⟩
  simp only [subTlvRound, htype, hmalloc, ite_true]

theorem subTlvRound_spins {state : SubState τ}
    (h : SubSpins assign malloc memory start size state.offset) :
    ∃ next, subTlvRound assign malloc memory start size state = .inl next ∧
      SubSpins assign malloc memory start size next.offset := by
  cases h with
  | unknown hlt htype =>
      refine ⟨{ state with err := true }, ?_, .unknown hlt htype⟩
      simp only [subTlvRound, htype, hlt, ite_true]
  | next hlt htype hmalloc hnext =>
      obtain ⟨store, hstore⟩ := Option.isSome_iff_exists.mp htype
      obtain ⟨next, hoffset, hround⟩ := subTlvRound_known hstore hmalloc
      rw [← hoffset] at hnext
      rw [if_pos hnext.lt] at hround
      exact ⟨next, hround, hnext⟩

-- A round that is not on its way to an unknown subtype moves on or leaves.
theorem subTlvRound_progress {state : SubState τ} (hlt : state.offset < size)
    (h : ¬SubSpins assign malloc memory start size state.offset) :
    (∃ next, subTlvRound assign malloc memory start size state = .inl next ∧
      state.offset < next.offset ∧ next.offset < size ∧
      ¬SubSpins assign malloc memory start size next.offset) ∨
    ∃ result, subTlvRound assign malloc memory start size state = .inr result := by
  cases htype : assign (memory.readU16 (start + state.offset)) with
  | none => exact absurd (.unknown hlt htype) h
  | some store =>
      by_cases hmalloc : malloc (start + state.offset) = true
      · obtain ⟨next, hoffset, hround⟩ := subTlvRound_known htype hmalloc
        by_cases hnext : next.offset < size
        · rw [if_pos hnext] at hround
          refine .inl ⟨next, hround, ?_, hnext, ?_⟩
          · simp only [hoffset, TLV_SIZE]
            omega
          · intro hspins
            rw [hoffset] at hspins
            exact h (.next hlt (by simp [htype]) hmalloc hspins)
        · rw [if_neg hnext] at hround
          exact .inr ⟨next, hround⟩
      · refine .inr ⟨{ state with err := true }, ?_⟩
        simp only [subTlvRound, htype, hmalloc, Bool.false_eq_true, ite_false]

-- Without an error the loop is only left once `offset` has passed `size`, which
-- counts the header of the object as well.
theorem subTlvRound_exit {state result : SubState τ}
    (h : subTlvRound assign malloc memory start size state = .inr result) :
    result.err = true ∨ size ≤ result.offset := by
  unfold subTlvRound at h
  dsimp only at h
  split at h
  · split_ifs at h with hmalloc hnext
    · cases h
      exact .inr (Nat.le_of_not_lt hnext)
    · cases h
      exact .inl rfl
  · split_ifs at h with hnext
    cases h
    exact .inl rfl

theorem deserializeSubTlvs_spins (fuel : ℕ) (state : SubState τ)
    (h : SubSpins assign malloc memory start size state.offset) :
    deserializeSubTlvs assign malloc memory start size fuel state = none := by
  have hlt := h.lt
  simp only [deserializeSubTlvs, show ¬size ≤ state.offset by omega, ite_false]
  refine Loop.loop_diverges (fun state => SubSpins assign malloc memory start size state.offset)
    ?_ fuel h
  intro state hspins outcome hround
  obtain ⟨next, hnext, hspins⟩ := subTlvRound_spins hspins
  cases hround
  exact ⟨next, hnext, hspins⟩

theorem deserializeSubTlvs_exit {fuel : ℕ} {state result : SubState τ}
    (h : deserializeSubTlvs assign malloc memory start size fuel state = some result) :
    result.err = true ∨ size ≤ result.offset := by
  unfold deserializeSubTlvs at h
  split_ifs at h with hdone
  · cases h
    exact .inr hdone
  · refine Loop.loop_post (fun _ => True) (fun result => result.err = true ∨ size ≤ result.offset)
      (fun state outcome _ hround => ?_) trivial h
    cases outcome with
    | inl next => exact trivial
    | inr result => exact subTlvRound_exit (Option.some.inj hround)

theorem deserializeSubTlvs_finishes {fuel : ℕ} (state : SubState τ) (hfuel : size < fuel)
    (h : ¬SubSpins assign malloc memory start size state.offset) :
    ∃ result, deserializeSubTlvs assign malloc memory start size fuel state = some result := by
  unfold deserializeSubTlvs
  split_ifs with hdone
  · exact ⟨state, rfl⟩
  · let inv := fun state : SubState τ =>
      state.offset < size ∧ ¬SubSpins assign malloc memory start size state.offset
    have hinv : inv state := ⟨by omega, h⟩
    refine (Loop.loop_terminates inv (fun _ => True) (fun state => size - state.offset)
      (fun state hinv => ?_) hinv (by omega)).imp fun _ hrun => hrun.1
    obtain ⟨next, hround, hlt, hsize, hnext⟩ | ⟨result, hround⟩ :=
      subTlvRound_progress hinv.1 hinv.2
    · exact .inl ⟨next, congrArg some hround, ⟨hsize, hnext⟩, by omega⟩
    · exact .inr ⟨result, congrArg some hround, trivial⟩

end SubTlv

-- The object at `buf`, with `size` bytes of the message left, is a container or a
-- database whose sub-TLVs never end.
def ObjSpins (malloc : ℕ → Bool) (memory : Memory) (buf size : ℕ) : Prop :=
  (memory.readU16 buf = SNOOPER_OBJ_CON ∧ U32_SIZE + U32_SIZE ≤ memory.readU16 (buf + 2) ∧
    SubSpins assignContainer malloc memory (buf + TLV_SIZE) size (U32_SIZE + U32_SIZE)) ∨
  (memory.readU16 buf = SNOOPER_OBJ_GAUSSDB ∧ U32_SIZE ≤ memory.readU16 (buf + 2) ∧
    SubSpins assignGaussdb malloc memory (buf + TLV_SIZE) size U32_SIZE)

theorem ObjSpins.type_lt {malloc : ℕ → Bool} {memory : Memory} {buf size : ℕ}
    (h : ObjSpins malloc memory buf size) : memory.readU16 buf < SNOOPER_OBJ_MAX := by
  rcases h with ⟨htype, -⟩ | ⟨htype, -⟩ <;> rw [htype] <;> decide

def IsProcTlv (memory : Memory) (buf : ℕ) : Prop :=
  memory.readU16 buf = SNOOPER_OBJ_PROC ∧ memory.readU16 (buf + 2) = U32_SIZE

theorem deserializeTlvProc_eq {memory : Memory} {buf size : ℕ} (obj : SnooperObj)
    (htlv : IsProcTlv memory buf) (hsize : 8 ≤ size) :
    deserializeTlvProc memory buf size obj = (8, .proc (memory.readU32 (buf + TLV_SIZE))) := by
  have hroom : ¬size < TLV_SIZE + U32_SIZE := by
    simp only [TLV_SIZE, U32_SIZE]
    omega
  simp only [deserializeTlvProc, hroom, htlv.1, htlv.2, ite_false, ne_eq, not_true_eq_false,
    or_self]
  rfl

theorem deserializeTlvProc_cases (memory : Memory) (buf size : ℕ) (obj : SnooperObj) :
    (IsProcTlv memory buf ∧ 8 ≤ size) ∨ (deserializeTlvProc memory buf size obj).1 = -1 := by
  unfold deserializeTlvProc
  split_ifs with hroom htlv
  · exact .inr rfl
  · exact .inr rfl
  · simp only [TLV_SIZE, U32_SIZE] at hroom
    simp only [ne_eq, not_or, not_not] at htlv
    exact .inl ⟨⟨htlv.2, htlv.1⟩, by omega⟩

-- An object that is left without an error has consumed more than was there.
theorem finishSub_cases {τ : Type} (wrap : τ → SnooperObj) (size : ℕ) {state : SubState τ}
    (h : state.err = true ∨ size ≤ state.offset) :
    (finishSub wrap state).1 = -1 ∨ (size : Int) < (finishSub wrap state).1 := by
  unfold finishSub
  split_ifs with herr
  · exact .inl rfl
  · simp only [herr, Bool.false_eq_true, false_or] at h
    simp only [TLV_SIZE]
    omega

theorem deserializeTlv_spins {malloc : ℕ → Bool} {memory : Memory} {buf size : ℕ}
    (h : ObjSpins malloc memory buf size) (fuel : ℕ) (obj : SnooperObj) :
    deserializeTlv malloc fuel memory (memory.readU16 buf) buf size obj = none := by
  rcases h with ⟨htype, hlen, hspins⟩ | ⟨htype, hlen, hspins⟩
  · simp only [deserializeTlv, deserializeTlvContainer, htype, Nat.not_lt.mpr hlen,
      deserializeSubTlvs_spins fuel ⟨U32_SIZE + U32_SIZE, _, _⟩ hspins]
    rfl
  · simp only [deserializeTlv, deserializeTlvGaussdb, htype, Nat.not_lt.mpr hlen,
      deserializeSubTlvs_spins fuel ⟨U32_SIZE, _, _⟩ hspins]
    rfl

-- Only a process object can be decoded within the bytes it has.
theorem deserializeTlv_exit {malloc : ℕ → Bool} {memory : Memory} {type buf size fuel : ℕ}
    {obj : SnooperObj} {outcome : Int × SnooperObj} (htype : type ≠ SNOOPER_OBJ_PROC)
    (h : deserializeTlv malloc fuel memory type buf size obj = some outcome) :
    outcome.1 = -1 ∨ (size : Int) < outcome.1 := by
  unfold deserializeTlv deserializeTlvContainer deserializeTlvGaussdb at h
  rw [if_neg htype] at h
  split_ifs at h
  · exact .inl (by cases h; rfl)
  · exact .inl (by cases h; rfl)
  · obtain ⟨state, hrun, rfl⟩ := Option.map_eq_some_iff.mp h
    exact finishSub_cases _ _ (deserializeSubTlvs_exit hrun)
  · exact .inl (by cases h; rfl)
  · exact .inl (by cases h; rfl)
  · obtain ⟨state, hrun, rfl⟩ := Option.map_eq_some_iff.mp h
    exact finishSub_cases _ _ (deserializeSubTlvs_exit hrun)

theorem deserializeTlv_finishes {malloc : ℕ → Bool} {memory : Memory} {buf size fuel : ℕ}
    (htype : memory.readU16 buf < SNOOPER_OBJ_MAX) (hfuel : size < fuel)
    (h : ¬ObjSpins malloc memory buf size) (obj : SnooperObj) :
    ∃ outcome, deserializeTlv malloc fuel memory (memory.readU16 buf) buf size obj =
      some outcome := by
  simp only [ObjSpins, not_or, not_and] at h
  have hgauss : memory.readU16 buf ≠ SNOOPER_OBJ_PROC → memory.readU16 buf ≠ SNOOPER_OBJ_CON →
      memory.readU16 buf = SNOOPER_OBJ_GAUSSDB := by
    simp only [SNOOPER_OBJ_MAX, SNOOPER_OBJ_PROC, SNOOPER_OBJ_CON, SNOOPER_OBJ_GAUSSDB] at htype ⊢
    omega
  unfold deserializeTlv
  split_ifs with hproc hcon
  · exact ⟨deserializeTlvProc memory buf size obj, rfl⟩
  · unfold deserializeTlvContainer
    split_ifs with hne hlen
    · exact ⟨(-1, obj), rfl⟩
    · exact ⟨(-1, obj), rfl⟩
    · obtain ⟨result, hrun⟩ := deserializeSubTlvs_finishes ⟨U32_SIZE + U32_SIZE, _, _⟩ hfuel
        (h.1 hcon (Nat.le_of_not_lt hlen))
      exact ⟨finishSub .con result, congrArg (Option.map _) hrun⟩
  · unfold deserializeTlvGaussdb
    split_ifs with hne hlen
    · exact ⟨(-1, obj), rfl⟩
    · exact ⟨(-1, obj), rfl⟩
    · obtain ⟨result, hrun⟩ := deserializeSubTlvs_finishes ⟨U32_SIZE, _, _⟩ hfuel
        (h.2 (hgauss hproc hcon) (Nat.le_of_not_lt hlen))
      exact ⟨finishSub .gaussdb result, congrArg (Option.map _) hrun⟩

-- The message starts with `count` process objects, all of them inside it.
def ProcPrefix (memory : Memory) (buf count : ℕ) : Prop :=
  ∀ i < count, IsProcTlv memory (buf + 8 * i)

-- From `buf` on, with `size` bytes left, the snooper objects lead through process
-- objects to one that never ends.
def SnooperSpins (malloc : ℕ → Bool) (memory : Memory) (buf size : ℕ) : Prop :=
  ∃ count < SNOOPER_MAX, ProcPrefix memory buf count ∧ 8 * count < size ∧
    ObjSpins malloc memory (buf + 8 * count) (size - 8 * count)

section SnooperTlv

variable {malloc : ℕ → Bool} {memory : Memory} {buf size : ℕ}

-- What holds before each round: only process objects lie behind it.
structure SnooperState.AfterProcs (memory : Memory) (buf size : ℕ) (state : SnooperState) :
    Prop where
  offset : state.offsetLen = 8 * state.snooperIndex
  maxLen : state.maxLen = (size : Int) - 8 * state.snooperIndex
  inside : 8 * state.snooperIndex < size
  procs : ProcPrefix memory buf state.snooperIndex

theorem SnooperState.AfterProcs.toNat {state : SnooperState}
    (h : state.AfterProcs memory buf size) :
    state.maxLen.toNat = size - 8 * state.snooperIndex := by
  have hmax := h.maxLen
  omega

-- The state behind one more process object.
def SnooperState.nextProc (memory : Memory) (buf : ℕ) (state : SnooperState)
    (index : Fin SNOOPER_MAX) : SnooperState where
  maxLen := state.maxLen - 8
  offsetLen := state.offsetLen + 8
  snooperIndex := state.snooperIndex + 1
  body := state.body.setObj index (.proc (memory.readU32 (buf + state.offsetLen + TLV_SIZE)))

theorem SnooperState.AfterProcs.nextProc {state : SnooperState}
    (h : state.AfterProcs memory buf size) (htlv : IsProcTlv memory (buf + state.offsetLen))
    (index : Fin SNOOPER_MAX) (hinside : 0 < (state.nextProc memory buf index).maxLen) :
    (state.nextProc memory buf index).AfterProcs memory buf size := by
  obtain ⟨hoffset, hmax, -, hprocs⟩ := h
  simp only [SnooperState.nextProc] at hinside
  refine ⟨?_, ?_, ?_, fun i hi => ?_⟩
  · simp only [SnooperState.nextProc]
    omega
  · simp only [SnooperState.nextProc]
    omega
  · simp only [SnooperState.nextProc]
    omega
  · by_cases hlast : i = state.snooperIndex
    · rw [hlast, ← hoffset]
      exact htlv
    · simp only [SnooperState.nextProc] at hi
      exact hprocs i (by omega)

theorem snooperRound_proc (malloc : ℕ → Bool) (fuel : ℕ) {state : SnooperState}
    (htlv : IsProcTlv memory (buf + state.offsetLen)) (hsize : 8 ≤ state.maxLen.toNat)
    (hindex : state.snooperIndex < SNOOPER_MAX) :
    snooperRound malloc fuel memory buf state =
      let next := state.nextProc memory buf ⟨state.snooperIndex, hindex⟩
      if 0 < next.maxLen then some (.inl next) else some (.inr (next.offsetLen, next.body)) := by
  have htype : memory.readU16 (buf + state.offsetLen) = 0 := htlv.1
  have hproc (obj : SnooperObj) : deserializeTlv malloc fuel memory 0 (buf + state.offsetLen)
      state.maxLen.toNat obj =
        some (8, .proc (memory.readU32 (buf + state.offsetLen + TLV_SIZE))) :=
    congrArg some (deserializeTlvProc_eq obj htlv hsize)
  simp only [snooperRound, htype, hindex, hproc, SNOOPER_OBJ_MAX, dite_true]
  rfl

-- A round over any other object does not leave anything for a next round.
theorem snooperRound_notProc {fuel : ℕ} {state : SnooperState}
    {outcome : SnooperState ⊕ Int × IpcBody}
    (hafter : state.AfterProcs memory buf size)
    (htype : memory.readU16 (buf + state.offsetLen) ≠ SNOOPER_OBJ_PROC)
    (h : snooperRound malloc fuel memory buf state = some outcome) :
    ∃ result, outcome = .inr result ∧ (result.1 = -1 ∨ (size : Int) < result.1) := by
  have hoffset := hafter.offset
  have hleft := hafter.maxLen
  have hinside := hafter.inside
  simp only [snooperRound] at h
  split_ifs at h with hbad hindex
  · exact ⟨_, (Option.some.inj h).symm, .inl rfl⟩
  · cases hrun : deserializeTlv malloc fuel memory (memory.readU16 (buf + state.offsetLen))
        (buf + state.offsetLen) state.maxLen.toNat
        (state.body.snooperObjs ⟨state.snooperIndex, hindex⟩) with
    | none => simp [hrun] at h
    | some decoded =>
        obtain ⟨len, obj⟩ := decoded
        have hcases := deserializeTlv_exit htype hrun
        dsimp only at hcases
        simp only [hrun] at h
        split_ifs at h with hneg hmore
        · exact ⟨_, (Option.some.inj h).symm, .inl rfl⟩
        · omega
        · refine ⟨_, (Option.some.inj h).symm, .inr ?_⟩
          dsimp only
          omega
  · exact ⟨_, (Option.some.inj h).symm, .inl rfl⟩

-- A round goes on behind a process object, or leaves: on a failure, with more bytes than
-- were there, or at the end of a process object that is the last one.
theorem snooperRound_cases {fuel : ℕ} {state : SnooperState}
    {outcome : SnooperState ⊕ Int × IpcBody} (hafter : state.AfterProcs memory buf size)
    (h : snooperRound malloc fuel memory buf state = some outcome) :
    (∃ hindex, outcome = .inl (state.nextProc memory buf ⟨state.snooperIndex, hindex⟩) ∧
      (state.nextProc memory buf ⟨state.snooperIndex, hindex⟩).AfterProcs memory buf size) ∨
    ∃ result, outcome = .inr result ∧ (result.1 = -1 ∨ (size : Int) < result.1 ∨
      state.snooperIndex < SNOOPER_MAX ∧ 8 * (state.snooperIndex + 1) = size ∧
        result.1 = size) := by
  by_cases hproc : memory.readU16 (buf + state.offsetLen) = SNOOPER_OBJ_PROC
  · by_cases hindex : state.snooperIndex < SNOOPER_MAX
    · obtain ⟨htlv, hsize⟩ | hfail := deserializeTlvProc_cases memory (buf + state.offsetLen)
        state.maxLen.toNat (state.body.snooperObjs ⟨state.snooperIndex, hindex⟩)
      · rw [snooperRound_proc malloc fuel htlv hsize hindex] at h
        have hoffset := hafter.offset
        have hmax := hafter.maxLen
        by_cases hnext : 0 < (state.nextProc memory buf ⟨state.snooperIndex, hindex⟩).maxLen
        · rw [if_pos hnext] at h
          exact .inl ⟨hindex, (Option.some.inj h).symm, hafter.nextProc htlv _ hnext⟩
        · rw [if_neg hnext] at h
          refine .inr ⟨_, (Option.some.inj h).symm, .inr (.inr ⟨hindex, ?_, ?_⟩)⟩
          · simp only [SnooperState.nextProc] at hnext
            omega
          · simp only [SnooperState.nextProc] at hnext ⊢
            omega
      · simp only [snooperRound, hindex, deserializeTlv, hproc, hfail, dite_true, ite_true] at h
        exact .inr ⟨_, (Option.some.inj h).symm, .inl rfl⟩
    · simp only [snooperRound, hindex, dite_false, ite_self] at h
      exact .inr ⟨_, (Option.some.inj h).symm, .inl rfl⟩
  · obtain ⟨result, rfl, hresult⟩ := snooperRound_notProc hafter hproc h
    exact .inr ⟨result, rfl, hresult.imp_right .inl⟩

theorem deserializeSnooperTlv_spins (h : SnooperSpins malloc memory buf size) (fuel : ℕ)
    (body : IpcBody) : deserializeSnooperTlv malloc fuel memory buf size body = none := by
  obtain ⟨count, hcount, hprocs, hinside, hobj⟩ := h
  refine Loop.loop_diverges (fun state => state.AfterProcs memory buf size ∧
    state.snooperIndex ≤ count) ?_ fuel ⟨⟨rfl, by simp, by simp; omega, by simp [ProcPrefix]⟩,
      Nat.zero_le count⟩
  rintro state ⟨hafter, hle⟩ outcome hround
  have hoffset := hafter.offset
  have hnat := hafter.toNat
  by_cases hlast : state.snooperIndex = count
  · -- the object that spins: the round itself does not come back
    rw [hlast] at hoffset hnat
    have hspins := deserializeTlv_spins hobj fuel
    have htype := Nat.not_le.mpr hobj.type_lt
    simp [snooperRound, hoffset, hnat, hlast, hcount, hspins, htype] at hround
  · have htlv : IsProcTlv memory (buf + state.offsetLen) := by
      rw [hoffset]
      exact hprocs state.snooperIndex (by omega)
    have hindex : state.snooperIndex < SNOOPER_MAX := by omega
    have hmax := hafter.maxLen
    have hnext : 0 < (state.nextProc memory buf ⟨state.snooperIndex, hindex⟩).maxLen := by
      simp only [SnooperState.nextProc]
      omega
    rw [snooperRound_proc malloc fuel htlv (by omega) hindex, if_pos hnext] at hround
    cases hround
    refine ⟨_, rfl, hafter.nextProc htlv _ hnext, ?_⟩
    simp only [SnooperState.nextProc]
    omega

-- A round that does not spin goes on behind a process object, fails, or reports
-- at least the bytes that were left.
theorem snooperRound_progress {fuel : ℕ} {state : SnooperState} (hfuel : size < fuel)
    (h : ¬SnooperSpins malloc memory buf size) (hafter : state.AfterProcs memory buf size) :
    (∃ next, snooperRound malloc fuel memory buf state = some (.inl next) ∧
      next.AfterProcs memory buf size ∧ next.maxLen.toNat < state.maxLen.toNat) ∨
    ∃ result, snooperRound malloc fuel memory buf state = some (.inr result) ∧
      (result.1 = -1 ∨ (size : Int) ≤ result.1) := by
  have hoffset := hafter.offset
  have hmax := hafter.maxLen
  have hinside := hafter.inside
  by_cases htype : SNOOPER_OBJ_MAX ≤ memory.readU16 (buf + state.offsetLen)
  · exact .inr ⟨(-1, state.body), by simp only [snooperRound, htype, ite_true], .inl rfl⟩
  by_cases hindex : state.snooperIndex < SNOOPER_MAX
  · have hspins : ¬ObjSpins malloc memory (buf + state.offsetLen) state.maxLen.toNat := by
      rw [hafter.toNat, hoffset]
      exact fun hobj => h ⟨state.snooperIndex, hindex, hafter.procs, hinside, hobj⟩
    obtain ⟨⟨len, obj⟩, hrun⟩ := deserializeTlv_finishes (Nat.lt_of_not_le htype)
      (show state.maxLen.toNat < fuel by omega) hspins
      (state.body.snooperObjs ⟨state.snooperIndex, hindex⟩)
    have hcases : len = -1 ∨ (state.maxLen.toNat : Int) < len ∨
        (IsProcTlv memory (buf + state.offsetLen) ∧ 8 ≤ state.maxLen.toNat) := by
      by_cases hproc : memory.readU16 (buf + state.offsetLen) = SNOOPER_OBJ_PROC
      · simp only [deserializeTlv, hproc, ite_true, Option.some.injEq] at hrun
        have hlen := congrArg Prod.fst hrun
        obtain hvalid | hfail := deserializeTlvProc_cases memory (buf + state.offsetLen)
          state.maxLen.toNat (state.body.snooperObjs ⟨state.snooperIndex, hindex⟩)
        · exact .inr (.inr hvalid)
        · exact .inl (hlen.symm.trans hfail)
      · exact (deserializeTlv_exit hproc hrun).imp_right .inl
    obtain hfail | hpast | ⟨htlv, hsize⟩ := hcases
    · refine .inr ⟨(-1, state.body.setObj ⟨state.snooperIndex, hindex⟩ obj), ?_, .inl rfl⟩
      simp only [snooperRound, htype, hindex, hrun, ite_false, dite_true,
        show len < 0 by omega, ite_true]
    · refine .inr ⟨((state.offsetLen + len.toNat : ℕ),
        state.body.setObj ⟨state.snooperIndex, hindex⟩ obj), ?_, .inr ?_⟩
      · simp only [snooperRound, htype, hindex, hrun, ite_false, dite_true,
          show ¬len < 0 by omega, show ¬0 < state.maxLen - len by omega]
      · dsimp only
        omega
    · have hround := snooperRound_proc malloc fuel htlv hsize hindex
      by_cases hnext : 0 < (state.nextProc memory buf ⟨state.snooperIndex, hindex⟩).maxLen
      · refine .inl ⟨_, hround.trans (if_pos hnext), hafter.nextProc htlv _ hnext, ?_⟩
        simp only [SnooperState.nextProc]
        omega
      · refine .inr ⟨_, hround.trans (if_neg hnext), .inr ?_⟩
        simp only [SnooperState.nextProc] at hnext ⊢
        omega
  · refine .inr ⟨(-1, state.body), ?_, .inl rfl⟩
    simp only [snooperRound, htype, hindex, ite_false, dite_false]

theorem deserializeSnooperTlv_finishes {fuel : ℕ} (hsize : 0 < size) (hfuel : size < fuel)
    (h : ¬SnooperSpins malloc memory buf size) (body : IpcBody) :
    ∃ outcome, deserializeSnooperTlv malloc fuel memory buf size body = some outcome ∧
      (outcome.1 = -1 ∨ (size : Int) ≤ outcome.1) := by
  refine Loop.loop_terminates (fun state => state.AfterProcs memory buf size) _
    (fun state => state.maxLen.toNat) (fun state hafter => snooperRound_progress hfuel h hafter)
    ⟨rfl, by simp, by simpa using hsize, by simp [ProcPrefix]⟩ ?_
  dsimp only
  omega

end SnooperTlv

-- The four TLVs every message starts with.
structure FixedTlvs (memory : Memory) : Prop where
  range : isTlv memory 0 IPCT_PROBE_RANGE U32_SIZE = true
  params : isTlv memory 8 IPCT_PROBE_PARAMS PROBE_PARAMS_SIZE = true
  flags : isTlv memory 3164 IPCT_PROBE_FLAGS U32_SIZE = true
  num : isTlv memory 3172 IPCT_SNOOPER_NUM U32_SIZE = true

def IpcBody.readFixed (memory : Memory) (body : IpcBody) : IpcBody :=
  { body with
    probeRangeFlags := memory.readU32 4
    probeParam := ⟨memory.bytes 12 PROBE_PARAMS_SIZE, Memory.length_bytes _ _ _⟩
    probeFlags := memory.readU32 3168
    snooperObjNum := memory.readU32 3176 }

-- A decoder that takes `len` bytes when `valid` holds and otherwise fails.
theorem advance_cases (cursor : Cursor) (deserialize : ℕ → IpcBody → Int × IpcBody) (len : ℕ)
    {valid : Bool} {body : IpcBody}
    (hrun : deserialize cursor.offset cursor.body =
      if !valid then (-1, cursor.body) else (↑len, body)) :
    (¬(valid = true ∧ (len : Int) ≤ cursor.maxLen) ∧
      ∃ failed, cursor.advance deserialize = .error (-1, failed)) ∨
    (valid = true ∧ (len : Int) ≤ cursor.maxLen ∧
      cursor.advance deserialize = .ok ⟨cursor.maxLen - len, cursor.offset + len, body⟩) := by
  cases valid with
  | false =>
      refine .inl ⟨by simp, cursor.body, ?_⟩
      simp only [Bool.not_false, ite_true] at hrun
      simp only [Cursor.advance, hrun]
      rfl
  | true =>
      simp only [Bool.not_true, Bool.false_eq_true, ite_false] at hrun
      by_cases hlen : (len : Int) ≤ cursor.maxLen
      · refine .inr ⟨rfl, hlen, ?_⟩
        simp only [Cursor.advance, hrun, show ¬((len : ℕ) : Int) < 0 by omega,
          show ¬cursor.maxLen - (len : Int) < 0 by omega, ite_false, Int.toNat_natCast]
      · refine .inl ⟨fun h => hlen h.2, body, ?_⟩
        simp only [Cursor.advance, hrun, show ¬((len : ℕ) : Int) < 0 by omega,
          show cursor.maxLen - (len : Int) < 0 by omega, ite_false, ite_true]

-- `complete` says that a chain of decoders goes through to the end.
theorem advance_then {cursor result : Cursor} {deserialize : ℕ → IpcBody → Int × IpcBody}
    {rest : Cursor → Except (Int × IpcBody) Cursor} (len : ℕ) {valid : Bool} {body : IpcBody}
    {complete : Prop}
    (hrun : deserialize cursor.offset cursor.body =
      if !valid then (-1, cursor.body) else (↑len, body))
    (hneed : complete → valid = true ∧ (len : Int) ≤ cursor.maxLen)
    (hrest : valid = true → (len : Int) ≤ cursor.maxLen →
      (¬complete ∧ ∃ failed, rest ⟨cursor.maxLen - len, cursor.offset + len, body⟩ =
        .error (-1, failed)) ∨
      (complete ∧ rest ⟨cursor.maxLen - len, cursor.offset + len, body⟩ = .ok result)) :
    (¬complete ∧ ∃ failed, (cursor.advance deserialize >>= rest) = .error (-1, failed)) ∨
      (complete ∧ (cursor.advance deserialize >>= rest) = .ok result) := by
  obtain ⟨hno, failed, hstep⟩ | ⟨hvalid, hlen, hstep⟩ := advance_cases cursor deserialize len hrun
  · exact .inl ⟨fun h => hno (hneed h), failed, by rw [hstep]; rfl⟩
  · rw [hstep]
    exact hrest hvalid hlen

-- Either one of the fixed TLVs is missing or runs over the end, or the cursor
-- stands behind all four.
theorem deserializeFixedTlvs_cases (memory : Memory) {msgLen : ℕ} (body : IpcBody)
    (hmax : msgLen ≤ GOPHER_IPC_MSG_LEN) :
    (¬(FixedTlvs memory ∧ IPC_TLV_LEN_DEFAULT ≤ msgLen) ∧
      ∃ failed, deserializeFixedTlvs memory msgLen body = .error (-1, failed)) ∨
    ((FixedTlvs memory ∧ IPC_TLV_LEN_DEFAULT ≤ msgLen) ∧
      deserializeFixedTlvs memory msgLen body =
        .ok ⟨(msgLen : Int) - IPC_TLV_LEN_DEFAULT, IPC_TLV_LEN_DEFAULT,
          body.readFixed memory⟩) := by
  have hint : toInt msgLen = msgLen := by
    simp only [GOPHER_IPC_MSG_LEN] at hmax
    exact toInt_of_bounds (by omega) (by omega)
  have htotal : IPC_TLV_LEN_DEFAULT = 3180 := rfl
  simp only [deserializeFixedTlvs, hint]
  refine advance_then 8 rfl (fun h => ⟨h.1.range, by dsimp only; omega⟩) fun hrange _ => ?_
  refine advance_then 3156 rfl (fun h => ⟨h.1.params, by dsimp only; omega⟩) fun hparams _ => ?_
  refine advance_then 8 rfl (fun h => ⟨h.1.flags, by dsimp only; omega⟩) fun hflags _ => ?_
  obtain ⟨hno, failed, hrun⟩ | ⟨hnum, hlen, hrun⟩ :=
    advance_cases _ (deserializeSnooperNumTlv memory) 8 rfl
  · refine .inl ⟨fun h => hno ⟨h.1.num, ?_⟩, failed, hrun⟩
    dsimp only
    omega
  · dsimp only at hlen
    have hleft : (msgLen : Int) - (8 : ℕ) - (3156 : ℕ) - (8 : ℕ) - (8 : ℕ) = msgLen - 3180 := by
      omega
    rw [hleft] at hrun
    exact .inr ⟨⟨⟨hrange, hparams, hflags, hnum⟩, by omega⟩, hrun⟩

-- A decoding that does not fail ends behind the fixed TLVs, or takes the objects that follow them.
theorem deserializeIpcMsg_cases {malloc : ℕ → Bool} {fuel msgLen : ℕ} {memory : Memory}
    {body : IpcBody} {outcome : Int × IpcBody} (hmax : msgLen ≤ GOPHER_IPC_MSG_LEN)
    (hrun : deserializeIpcMsg malloc fuel memory msgLen body = some outcome) :
    outcome.1 = -1 ∨ ∃ left : ℕ, msgLen = IPC_TLV_LEN_DEFAULT + left ∧
      deserializeFixedTlvs memory msgLen body =
        .ok ⟨left, IPC_TLV_LEN_DEFAULT, body.readFixed memory⟩ ∧
      (left = 0 ∧ outcome.2 = body.readFixed memory ∨
        0 < left ∧ ∃ taken : Int, 0 ≤ taken ∧ taken ≤ left ∧
          deserializeSnooperTlv malloc fuel memory IPC_TLV_LEN_DEFAULT left
            (body.readFixed memory) = some (taken, outcome.2)) := by
  obtain ⟨-, failed, hfixed⟩ | ⟨⟨-, hmin⟩, hfixed⟩ := deserializeFixedTlvs_cases memory body hmax
  · simp only [deserializeIpcMsg, hfixed, Option.some.injEq] at hrun
    exact .inl (by rw [← hrun])
  · obtain ⟨left, rfl⟩ := Nat.exists_eq_add_of_le hmin
    have hleft : ((IPC_TLV_LEN_DEFAULT + left : ℕ) : Int) - IPC_TLV_LEN_DEFAULT = left := by omega
    rw [hleft] at hfixed
    rw [deserializeIpcMsg, hfixed] at hrun
    dsimp only at hrun
    by_cases hzero : left = 0
    · rw [if_pos (by omega)] at hrun
      cases hrun
      exact .inr ⟨left, rfl, hfixed, .inl ⟨hzero, rfl⟩⟩
    · rw [if_neg (by omega)] at hrun
      obtain ⟨⟨taken, after⟩, hobjs, hrest⟩ := Option.bind_eq_some_iff.mp hrun
      dsimp only at hrest
      split_ifs at hrest with hneg hpast
      · cases hrest
        exact .inl rfl
      · cases hrest
        exact .inl rfl
      · cases hrest
        exact .inr ⟨left, rfl, hfixed, .inr ⟨by omega, taken, by omega, by omega, hobjs⟩⟩

-- A message whose decoding never ends: the fixed TLVs are in order, and the first
-- object that is not a process reaches an unknown subtype.
def MsgSpins (malloc : ℕ → Bool) (memory : Memory) (msgLen : ℕ) : Prop :=
  FixedTlvs memory ∧ IPC_TLV_LEN_DEFAULT ≤ msgLen ∧
    SnooperSpins malloc memory IPC_TLV_LEN_DEFAULT (msgLen - IPC_TLV_LEN_DEFAULT)

theorem deserializeIpcMsg_spins {malloc : ℕ → Bool} {memory : Memory} {msgLen : ℕ}
    (hmax : msgLen ≤ GOPHER_IPC_MSG_LEN) (h : MsgSpins malloc memory msgLen) (fuel : ℕ)
    (body : IpcBody) : deserializeIpcMsg malloc fuel memory msgLen body = none := by
  obtain ⟨hfixed, hmin, hspins⟩ := h
  obtain ⟨hno, -⟩ | ⟨-, hrun⟩ := deserializeFixedTlvs_cases memory body hmax
  · exact absurd ⟨hfixed, hmin⟩ hno
  · have hleft : (msgLen : Int) - IPC_TLV_LEN_DEFAULT =
        (msgLen - IPC_TLV_LEN_DEFAULT : ℕ) := by omega
    have hpos : ¬((msgLen - IPC_TLV_LEN_DEFAULT : ℕ) : Int) = 0 := by
      obtain ⟨count, -, -, hlt, -⟩ := hspins
      omega
    simp only [deserializeIpcMsg, hrun, hleft, hpos, ite_false,
      deserializeSnooperTlv_spins hspins]
    rfl

-- A decoding that succeeds accounts for the whole message.
theorem deserializeIpcMsg_finishes {malloc : ℕ → Bool} {memory : Memory} {msgLen fuel : ℕ}
    (hmax : msgLen ≤ GOPHER_IPC_MSG_LEN) (h : ¬MsgSpins malloc memory msgLen)
    (hfuel : msgLen < fuel) (body : IpcBody) :
    ∃ outcome, deserializeIpcMsg malloc fuel memory msgLen body = some outcome ∧
      (outcome.1 = -1 ∨ outcome.1 = msgLen) := by
  obtain ⟨-, failed, hrun⟩ | ⟨⟨hfixed, hmin⟩, hrun⟩ := deserializeFixedTlvs_cases memory body hmax
  · exact ⟨(-1, failed), by simp only [deserializeIpcMsg, hrun], .inl rfl⟩
  have hleft : (msgLen : Int) - IPC_TLV_LEN_DEFAULT =
      (msgLen - IPC_TLV_LEN_DEFAULT : ℕ) := by omega
  rw [hleft] at hrun
  by_cases hdone : ((msgLen - IPC_TLV_LEN_DEFAULT : ℕ) : Int) = 0
  · refine ⟨((IPC_TLV_LEN_DEFAULT : ℕ), body.readFixed memory), ?_, .inr ?_⟩
    · simp only [deserializeIpcMsg, hrun, hdone, ite_true]
    · dsimp only
      omega
  · have hspins : ¬SnooperSpins malloc memory IPC_TLV_LEN_DEFAULT (msgLen - IPC_TLV_LEN_DEFAULT) :=
      fun hspins => h ⟨hfixed, hmin, hspins⟩
    obtain ⟨⟨len, decoded⟩, hobjs, hcases⟩ := deserializeSnooperTlv_finishes
      (show 0 < msgLen - IPC_TLV_LEN_DEFAULT by omega)
      (show msgLen - IPC_TLV_LEN_DEFAULT < fuel by omega) hspins (body.readFixed memory)
    simp only [deserializeIpcMsg, hrun, hdone, ite_false, hobjs, Option.bind_eq_bind,
      Option.bind_some]
    dsimp only at hcases
    split_ifs with hneg hpast
    · exact ⟨_, rfl, .inl rfl⟩
    · exact ⟨_, rfl, .inl rfl⟩
    · refine ⟨_, rfl, .inr ?_⟩
      dsimp only
      omega

theorem deserializeIpcMsg_finishes_iff (malloc : ℕ → Bool) (memory : Memory) {msgLen : ℕ}
    (hmax : msgLen ≤ GOPHER_IPC_MSG_LEN) (body : IpcBody) :
    (∃ fuel outcome, deserializeIpcMsg malloc fuel memory msgLen body = some outcome ∧
      (outcome.1 = -1 ∨ outcome.1 = msgLen)) ↔ ¬MsgSpins malloc memory msgLen := by
  constructor
  · rintro ⟨fuel, outcome, hrun, -⟩ hspins
    rw [deserializeIpcMsg_spins hmax hspins] at hrun
    cases hrun
  · intro h
    exact ⟨msgLen + 1, deserializeIpcMsg_finishes hmax h (Nat.lt_succ_self msgLen) body⟩

-- One container without strings and zeros behind it, all in order for the sender.
def bareContainer : Memory
  | 0 => 100
  | 2 => 4
  | 8 => 101
  | 10 => 80
  | 11 => 12
  | 3164 => 102
  | 3166 => 4
  | 3172 => 103
  | 3174 => 4
  | 3176 => 1
  | 3180 => 1
  | 3182 => 8
  | _ => 0

theorem bareContainer_spins (malloc : ℕ → Bool) : MsgSpins malloc bareContainer 3192 := by
  refine ⟨⟨by decide, by decide, by decide, by decide⟩, by decide, 0, by decide, ?_, by decide, ?_⟩
  · intro i hi
    omega
  · exact .inl ⟨by decide, by decide, .unknown (by decide) rfl⟩

theorem deserializeIpcMsg_finishes_iff_bareContainer :
    3192 ≤ GOPHER_IPC_MSG_LEN ∧
      ((∃ fuel outcome, deserializeIpcMsg (fun _ => true) fuel bareContainer 3192 .zero =
          some outcome ∧ (outcome.1 = -1 ∨ outcome.1 = (3192 : ℕ))) ↔
        ¬MsgSpins (fun _ => true) bareContainer 3192) :=
  ⟨by decide, deserializeIpcMsg_finishes_iff _ _ (by decide) _⟩

theorem deserializeIpcMsg_not_total :
    ¬∀ (malloc : ℕ → Bool) (memory : Memory) (msgLen : ℕ), msgLen ≤ GOPHER_IPC_MSG_LEN →
      ∃ fuel outcome, deserializeIpcMsg malloc fuel memory msgLen .zero = some outcome := by
  intro h
  obtain ⟨fuel, outcome, hrun⟩ := h (fun _ => true) bareContainer 3192 (by decide)
  rw [deserializeIpcMsg_spins (by decide) (bareContainer_spins _)] at hrun
  cases hrun

end Gopher.Ipc
