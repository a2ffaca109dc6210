import Gopher.Ipc.Termination

namespace Gopher.Ipc

open Gopher.Lib

-- The places of the array that a successful decoding has filled: one in each round.
def decodedIndices (malloc : ℕ → Bool) (fuel : ℕ) (memory : Memory) (msgLen : ℕ)
    (body : IpcBody) : List ℕ :=
  match deserializeFixedTlvs memory msgLen body with
  | .error _ => []
  | .ok cursor =>
      if cursor.maxLen = 0 then []
      else (Loop.trace (snooperRound malloc fuel memory cursor.offset) fuel
        { maxLen := cursor.maxLen, offsetLen := 0, snooperIndex := 0, body := cursor.body }).map
          SnooperState.snooperIndex

-- The objects below the count are those that were decoded, and no others.
def CountsObjects (malloc : ℕ → Bool) (fuel : ℕ) (memory : Memory) (msgLen : ℕ)
    (body decoded : IpcBody) : Prop :=
  decodedIndices malloc fuel memory msgLen body = List.range decoded.snooperObjNum.toNat ∧
    decoded.snooperObjNum.toNat ≤ SNOOPER_MAX

section SnooperTlv

variable {malloc : ℕ → Bool} {memory : Memory} {buf size fuel : ℕ}

theorem snooperRound_num {state : SnooperState} {outcome : SnooperState ⊕ Int × IpcBody}
    (h : snooperRound malloc fuel memory buf state = some outcome) :
    (outcome.elim (fun next => next.body) Prod.snd).snooperObjNum = state.body.snooperObjNum := by
  simp only [snooperRound] at h
  split_ifs at h with hmax hindex
  · cases h
    rfl
  · cases hrun : deserializeTlv malloc fuel memory (memory.readU16 (buf + state.offsetLen))
        (buf + state.offsetLen) state.maxLen.toNat
        (state.body.snooperObjs ⟨state.snooperIndex, hindex⟩) with
    | none => simp [hrun] at h
    | some decoded =>
        simp only [hrun] at h
        split_ifs at h
        all_goals
          cases h
          rfl
  · cases h
    rfl

-- The count is that of its TLV, whatever is decoded behind it.
theorem deserializeSnooperTlv_num {len : Int} {body : IpcBody} {outcome : Int × IpcBody}
    (h : deserializeSnooperTlv malloc fuel memory buf len body = some outcome) :
    outcome.2.snooperObjNum = body.snooperObjNum := by
  refine Loop.loop_post (fun state => state.body.snooperObjNum = body.snooperObjNum)
    (fun result => result.2.snooperObjNum = body.snooperObjNum)
    (fun state outcome hstate hround => ?_) rfl h
  have hnum := snooperRound_num hround
  cases outcome with
  | inl next => exact hnum.trans hstate
  | inr result => exact hnum.trans hstate

-- A loop that takes no more than was there has filled one place for every eight bytes.
theorem deserializeSnooperTlv_indices (hsize : 0 < size) {body : IpcBody}
    {outcome : Int × IpcBody}
    (h : deserializeSnooperTlv malloc fuel memory buf size body = some outcome)
    (hlow : 0 ≤ outcome.1) (hhigh : outcome.1 ≤ size) :
    ∃ count, (Loop.trace (snooperRound malloc fuel memory buf) fuel
        ⟨size, 0, 0, body⟩).map SnooperState.snooperIndex = List.range count ∧
      count ≤ SNOOPER_MAX ∧ 8 * count = size := by
  have hpost := Loop.loop_trace_post (fun state : SnooperState => state.AfterProcs memory buf size)
    (fun state visited (result : Int × IpcBody) => 0 ≤ result.1 → result.1 ≤ size →
      state.snooperIndex + visited.length ≤ SNOOPER_MAX ∧
        8 * (state.snooperIndex + visited.length) = size ∧
        visited.map SnooperState.snooperIndex =
          List.range' state.snooperIndex visited.length)
    (fun state result hstate hround hlow hhigh => ?_)
    (fun state next hstate hround => ?_)
    ⟨rfl, by simp, by simpa using hsize, by simp [ProcPrefix]⟩ h hlow hhigh
  · obtain ⟨hmax, htotal, hindices⟩ := hpost
    dsimp only at hmax htotal hindices
    rw [Nat.zero_add] at hmax htotal
    refine ⟨_, ?_, hmax, htotal⟩
    rw [hindices, List.range_eq_range']
  · obtain ⟨hindex, hnext, -⟩ | ⟨other, hother, hfail | hpast | ⟨hindex, htotal, -⟩⟩ :=
      snooperRound_cases hstate hround
    · cases hnext
    · cases hother
      omega
    · cases hother
      omega
    · exact ⟨hindex, htotal, rfl⟩
  · obtain ⟨hindex, hnext, hafter⟩ | ⟨result, hresult, -⟩ := snooperRound_cases hstate hround
    · cases hnext
      refine ⟨hafter, fun visited result hvisited hlow hhigh => ?_⟩
      obtain ⟨hmax, htotal, hindices⟩ := hvisited hlow hhigh
      have hsucc : (state.nextProc memory buf ⟨state.snooperIndex, hindex⟩).snooperIndex =
          state.snooperIndex + 1 := rfl
      rw [hsucc] at hmax htotal hindices
      rw [List.length_cons, List.map_cons, hindices, List.range'_succ]
      exact ⟨by omega, by omega, rfl⟩
    · cases hresult

end SnooperTlv

-- A decoding that succeeds counts its objects right exactly if the message goes on behind
-- the fixed TLVs with eight bytes for each object that the count promises.
theorem countsObjects_iff {malloc : ℕ → Bool} {fuel msgLen : ℕ} {memory : Memory} {len : Int}
    {body decoded : IpcBody} (hmax : msgLen ≤ GOPHER_IPC_MSG_LEN)
    (hrun : deserializeIpcMsg malloc fuel memory msgLen body = some (len, decoded))
    (hlen : 0 ≤ len) :
    CountsObjects malloc fuel memory msgLen body decoded ↔
      msgLen = IPC_TLV_LEN_DEFAULT + 8 * (memory.readU32 3176).toNat := by
  obtain hfailed | ⟨left, rfl, hfixed, hleft⟩ := deserializeIpcMsg_cases hmax hrun
  · dsimp only at hfailed
    omega
  have hnum : (body.readFixed memory).snooperObjNum = memory.readU32 3176 := rfl
  dsimp only at hleft
  rw [CountsObjects, decodedIndices, hfixed]
  dsimp only
  obtain ⟨rfl, rfl⟩ | ⟨hpos, taken, hlow, hhigh, hobjs⟩ := hleft
  · rw [Int.natCast_zero, if_pos rfl, hnum]
    constructor
    · rintro ⟨hindices, -⟩
      have hzero := congrArg List.length hindices
      rw [List.length_nil, List.length_range] at hzero
      omega
    · intro htotal
      have hzero : (memory.readU32 3176).toNat = 0 := by omega
      rw [hzero]
      exact ⟨rfl, Nat.zero_le _⟩
  · obtain ⟨count, hindices, hplaces, htotal⟩ :=
      deserializeSnooperTlv_indices hpos hobjs hlow hhigh
    rw [if_neg (by omega), hindices, deserializeSnooperTlv_num hobjs, hnum]
    constructor
    · rintro ⟨hrange, -⟩
      have hcount := congrArg List.length hrange
      rw [List.length_range, List.length_range] at hcount
      omega
    · intro hmsg
      have hcount : (memory.readU32 3176).toNat = count := by omega
      rw [hcount]
      exact ⟨rfl, hplaces⟩

-- The fixed TLVs with a count, and one process object behind them.
def countedProc (count : UInt8) : Memory
  | 0 => 100
  | 2 => 4
  | 8 => 101
  | 10 => 80
  | 11 => 12
  | 3164 => 102
  | 3166 => 4
  | 3172 => 103
  | 3174 => 4
  | 3176 => count
  | 3182 => 4
  | 3184 => 7
  | _ => 0

theorem countsObjects_iff_countedProc : ∃ decoded,
    deserializeIpcMsg (fun _ => true) 2 (countedProc 1) 3188 .zero = some (3188, decoded) ∧
      CountsObjects (fun _ => true) 2 (countedProc 1) 3188 .zero decoded := by
  have hlen : (deserializeIpcMsg (fun _ => true) 2 (countedProc 1) 3188 .zero).map Prod.fst =
      some 3188 := by decide
  obtain ⟨⟨len, decoded⟩, hrun, rfl⟩ := Option.map_eq_some_iff.mp hlen
  exact ⟨decoded, hrun, (countsObjects_iff (by decide) hrun (by decide)).mpr (by decide)⟩

-- Five objects promised, one sent: the four others stay as they were cleared.
theorem countedProc_overcounts : ¬∀ (malloc : ℕ → Bool) (fuel : ℕ) (memory : Memory)
    (msgLen : ℕ) (len : Int) (decoded : IpcBody), msgLen ≤ GOPHER_IPC_MSG_LEN →
      deserializeIpcMsg malloc fuel memory msgLen .zero = some (len, decoded) → 0 ≤ len →
        CountsObjects malloc fuel memory msgLen .zero decoded := by
  intro h
  have hlen : (deserializeIpcMsg (fun _ => true) 2 (countedProc 5) 3188 .zero).map Prod.fst =
      some 3188 := by decide
  obtain ⟨⟨len, decoded⟩, hrun, rfl⟩ := Option.map_eq_some_iff.mp hlen
  have hcounts := h _ _ _ _ _ _ (by decide) hrun (by decide)
  have hindices : decodedIndices (fun _ => true) 2 (countedProc 5) 3188 .zero = [0] := by decide
  have hnum : decoded.snooperObjNum = 5 := by
    have hread : (deserializeIpcMsg (fun _ => true) 2 (countedProc 5) 3188 .zero).map
        (fun outcome => outcome.2.snooperObjNum) = some 5 := by decide
    rw [hrun] at hread
    exact Option.some.inj hread
  have hrange := hcounts.1
  rw [hindices, hnum] at hrange
  revert hrange
  decide

end Gopher.Ipc
