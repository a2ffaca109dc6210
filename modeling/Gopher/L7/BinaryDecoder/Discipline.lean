import Gopher.L7.BinaryDecoder.Chunk

namespace Gopher.L7

open Lib

namespace RawChunk

variable {α : Type} {chunk : RawChunk}

section Offsets

theorem length_unread (chunk : RawChunk) :
    chunk.unread.length = chunk.dataLen.toNat - chunk.currentPos.toNat :=
  Memory.length_bytes _ _ _

theorem toNat_unconsumed (hpos : chunk.currentPos ≤ chunk.dataLen) :
    (chunk.dataLen - chunk.currentPos).toNat = chunk.unread.length := by
  rw [length_unread, UInt64.toNat_sub_of_le _ _ hpos]

-- The test of the decoders, on the bytes that have not been read.
theorem unconsumed_lt_iff (hpos : chunk.currentPos ≤ chunk.dataLen) (len : UInt64) :
    chunk.dataLen - chunk.currentPos < len ↔ chunk.unread.length < len.toNat := by
  rw [UInt64.lt_iff_toNat_lt, toNat_unconsumed hpos]

theorem toNat_parserRawDataOffset (hpos : chunk.currentPos ≤ chunk.dataLen) (offset : UInt64) :
    (chunk.parserRawDataOffset offset).toNat =
      chunk.currentPos.toNat + min offset.toNat chunk.unread.length := by
  have hle := UInt64.le_iff_toNat_le.mp hpos
  have hlen := chunk.length_unread
  have hlt := chunk.dataLen.toNat_lt
  have hmoved : (if offset > chunk.dataLen - chunk.currentPos then chunk.dataLen - chunk.currentPos
      else offset).toNat = min offset.toNat chunk.unread.length := by
    split
    next h =>
      have h' := (unconsumed_lt_iff hpos offset).mp h
      rw [toNat_unconsumed hpos]
      omega
    next h =>
      have h' := mt (unconsumed_lt_iff hpos offset).mpr h
      omega
  rw [parserRawDataOffset, UInt64.toNat_add, hmoved, Nat.mod_eq_of_lt (by omega)]

theorem parserRawDataOffset_le (hpos : chunk.currentPos ≤ chunk.dataLen) (offset : UInt64) :
    chunk.parserRawDataOffset offset ≤ chunk.dataLen := by
  have hle := UInt64.le_iff_toNat_le.mp hpos
  have hlen := chunk.length_unread
  rw [UInt64.le_iff_toNat_le, toNat_parserRawDataOffset hpos]
  omega

theorem bytes_eq_take (data : Memory) (start : ℕ) {len size : ℕ} (h : len ≤ size) :
    data.bytes start len = (data.bytes start size).take len := by
  rw [Memory.bytes, Memory.bytes, ← List.map_take, List.take_range, Nat.min_eq_left h]

theorem copied_eq {len : UInt64} (h : len.toNat ≤ chunk.unread.length) :
    chunk.copied len = chunk.unread.take len.toNat := by
  rw [length_unread] at h
  exact bytes_eq_take chunk.data chunk.currentPos.toNat h

theorem lt_of_mem_copiedAt {len : UInt64} {i : ℕ} (h : len.toNat ≤ chunk.unread.length)
    (hi : i ∈ chunk.copiedAt len) : i < chunk.dataLen.toNat := by
  rw [length_unread] at h
  have hmem := List.mem_range'_1.mp hi
  omega

end Offsets

-- What a decoder owes its caller. `value` is what the bytes that have not been read stand
-- for, when there are enough of them.
structure Disciplined (chunk : RawChunk) (value : Option α) (after : Decoded α) : Prop where
  pos_le : after.currentPos ≤ chunk.dataLen
  reads_lt : ∀ i ∈ after.reads, i < chunk.dataLen.toNat
  success_iff : after.state = .success ↔ value.isSome
  res_eq : after.res = value
  pos_eq : after.state ≠ .success → after.currentPos = chunk.currentPos

section Kinds

variable {granted : Bool}

theorem disciplined_fail {state : ParseState} {reads : List ℕ}
    (hpos : chunk.currentPos ≤ chunk.dataLen) (hstate : state ≠ .success)
    (hreads : ∀ i ∈ reads, i < chunk.dataLen.toNat) :
    chunk.Disciplined (none : Option α) (chunk.fail state reads) where
  pos_le := hpos
  reads_lt := hreads
  success_iff := iff_of_false hstate Bool.false_ne_true
  res_eq := rfl
  pos_eq := fun _ => rfl

theorem disciplined_extractPrefixBytesString {decodeLen offset : UInt64} {searched : List ℕ}
    {value : List UInt8} (hpos : chunk.currentPos ≤ chunk.dataLen)
    (hlen : decodeLen.toNat ≤ chunk.unread.length)
    (hvalue : chunk.unread.take decodeLen.toNat = value)
    (hsearched : ∀ i ∈ searched, i < chunk.dataLen.toNat) :
    chunk.Disciplined (some value)
      (chunk.extractPrefixBytesString granted decodeLen offset searched) ↔ granted = true := by
  subst hvalue
  rw [extractPrefixBytesString]
  cases granted with
  | false =>
      refine iff_of_false (fun h => ?_) Bool.false_ne_true
      cases h.res_eq
  | true =>
      refine iff_of_true ⟨parserRawDataOffset_le hpos offset, ?_, iff_of_true rfl rfl,
        congrArg some (copied_eq hlen), fun h => absurd rfl h⟩ rfl
      intro i hi
      rcases List.mem_append.mp hi with hi | hi
      · exact hsearched i hi
      · exact lt_of_mem_copiedAt hlen hi

theorem disciplined_extract (granted : Bool) (hpos : chunk.currentPos ≤ chunk.dataLen)
    (len : UInt64) (value : List UInt8 → α) :
    chunk.Disciplined
      (if len.toNat ≤ chunk.unread.length then some (value (chunk.unread.take len.toNat)) else none)
      (chunk.extract granted len value) ↔ (len.toNat ≤ chunk.unread.length → granted = true) := by
  rw [extract]
  by_cases hlen : len.toNat ≤ chunk.unread.length
  · rw [if_pos hlen, if_neg (mt (unconsumed_lt_iff hpos len).mp (by omega))]
    cases granted with
    | false =>
        refine iff_of_false (fun h => ?_) fun h => Bool.false_ne_true (h hlen)
        cases h.res_eq
    | true =>
        refine iff_of_true ⟨parserRawDataOffset_le hpos len, ?_, iff_of_true rfl rfl, ?_,
          fun h => absurd rfl h⟩ fun _ => rfl
        · exact fun i hi => lt_of_mem_copiedAt hlen hi
        · exact congrArg (fun bytes => some (value bytes)) (copied_eq hlen)
  · rw [if_neg hlen, if_pos ((unconsumed_lt_iff hpos len).mpr (by omega))]
    refine iff_of_true (disciplined_fail hpos (by decide) (by simp)) fun h => absurd h hlen

-- The string is copied as the chunk is.
theorem decoderExtractString_eq (chunk : RawChunk) (granted : Bool) (decodeLen : UInt64) :
    chunk.decoderExtractString granted decodeLen =
      chunk.decoderExtractRawDataWithLen granted decodeLen := by
  rw [decoderExtractString, decoderExtractRawDataWithLen, extract, extractPrefixBytesString]
  rfl

theorem disciplined_decoderExtractRawDataWithLen (granted : Bool)
    (hpos : chunk.currentPos ≤ chunk.dataLen) (decodeLen : UInt64) :
    chunk.Disciplined
      (if decodeLen.toNat ≤ chunk.unread.length then some (chunk.unread.take decodeLen.toNat)
        else none)
      (chunk.decoderExtractRawDataWithLen granted decodeLen) ↔
        (decodeLen.toNat ≤ chunk.unread.length → granted = true) :=
  disciplined_extract granted hpos decodeLen id

theorem disciplined_decoderExtractPrefixIgnore (hpos : chunk.currentPos ≤ chunk.dataLen)
    (len : UInt64) :
    chunk.Disciplined (if len.toNat ≤ chunk.unread.length then some () else none)
      (chunk.decoderExtractPrefixIgnore len) := by
  rw [decoderExtractPrefixIgnore]
  by_cases hlen : len.toNat ≤ chunk.unread.length
  · rw [if_pos hlen, if_neg (mt (unconsumed_lt_iff hpos len).mp (by omega))]
    exact ⟨parserRawDataOffset_le hpos len, by simp, iff_of_true rfl rfl, rfl,
      fun h => absurd rfl h⟩
  · rw [if_neg hlen, if_pos ((unconsumed_lt_iff hpos len).mpr (by omega))]
    exact disciplined_fail hpos (by decide) (by simp)

end Kinds

section Search

variable {data : Memory} {searchChar : UInt8} {needle : List UInt8} {start : ℕ} {granted : Bool}

theorem bytes_succ (data : Memory) (i count : ℕ) :
    data.bytes i (count + 1) = data i :: data.bytes (i + 1) count := by
  rw [Memory.bytes, List.range_succ_eq_map, List.map_cons, List.map_map]
  refine congrArg (data i :: ·) (List.map_congr_left fun j _ => ?_)
  exact congrArg data (Nat.add_right_comm i j 1)

theorem findChar_eq (data : Memory) (searchChar : UInt8) (count i : ℕ) :
    (findChar data searchChar count i).1 =
      ((data.bytes i count).findIdx? (· == searchChar)).map (i + ·) := by
  induction count generalizing i with
  | zero => rfl
  | succ count ih =>
      rw [bytes_succ, List.findIdx?_cons, findChar]
      by_cases hchar : data i = searchChar
      · rw [if_neg (not_not.mpr hchar), if_pos (by simpa using hchar)]
        rfl
      · rw [if_pos hchar, if_neg (by simpa using hchar), Option.map_map]
        dsimp only
        rw [ih]
        congr 1
        funext k
        dsimp only [Function.comp]
        omega

theorem lt_of_mem_findChar {count i j : ℕ} (h : j ∈ (findChar data searchChar count i).2) :
    j < i + count := by
  induction count generalizing i with
  | zero => cases h
  | succ count ih =>
      rw [findChar] at h
      split at h
      · rcases List.mem_cons.mp h with rfl | h
        · omega
        · have := ih h
          omega
      · have := List.mem_singleton.mp h
        omega

-- The search stays inside the chunk, and finds the first of the bytes.
theorem decoderExtractStrUntilChar_eq (granted : Bool) (hpos : chunk.currentPos ≤ chunk.dataLen)
    (searchChar : UInt8) :
    ∃ reads, (∀ i ∈ reads, i < chunk.dataLen.toNat) ∧
      chunk.decoderExtractStrUntilChar granted searchChar =
        match chunk.unread.findIdx? (· == searchChar) with
        | none => chunk.fail .notFound reads
        | some k =>
            chunk.extractPrefixBytesString granted (UInt64.ofNat k) (UInt64.ofNat k + 1) reads := by
  have hle := UInt64.le_iff_toNat_le.mp hpos
  have hlen := chunk.length_unread
  have hlt := chunk.dataLen.toNat_lt
  have hfound : (findChar chunk.data searchChar
      (chunk.dataLen.toNat - chunk.currentPos.toNat) chunk.currentPos.toNat).1 =
        (chunk.unread.findIdx? (· == searchChar)).map (chunk.currentPos.toNat + ·) :=
    findChar_eq _ _ _ _
  refine ⟨(findChar chunk.data searchChar
    (chunk.dataLen.toNat - chunk.currentPos.toNat) chunk.currentPos.toNat).2, ?_, ?_⟩
  · intro i hi
    have := lt_of_mem_findChar hi
    omega
  · rw [decoderExtractStrUntilChar]
    generalize findChar chunk.data searchChar
      (chunk.dataLen.toNat - chunk.currentPos.toNat) chunk.currentPos.toNat = pair at hfound
    obtain ⟨found, reads⟩ := pair
    cases hindex : chunk.unread.findIdx? (· == searchChar) with
    | none =>
        rw [hindex] at hfound
        obtain rfl : found = none := hfound
        rfl
    | some k =>
        obtain ⟨hk, -⟩ := List.findIdx?_eq_some_iff_getElem.mp hindex
        rw [hindex] at hfound
        obtain rfl : found = some (chunk.currentPos.toNat + k) := hfound
        have hdecode : UInt64.ofNat (chunk.currentPos.toNat + k) - chunk.currentPos =
            UInt64.ofNat k := by
          rw [Nat.add_comm, UInt64.ofNat_add, UInt64.ofNat_toNat, UInt64.add_sub_cancel]
        dsimp only
        rw [hdecode]

theorem disciplined_decoderExtractStrUntilChar (granted : Bool)
    (hpos : chunk.currentPos ≤ chunk.dataLen) (searchChar : UInt8) :
    chunk.Disciplined
      (if searchChar ∈ chunk.unread then some (chunk.unread.takeWhile (· != searchChar)) else none)
      (chunk.decoderExtractStrUntilChar granted searchChar) ↔
        (searchChar ∈ chunk.unread → granted = true) := by
  have hlen := chunk.length_unread
  have hlt := chunk.dataLen.toNat_lt
  obtain ⟨reads, hreads, heq⟩ := decoderExtractStrUntilChar_eq granted hpos searchChar
  rw [heq]
  cases hindex : chunk.unread.findIdx? (· == searchChar) with
  | none =>
      have hnot : searchChar ∉ chunk.unread := by
        intro hmem
        have hne := List.findIdx?_eq_none_iff.mp hindex searchChar hmem
        rw [beq_self_eq_true] at hne
        cases hne
      rw [if_neg hnot]
      exact iff_of_true (disciplined_fail hpos (by decide) hreads) fun h => absurd h hnot
  | some k =>
      obtain ⟨hk, hat, -⟩ := List.findIdx?_eq_some_iff_getElem.mp hindex
      have hmem : searchChar ∈ chunk.unread := by
        rw [← eq_of_beq hat]
        exact List.getElem_mem hk
      have hdecode : (UInt64.ofNat k).toNat = k := by
        rw [UInt64.toNat_ofNat']
        omega
      have htake : chunk.unread.take (UInt64.ofNat k).toNat =
          chunk.unread.takeWhile (· != searchChar) := by
        have hidx := (List.findIdx?_eq_some_iff_findIdx_eq.mp hindex).2
        rw [List.takeWhile_eq_take_findIdx_not, hdecode]
        simp only [bne, Bool.not_not, hidx]
      rw [if_pos hmem]
      exact (disciplined_extractPrefixBytesString hpos (by omega) htake hreads).trans
        ⟨fun h _ => h, fun h => h hmem⟩

-- The bytes in front of the first occurrence of the needle.
def before (needle : List UInt8) : List UInt8 → Option (List UInt8)
  | [] => if needle = [] then some [] else none
  | byte :: rest =>
      if needle.isPrefixOf (byte :: rest) then some []
      else (before needle rest).map (byte :: ·)

theorem before_isSome_iff (bytes : List UInt8) :
    (before needle bytes).isSome ↔ needle <:+: bytes := by
  induction bytes with
  | nil =>
      rw [before, List.infix_nil]
      by_cases h : needle = [] <;> simp [h]
  | cons byte rest ih =>
      rw [before, List.infix_cons_iff]
      by_cases h : needle.isPrefixOf (byte :: rest)
      · rw [if_pos h]
        exact iff_of_true rfl (.inl (List.isPrefixOf_iff_prefix.mp h))
      · rw [if_neg h, Option.isSome_map, ih]
        exact (or_iff_right (mt List.isPrefixOf_iff_prefix.mpr h)).symm

theorem before_prefix {bytes front : List UInt8} (h : before needle bytes = some front) :
    front <+: bytes := by
  induction bytes generalizing front with
  | nil =>
      rw [before] at h
      split_ifs at h
      cases h
      exact List.prefix_refl _
  | cons byte rest ih =>
      rw [before] at h
      split_ifs at h
      · cases h
        exact List.nil_prefix
      · obtain ⟨tail, htail, rfl⟩ := Option.map_eq_some_iff.mp h
        exact List.prefix_cons_inj byte |>.mpr (ih htail)

theorem before_nil (bytes : List UInt8) : before [] bytes = some [] := by
  cases bytes <;> rfl

-- The loop on a haystack in which the needle has `count` places.
theorem findNeedle_eq (data : Memory) (start : ℕ) (hneedle : needle ≠ []) (count i : ℕ) :
    (findNeedle data start needle count i).1 =
      (before needle (data.bytes (start + i) (count + needle.length - 1))).map
        fun front => i + front.length := by
  have hpos := List.length_pos_iff.mpr hneedle
  induction count generalizing i with
  | zero =>
      have hnone : before needle (data.bytes (start + i) (0 + needle.length - 1)) = none := by
        rw [← Option.not_isSome_iff_eq_none, before_isSome_iff]
        intro hinfix
        have := hinfix.length_le
        rw [Memory.length_bytes] at this
        omega
      rw [hnone]
      rfl
  | succ count ih =>
      have hbytes : data.bytes (start + i) (count + 1 + needle.length - 1) =
          data (start + i) :: data.bytes (start + (i + 1)) (count + needle.length - 1) := by
        rw [show count + 1 + needle.length - 1 = (count + needle.length - 1) + 1 by omega,
          bytes_succ, Nat.add_assoc]
      have hneedle : needle.isPrefixOf (data.bytes (start + i) (count + 1 + needle.length - 1)) ↔
          data.bytes (start + i) needle.length = needle := by
        rw [List.isPrefixOf_iff_prefix, List.prefix_iff_eq_take,
          ← bytes_eq_take data (start + i) (by omega), eq_comm]
      rw [hbytes] at hneedle ⊢
      rw [findNeedle, before]
      by_cases hsame : data.bytes (start + i) needle.length = needle
      · rw [if_pos (hneedle.mpr hsame)]
        simp only [if_pos hsame, Option.map_some, List.length_nil, Nat.add_zero]
      · rw [if_neg (mt hneedle.mp hsame)]
        simp only [if_neg hsame, ih, Option.map_map]
        congr 1
        funext front
        simp only [Function.comp, List.length_cons]
        omega

theorem lt_of_mem_findNeedle {count i j : ℕ} (h : j ∈ (findNeedle data start needle count i).2) :
    j + 1 < start + i + count + needle.length := by
  induction count generalizing i with
  | zero => cases h
  | succ count ih =>
      rw [findNeedle] at h
      split at h
      · have := List.mem_range'_1.mp h
        omega
      · rcases List.mem_append.mp h with h | h
        · have := List.mem_range'_1.mp h
          omega
        · have := ih h
          omega

-- The first comparison alone needs all of the bytes that the needle is long.
theorem mem_findNeedle (data : Memory) (start count i : ℕ) (hneedle : needle ≠ []) :
    start + i + needle.length - 1 ∈ (findNeedle data start needle (count + 1) i).2 := by
  have hpos := List.length_pos_iff.mpr hneedle
  have hmem : start + i + needle.length - 1 ∈ List.range' (start + i) needle.length :=
    List.mem_range'_1.mpr (by omega)
  rw [findNeedle]
  split
  · exact hmem
  · exact List.mem_append_left _ hmem

theorem disciplined_of_needle_fits (hpos : chunk.currentPos ≤ chunk.dataLen)
    (hfits : needle.length ≤ chunk.unread.length) :
    chunk.Disciplined (before needle chunk.unread)
      (chunk.decoderExtractStrUntilStr granted needle) ↔
        (needle <:+: chunk.unread → granted = true) := by
  have hle := UInt64.le_iff_toNat_le.mp hpos
  have hlen := chunk.length_unread
  have hlt := chunk.dataLen.toNat_lt
  have hfound : (memmemCustom chunk.data chunk.currentPos.toNat
      (chunk.dataLen - chunk.currentPos) needle).1 = (before needle chunk.unread).map List.length ∧
      ∀ i ∈ (memmemCustom chunk.data chunk.currentPos.toNat
        (chunk.dataLen - chunk.currentPos) needle).2, i < chunk.dataLen.toNat := by
    rw [memmemCustom]
    by_cases hzero : needle.length = 0
    · rw [if_pos hzero, List.length_eq_zero_iff.mp hzero, before_nil]
      exact ⟨rfl, by simp⟩
    · have hne : needle ≠ [] := fun h => hzero (List.length_eq_zero_iff.mpr h)
      have hneedle : (UInt64.ofNat needle.length).toNat = needle.length := by
        rw [UInt64.toNat_ofNat']
        omega
      have hcount : (chunk.dataLen - chunk.currentPos - UInt64.ofNat needle.length).toNat =
          chunk.unread.length - needle.length := by
        rw [UInt64.toNat_sub_of_le, toNat_unconsumed hpos, hneedle]
        rw [UInt64.le_iff_toNat_le, toNat_unconsumed hpos, hneedle]
        exact hfits
      rw [if_neg hzero, hcount]
      constructor
      · rw [findNeedle_eq _ _ hne,
          show chunk.unread.length - needle.length + 1 + needle.length - 1 =
            chunk.dataLen.toNat - chunk.currentPos.toNat by omega]
        simp only [Nat.zero_add]
        rfl
      · intro i hi
        have := lt_of_mem_findNeedle hi
        omega
  obtain ⟨hfound, hreads⟩ := hfound
  rw [decoderExtractStrUntilStr, ← before_isSome_iff]
  dsimp only
  cases hpair : memmemCustom chunk.data chunk.currentPos.toNat
      (chunk.dataLen - chunk.currentPos) needle with
  | mk found reads =>
      rw [hpair] at hfound hreads
      cases hbefore : before needle chunk.unread with
      | none =>
          rw [hbefore] at hfound
          obtain rfl : found = none := hfound
          exact iff_of_true (disciplined_fail hpos (by decide) hreads)
            fun h => absurd h Bool.false_ne_true
      | some front =>
          rw [hbefore] at hfound
          obtain rfl : found = some front.length := hfound
          have hfront := before_prefix hbefore
          have hfrontLen := hfront.length_le
          have hdecode : (UInt64.ofNat front.length).toNat = front.length := by
            rw [UInt64.toNat_ofNat']
            omega
          have htake : chunk.unread.take (UInt64.ofNat front.length).toNat = front := by
            rw [hdecode]
            exact (List.prefix_iff_eq_take.mp hfront).symm
          exact (disciplined_extractPrefixBytesString hpos (by omega) htake hreads).trans
            ⟨fun h _ => h, fun h => h rfl⟩

-- A needle that is longer than what is left is compared with bytes behind the chunk.
theorem not_disciplined_of_needle_long {value : Option (List UInt8)}
    (hpos : chunk.currentPos ≤ chunk.dataLen) (hlong : chunk.unread.length < needle.length) :
    ¬chunk.Disciplined value (chunk.decoderExtractStrUntilStr granted needle) := by
  have hle := UInt64.le_iff_toNat_le.mp hpos
  have hlen := chunk.length_unread
  intro h
  have hne : needle ≠ [] := List.length_pos_iff.mp (by omega)
  have hread := mem_findNeedle chunk.data chunk.currentPos.toNat
    (chunk.dataLen - chunk.currentPos - UInt64.ofNat needle.length).toNat 0 hne
  have hmem : chunk.currentPos.toNat + 0 + needle.length - 1 ∈
      (chunk.decoderExtractStrUntilStr granted needle).reads := by
    rw [decoderExtractStrUntilStr, memmemCustom, if_neg (by simpa using hne)]
    dsimp only
    generalize findNeedle chunk.data chunk.currentPos.toNat needle
      ((chunk.dataLen - chunk.currentPos - UInt64.ofNat needle.length).toNat + 1) 0 = pair at hread
    obtain ⟨found, reads⟩ := pair
    cases found with
    | none => exact hread
    | some found =>
        dsimp only
        rw [extractPrefixBytesString]
        cases granted with
        | false => exact hread
        | true => exact List.mem_append_left _ hread
  have := h.reads_lt _ hmem
  omega

end Search

section Integers

variable {width : ℕ}

-- One round of the loop over the bytes.
theorem or_shiftLeft_eq (n : ℕ) (byte : UInt8) :
    BitVec.ofNat width byte.toNat ||| BitVec.ofNat width n <<< 8 =
      BitVec.ofNat width (n * 256 + byte.toNat) := by
  apply BitVec.eq_of_toNat_eq
  have hshift : (BitVec.ofNat width n <<< 8).toNat = (n <<< 8) % 2 ^ width := by
    rw [BitVec.toNat_shiftLeft, BitVec.toNat_ofNat, Nat.shiftLeft_eq, Nat.shiftLeft_eq,
      Nat.mod_mul_mod]
  have hsum : n <<< 8 ||| byte.toNat = n * 256 + byte.toNat := by
    have hbyte : byte.toNat < 2 ^ 8 := byte.toNat_lt
    rw [← Nat.shiftLeft_add_eq_or_of_lt hbyte n, Nat.shiftLeft_eq]
  rw [BitVec.toNat_or, hshift, BitVec.toNat_ofNat, BitVec.toNat_ofNat, ← Nat.or_mod_two_pow,
    Nat.or_comm, hsum]

theorem foldl_or_shiftLeft (bytes : List UInt8) (n : ℕ) :
    bytes.foldl (fun (res : BitVec width) byte => BitVec.ofNat width byte.toNat ||| res <<< 8)
        (BitVec.ofNat width n) =
      BitVec.ofNat width (bytes.foldl (fun n byte => n * 256 + byte.toNat) n) := by
  induction bytes generalizing n with
  | nil => rfl
  | cons byte bytes ih => rw [List.foldl_cons, List.foldl_cons, or_shiftLeft_eq, ih]

theorem foldl_lt (bytes : List UInt8) (n : ℕ) :
    bytes.foldl (fun n byte => n * 256 + byte.toNat) n < (n + 1) * 256 ^ bytes.length := by
  induction bytes generalizing n with
  | nil => simp
  | cons byte bytes ih =>
      have hbyte : byte.toNat < 256 := byte.toNat_lt
      calc _ < (n * 256 + byte.toNat + 1) * 256 ^ bytes.length := ih _
        _ ≤ ((n + 1) * 256) * 256 ^ bytes.length := Nat.mul_le_mul_right _ (by omega)
        _ = (n + 1) * 256 ^ (byte :: bytes).length := by
          rw [List.length_cons, Nat.pow_succ, Nat.mul_assoc, Nat.mul_comm 256]

-- What the bytes stand for, the first one being the highest.
def IntType.value (type : IntType) (bytes : List UInt8) : ℤ :=
  let n : ℕ := bytes.foldl (fun n byte => n * 256 + byte.toNat) 0
  if type.signed then Int.bmod n (2 ^ (8 * type.size.toNat)) else n

theorem read_bigEndianBytesToInt (type : IntType) {bytes : List UInt8}
    (hlen : bytes.length = type.size.toNat) :
    type.read (bigEndianBytesToInt type bytes) = type.value bytes := by
  have hfold : bigEndianBytesToInt type bytes =
      BitVec.ofNat _ (bytes.foldl (fun n byte => n * 256 + byte.toNat) 0) :=
    foldl_or_shiftLeft bytes 0
  have hlt := foldl_lt bytes 0
  rw [hlen, Nat.zero_add, Nat.one_mul, show 256 ^ type.size.toNat = 2 ^ (8 * type.size.toNat) from
    (Nat.pow_mul 2 8 _).symm] at hlt
  rw [hfold, IntType.read, IntType.value]
  cases type.signed with
  | true => exact BitVec.toInt_ofNat' _
  | false =>
      simp only [Bool.false_eq_true, if_false]
      rw [BitVec.toNat_ofNat, Nat.mod_eq_of_lt hlt]

theorem disciplined_decoderExtractInt (hpos : chunk.currentPos ≤ chunk.dataLen) (type : IntType) :
    chunk.Disciplined
      (if type.size.toNat ≤ chunk.unread.length then
        some (type.value (chunk.unread.take type.size.toNat)) else none)
      (chunk.decoderExtractInt type) := by
  have hdisciplined := (disciplined_extract true hpos type.size fun bytes =>
    type.read (bigEndianBytesToInt type bytes)).mpr fun _ => rfl
  rw [decoderExtractInt]
  by_cases hlen : type.size.toNat ≤ chunk.unread.length
  · rw [if_pos hlen] at hdisciplined ⊢
    rwa [read_bigEndianBytesToInt type (by rw [List.length_take]; omega)] at hdisciplined
  · rwa [if_neg hlen] at hdisciplined ⊢

theorem disciplined_decoderExtractChar (hpos : chunk.currentPos ≤ chunk.dataLen) :
    chunk.Disciplined chunk.unread.head? chunk.decoderExtractChar := by
  have hdisciplined := (disciplined_extract true hpos 1 fun bytes : List UInt8 =>
    bytes.headD 0).mpr fun _ => rfl
  have hhead : (if (1 : UInt64).toNat ≤ chunk.unread.length then
      some ((chunk.unread.take (1 : UInt64).toNat).headD 0) else none) = chunk.unread.head? := by
    cases chunk.unread with
    | nil => rfl
    | cons byte rest => simp
  rwa [hhead] at hdisciplined

end Integers

section Calls

-- A string of C with a length of type `size_t`.
structure SearchStr where
  bytes : List UInt8
  length_lt : bytes.length < 2 ^ 64

-- A call of one of the decoders, with what it asks for.
inductive Call
  | char
  | int (type : IntType)
  | rawDataWithLen (decodeLen : UInt64)
  | string (decodeLen : UInt64)
  | strUntilChar (searchChar : UInt8)
  | strUntilStr (searchStr : SearchStr)
  | prefixIgnore (prefixLen : UInt64)

inductive Value
  | char (byte : UInt8)
  | int (n : ℤ)
  | bytes (bytes : List UInt8)
  | none

def Decoded.map {α β : Type} (f : α → β) (after : Decoded α) : Decoded β :=
  ⟨after.state, after.currentPos, after.res.map f, after.reads⟩

variable {granted : Bool}

def Call.run (call : Call) (granted : Bool) (chunk : RawChunk) : Decoded Value :=
  match call with
  | .char => Decoded.map .char chunk.decoderExtractChar
  | .int type => Decoded.map .int (chunk.decoderExtractInt type)
  | .rawDataWithLen decodeLen =>
      Decoded.map .bytes (chunk.decoderExtractRawDataWithLen granted decodeLen)
  | .string decodeLen => Decoded.map .bytes (chunk.decoderExtractString granted decodeLen)
  | .strUntilChar searchChar =>
      Decoded.map .bytes (chunk.decoderExtractStrUntilChar granted searchChar)
  | .strUntilStr searchStr =>
      Decoded.map .bytes (chunk.decoderExtractStrUntilStr granted searchStr.bytes)
  | .prefixIgnore prefixLen =>
      Decoded.map (fun _ => .none) (chunk.decoderExtractPrefixIgnore prefixLen)

-- What the bytes that have not been read hold for the call, when they are enough.
def Call.decoded (call : Call) (unread : List UInt8) : Option Value :=
  match call with
  | .char => unread.head?.map .char
  | .int type =>
      if type.size.toNat ≤ unread.length then
        some (.int (type.value (unread.take type.size.toNat))) else none
  | .rawDataWithLen decodeLen | .string decodeLen =>
      if decodeLen.toNat ≤ unread.length then
        some (.bytes (unread.take decodeLen.toNat)) else none
  | .strUntilChar searchChar =>
      if searchChar ∈ unread then some (.bytes (unread.takeWhile (· != searchChar))) else none
  | .strUntilStr searchStr => (before searchStr.bytes unread).map .bytes
  | .prefixIgnore prefixLen => if prefixLen.toNat ≤ unread.length then some .none else none

-- The calls that copy what they find to memory of its own.
def Call.allocates : Call → Bool
  | .rawDataWithLen _ | .string _ | .strUntilChar _ | .strUntilStr _ => true
  | .char | .int _ | .prefixIgnore _ => false

-- A string to search for is not longer than what is left to search.
def Call.Fits (call : Call) (unread : List UInt8) : Prop :=
  match call with
  | .strUntilStr searchStr => searchStr.bytes.length ≤ unread.length
  | _ => True

theorem disciplined_map_iff {α β : Type} {value : Option α} {after : Decoded α} {f : α → β}
    (hf : Function.Injective f) :
    chunk.Disciplined (value.map f) (Decoded.map f after) ↔ chunk.Disciplined value after := by
  constructor
  · intro h
    have hsuccess := h.success_iff
    rw [Option.isSome_map] at hsuccess
    exact ⟨h.pos_le, h.reads_lt, hsuccess, Option.map_injective hf h.res_eq, h.pos_eq⟩
  · intro h
    have hsuccess := h.success_iff
    exact ⟨h.pos_le, h.reads_lt, hsuccess.trans (by rw [Option.isSome_map]),
      congrArg (Option.map f) h.res_eq, h.pos_eq⟩

theorem bytes_injective : Function.Injective Value.bytes := fun _ _ h => Value.bytes.inj h

theorem map_ite_some {α β : Type} (f : α → β) (p : Prop) [Decidable p] (value : α) :
    (if p then some value else none).map f = if p then some (f value) else none := by
  split_ifs <;> rfl

-- Each decoder is disciplined but where memory is not granted for bytes that are there, and
-- where a string is searched for in fewer bytes than it has.
theorem disciplined_run_iff (hpos : chunk.currentPos ≤ chunk.dataLen) (call : Call) :
    chunk.Disciplined (call.decoded chunk.unread) (call.run granted chunk) ↔
      call.Fits chunk.unread ∧
        (call.allocates = true → (call.decoded chunk.unread).isSome → granted = true) := by
  cases call with
  | char =>
      have h := disciplined_decoderExtractChar hpos
      exact iff_of_true ((disciplined_map_iff fun _ _ h => Value.char.inj h).mpr h)
        ⟨trivial, fun h => absurd h Bool.false_ne_true⟩
  | int type =>
      have h := (disciplined_map_iff fun _ _ h => Value.int.inj h).mpr
        (disciplined_decoderExtractInt hpos type)
      rw [map_ite_some] at h
      exact iff_of_true h ⟨trivial, fun h => absurd h Bool.false_ne_true⟩
  | rawDataWithLen decodeLen =>
      have h := (disciplined_map_iff bytes_injective).trans
        (disciplined_decoderExtractRawDataWithLen granted hpos decodeLen)
      rw [map_ite_some] at h
      exact h.trans (by simp [Call.Fits, Call.allocates, Call.decoded])
  | string decodeLen =>
      have h := (disciplined_map_iff bytes_injective).trans
        (disciplined_decoderExtractRawDataWithLen granted hpos decodeLen)
      rw [map_ite_some, ← decoderExtractString_eq] at h
      exact h.trans (by simp [Call.Fits, Call.allocates, Call.decoded])
  | strUntilChar searchChar =>
      have h := (disciplined_map_iff bytes_injective).trans
        (disciplined_decoderExtractStrUntilChar granted hpos searchChar)
      rw [map_ite_some] at h
      exact h.trans (by simp [Call.Fits, Call.allocates, Call.decoded])
  | strUntilStr searchStr =>
      refine (disciplined_map_iff bytes_injective).trans ?_
      by_cases hfits : searchStr.bytes.length ≤ chunk.unread.length
      · refine (disciplined_of_needle_fits hpos hfits).trans ?_
        simp [Call.Fits, Call.allocates, Call.decoded, hfits, before_isSome_iff]
      · exact iff_of_false (not_disciplined_of_needle_long hpos (Nat.lt_of_not_le hfits))
          fun h => hfits h.1
  | prefixIgnore prefixLen =>
      have hinj : Function.Injective fun _ : Unit => Value.none := fun _ _ _ => rfl
      have h := (disciplined_map_iff hinj).mpr
        (disciplined_decoderExtractPrefixIgnore hpos prefixLen)
      rw [map_ite_some] at h
      exact iff_of_true h ⟨trivial, fun h => absurd h Bool.false_ne_true⟩

-- Two of the three bytes that are left.
theorem disciplined_run_iff_string :
    let chunk : RawChunk := ⟨fun i => UInt8.ofNat (65 + i), 4, 1⟩
    chunk.currentPos ≤ chunk.dataLen ∧
      (chunk.Disciplined ((Call.string 2).decoded chunk.unread) ((Call.string 2).run true chunk) ↔
        (Call.string 2).Fits chunk.unread ∧
          ((Call.string 2).allocates = true →
            ((Call.string 2).decoded chunk.unread).isSome → true = true)) :=
  ⟨by decide, disciplined_run_iff (by decide) _⟩

-- One byte is left, and two are searched for. The memory goes on with the second of them.
theorem not_disciplined_run :
    ¬∀ (chunk : RawChunk) (call : Call), chunk.currentPos ≤ chunk.dataLen →
      chunk.Disciplined (call.decoded chunk.unread) (call.run true chunk) := by
  intro hall
  let chunk : RawChunk := ⟨fun i => UInt8.ofNat (97 + i), 1, 0⟩
  have hpos : chunk.currentPos ≤ chunk.dataLen := by decide
  have h : chunk.Disciplined (before [97, 98] chunk.unread)
      (chunk.decoderExtractStrUntilStr true [97, 98]) :=
    (disciplined_map_iff bytes_injective).mp (hall chunk (.strUntilStr ⟨[97, 98], by decide⟩) hpos)
  exact not_disciplined_of_needle_long hpos (by decide) h

end Calls

section Refinement

variable {raw : RawData}

-- A chunk of the decoders over lists, with zeros behind it.
def ofRawData (raw : RawData) : RawChunk :=
  ⟨fun i => raw.data.getD i 0, UInt64.ofNat raw.data.length, UInt64.ofNat raw.currentPos⟩

-- The memory decoder returns and leaves what the decoder over lists does.
structure Refines (after : Decoded α) (result : Except ParseState α × RawData) : Prop where
  state_eq : after.state = match result.1 with
    | .ok _ => .success
    | .error state => state
  res_eq : after.res = result.1.toOption
  pos_eq : after.currentPos.toNat = result.2.currentPos

theorem toNat_ofRawData (hlen : raw.data.length < 2 ^ 64) :
    (ofRawData raw).dataLen.toNat = raw.data.length ∧
      (ofRawData raw).currentPos.toNat = raw.currentPos ∧
      (ofRawData raw).currentPos ≤ (ofRawData raw).dataLen := by
  have hle := raw.currentPos_le
  have hdataLen : (ofRawData raw).dataLen.toNat = raw.data.length := by
    rw [ofRawData, UInt64.toNat_ofNat', Nat.mod_eq_of_lt hlen]
  have hcurrentPos : (ofRawData raw).currentPos.toNat = raw.currentPos := by
    rw [ofRawData, UInt64.toNat_ofNat', Nat.mod_eq_of_lt (by omega)]
  refine ⟨hdataLen, hcurrentPos, ?_⟩
  rw [UInt64.le_iff_toNat_le, hdataLen, hcurrentPos]
  exact hle

theorem unread_ofRawData (hlen : raw.data.length < 2 ^ 64) :
    (ofRawData raw).unread = raw.unread := by
  obtain ⟨hdataLen, hcurrentPos, -⟩ := toNat_ofRawData hlen
  rw [unread, hdataLen, hcurrentPos, RawData.unread]
  apply List.ext_getElem
  · rw [Memory.length_bytes, List.length_drop]
  · intro i hi hi'
    rw [List.length_drop] at hi'
    simp only [List.getElem_drop, Memory.bytes, List.getElem_map, List.getElem_range]
    exact List.getD_eq_getElem _ _ (by omega)

theorem toNat_offset_ofRawData (hlen : raw.data.length < 2 ^ 64) (offset : UInt64) :
    ((ofRawData raw).parserRawDataOffset offset).toNat =
      (L7.parserRawDataOffset raw offset.toNat).currentPos := by
  obtain ⟨-, hcurrentPos, hpos⟩ := toNat_ofRawData hlen
  have hunread := raw.length_unread
  rw [toNat_parserRawDataOffset hpos, hcurrentPos, unread_ofRawData hlen, L7.parserRawDataOffset]
  dsimp only
  split <;> omega

theorem extract_refines (hlen : raw.data.length < 2 ^ 64) (len : UInt64) (value : List UInt8 → α) :
    Refines ((ofRawData raw).extract true len value) (Decoder.extract len.toNat value raw) := by
  obtain ⟨-, hcurrentPos, hpos⟩ := toNat_ofRawData hlen
  have hunread := raw.length_unread
  have htest := unconsumed_lt_iff hpos len
  rw [unread_ofRawData hlen, hunread] at htest
  rw [extract, Decoder.extract]
  by_cases hless : raw.data.length - raw.currentPos < len.toNat
  · rw [if_pos (htest.mpr hless), if_pos hless]
    exact ⟨rfl, rfl, hcurrentPos⟩
  · rw [if_neg (mt htest.mp hless), if_neg hless]
    refine ⟨rfl, ?_, toNat_offset_ofRawData hlen len⟩
    have hcopied : (ofRawData raw).copied len = (ofRawData raw).unread.take len.toNat :=
      copied_eq (by rw [unread_ofRawData hlen]; omega)
    rw [unread_ofRawData hlen] at hcopied
    exact congrArg (fun bytes => some (value bytes)) hcopied

theorem decoderExtractRawDataWithLen_refines (hlen : raw.data.length < 2 ^ 64)
    (decodeLen : UInt64) :
    Refines ((ofRawData raw).decoderExtractRawDataWithLen true decodeLen)
      (L7.decoderExtractRawDataWithLen decodeLen.toNat raw) :=
  extract_refines hlen decodeLen id

theorem decoderExtractChar_refines (hlen : raw.data.length < 2 ^ 64) :
    Refines (ofRawData raw).decoderExtractChar (L7.decoderExtractChar raw) := by
  have hvalue : (fun bytes : List UInt8 => bytes.headD 0) = fun bytes => bytes.getD 0 0 := by
    funext bytes
    cases bytes <;> rfl
  have h := extract_refines hlen 1 fun bytes : List UInt8 => bytes.headD 0
  rw [hvalue] at h
  rw [decoderExtractChar, hvalue]
  exact h

-- The types the protocols read.
theorem decoderExtractInt_refines (hlen : raw.data.length < 2 ^ 64) {type : IntType}
    (hsigned : type.signed = true) :
    Refines ((ofRawData raw).decoderExtractInt type)
      (L7.decoderExtractInt type.size.toNat raw) := by
  have hvalue : (fun bytes => type.read (bigEndianBytesToInt type bytes)) =
      L7.bigEndianBytesToInt type.size.toNat := by
    funext bytes
    have hfold : bigEndianBytesToInt type bytes =
        BitVec.ofNat _ (bytes.foldl (fun n byte => n * 256 + byte.toNat) 0) :=
      foldl_or_shiftLeft bytes 0
    rw [hfold, IntType.read, hsigned, if_pos rfl, BitVec.toInt_ofNat', L7.bigEndianBytesToInt,
      Nat.pow_mul]
  have h := extract_refines hlen type.size fun bytes =>
    type.read (bigEndianBytesToInt type bytes)
  rw [hvalue] at h
  rw [decoderExtractInt, hvalue]
  exact h

theorem decoderExtractStrUntilChar_refines (hlen : raw.data.length < 2 ^ 64)
    (searchChar : UInt8) :
    Refines ((ofRawData raw).decoderExtractStrUntilChar true searchChar)
      (L7.decoderExtractStrUntilChar searchChar raw) := by
  obtain ⟨-, hcurrentPos, hpos⟩ := toNat_ofRawData hlen
  obtain ⟨reads, -, heq⟩ := decoderExtractStrUntilChar_eq true hpos searchChar
  rw [heq, unread_ofRawData hlen, L7.decoderExtractStrUntilChar]
  cases hindex : raw.unread.findIdx? (· == searchChar) with
  | none => exact ⟨rfl, rfl, hcurrentPos⟩
  | some k =>
      obtain ⟨hk, -⟩ := List.findIdx?_eq_some_iff_getElem.mp hindex
      have hunread := raw.length_unread
      have hdecode : (UInt64.ofNat k).toNat = k := by
        rw [UInt64.toNat_ofNat']
        omega
      have hoffset : (UInt64.ofNat k + 1).toNat = k + 1 := by
        rw [UInt64.toNat_add, hdecode, UInt64.toNat_one]
        omega
      refine ⟨rfl, ?_, ?_⟩
      · have hcopied : (ofRawData raw).copied (UInt64.ofNat k) =
            (ofRawData raw).unread.take (UInt64.ofNat k).toNat :=
          copied_eq (by rw [unread_ofRawData hlen]; omega)
        rw [unread_ofRawData hlen, hdecode] at hcopied
        exact congrArg some hcopied
      · have hmoved := toNat_offset_ofRawData hlen (UInt64.ofNat k + 1)
        rw [hoffset] at hmoved
        exact hmoved

end Refinement

end RawChunk

end Gopher.L7
