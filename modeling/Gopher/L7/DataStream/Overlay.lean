import Gopher.L7.DataStream
import Gopher.Lib.Memory

namespace Gopher.L7

open Gopher.Lib

-- The chunk array with its pointers, NULL being `none`. Below the size there are chunks.
structure RawBuf where
  rawDatas : ℕ → Option RawData
  rawBufSize : ℕ
  size_le : rawBufSize ≤ RAW_BUF_SIZE
  isSome_of_lt : ∀ i < rawBufSize, (rawDatas i).isSome

namespace RawBuf

def contents (buf : RawBuf) : List RawData := (List.range buf.rawBufSize).filterMap buf.rawDatas

-- The memory is cleared.
def init : RawBuf where
  rawDatas := fun _ => none
  rawBufSize := 0
  size_le := Nat.zero_le _
  isSome_of_lt := fun _ hi => absurd hi (Nat.not_lt_zero _)

-- What is returned and the array.
def pushRawData (buf : RawBuf) (rawData : RawData) : ℤ × RawBuf :=
  if hfull : buf.rawBufSize ≥ RAW_BUF_SIZE then (-1, buf)
  else
    (0,
      { rawDatas := Function.update buf.rawDatas buf.rawBufSize (some rawData)
        rawBufSize := buf.rawBufSize + 1
        size_le := Nat.lt_of_not_ge hfull
        isSome_of_lt := fun i hi => by
          by_cases hlast : i = buf.rawBufSize
          · simp [hlast]
          · rw [Function.update_of_ne hlast]
            exact buf.isSome_of_lt i (by omega) })

section Pop

variable {rawDatas : ℕ → Option RawData} {count : ℕ}

-- The loop of `pop_raw_data`, over the slots from 1 on.
def moveDown (rawDatas : ℕ → Option RawData) (count : ℕ) : ℕ → Option RawData :=
  (List.range' 1 count).foldl
    (fun rawDatas i => Function.update rawDatas (i - 1) (rawDatas i)) rawDatas

-- A slot is read before it is written.
theorem moveDown_eq (rawDatas : ℕ → Option RawData) (count : ℕ) :
    moveDown rawDatas count = fun i => if i < count then rawDatas (i + 1) else rawDatas i := by
  unfold moveDown
  induction count with
  | zero => simp
  | succ count ih =>
      rw [List.range'_1_concat, List.foldl_append, ih]
      simp only [List.foldl_cons, List.foldl_nil, show ¬1 + count < count by omega, ite_false,
        show 1 + count - 1 = count by omega]
      funext i
      by_cases hi : i = count
      · simp [hi, Nat.add_comm]
      · rw [Function.update_of_ne hi]
        simp only [show i < count + 1 ↔ i < count by omega]

theorem moveDown_of_lt {i : ℕ} (h : i < count) : moveDown rawDatas count i = rawDatas (i + 1) := by
  rw [moveDown_eq]
  exact if_pos h

end Pop

-- The chunk that is taken off and the array without it.
def popRawData (buf : RawBuf) : Option RawData × RawBuf :=
  if buf.rawBufSize = 0 then (none, buf)
  else
    match buf.rawDatas 0 with
    | none => (none, buf)
    | some rawData =>
        (some rawData,
          { rawDatas := moveDown buf.rawDatas (min buf.rawBufSize RAW_BUF_SIZE - 1)
            rawBufSize := buf.rawBufSize - 1
            size_le := Nat.le_trans (Nat.sub_le _ _) buf.size_le
            isSome_of_lt := fun i hi => by
              have hsize := buf.size_le
              rw [moveDown_of_lt (by omega)]
              exact buf.isSome_of_lt (i + 1) (by omega) })

-- The chunk that was on top and the array with the new one there.
def replaceTopRawData (buf : RawBuf) (newData : RawData) : Option RawData × RawBuf :=
  if buf.rawBufSize = 0 then (none, buf)
  else
    match buf.rawDatas 0 with
    | none => (none, buf)
    | some rawData =>
        (some rawData,
          { buf with
            rawDatas := Function.update buf.rawDatas 0 (some newData)
            isSome_of_lt := fun i hi => by
              by_cases hzero : i = 0
              · simp [hzero]
              · rw [Function.update_of_ne hzero]
                exact buf.isSome_of_lt i hi })

-- The new chunk is as long as both, so that the position of the first stays inside it.
theorem currentPos_le_bytes (memory : Memory) (dstData srcData : RawData) :
    dstData.currentPos ≤
      (memory.bytes 0 (dstData.data.length + srcData.data.length)).length := by
  rw [Memory.length_bytes]
  exact Nat.le_add_right_of_le dstData.currentPos_le

-- `block` is the memory as `malloc` gives it, or NULL. Both copies go into it, the second
-- one behind the first.
def doOverlayRawData (block : Option Memory) (dstData srcData : RawData) : Option RawData :=
  block.map fun memory =>
    let dataLen := dstData.data.length + srcData.data.length
    let memory := memory.write 0 dstData.data
    let memory := memory.write (0 + dstData.data.length) srcData.data
    { flags := false
      timestampNs := dstData.timestampNs
      data := memory.bytes 0 dataLen
      currentPos := dstData.currentPos
      currentPos_le := currentPos_le_bytes memory dstData srcData }

-- What `overlay_raw_data` returns, the array it leaves and the chunks it has freed.
structure OverlayRslt where
  ret : ℤ
  rawBufs : RawBuf
  destroyed : List RawData

def overlayRawData (block : Option Memory) (buf : RawBuf) : OverlayRslt :=
  if buf.rawBufSize < 2 then ⟨-1, buf, []⟩
  else
    match buf.rawDatas 0, buf.rawDatas 1 with
    | some dstData, some srcData =>
        match doOverlayRawData block dstData srcData with
        | none => ⟨-1, buf, []⟩
        | some overlayData =>
            let (poped, popedBuf) := buf.popRawData
            match popedBuf.replaceTopRawData overlayData with
            | (some replaced, rawBufs) => ⟨0, rawBufs, poped.toList ++ [replaced]⟩
            | (none, rawBufs) => ⟨0, rawBufs, poped.toList ++ [overlayData]⟩
    | _, _ => ⟨-1, buf, []⟩

section Contents

variable {buf : RawBuf} {first second : RawData} {rest : List RawData}

theorem length_contents (buf : RawBuf) : buf.contents.length = buf.rawBufSize := by
  have hsome : ∀ i ∈ List.range buf.rawBufSize, (buf.rawDatas i).isSome :=
    fun i hi => buf.isSome_of_lt i (List.mem_range.mp hi)
  rw [contents, List.length_filterMap_eq_countP, List.countP_eq_length.mpr hsome,
    List.length_range]

-- The chunk on top, in front of the slots from 1 on.
theorem contents_eq_cons (hpos : 0 < buf.rawBufSize) (hfirst : buf.rawDatas 0 = some first) :
    buf.contents =
      first :: (List.range (buf.rawBufSize - 1)).filterMap fun i => buf.rawDatas (i + 1) := by
  obtain ⟨size, hsize⟩ := Nat.exists_eq_add_of_lt hpos
  rw [Nat.zero_add] at hsize
  rw [contents, hsize, List.range_succ_eq_map, List.filterMap_cons, hfirst, List.filterMap_map]
  rfl

theorem rawDatas_zero (hcontents : buf.contents = first :: rest) :
    0 < buf.rawBufSize ∧ buf.rawDatas 0 = some first ∧
      ((List.range (buf.rawBufSize - 1)).filterMap fun i => buf.rawDatas (i + 1)) = rest := by
  have hpos : 0 < buf.rawBufSize := by
    rw [← length_contents, hcontents]
    exact Nat.succ_pos _
  obtain ⟨top, htop⟩ := Option.isSome_iff_exists.mp (buf.isSome_of_lt 0 hpos)
  rw [contents_eq_cons hpos htop] at hcontents
  obtain ⟨rfl, hrest⟩ := List.cons_eq_cons.mp hcontents
  exact ⟨hpos, htop, hrest⟩

-- The two chunks that are overlaid.
theorem rawDatas_of_contents (hcontents : buf.contents = first :: second :: rest) :
    buf.rawDatas 0 = some first ∧ buf.rawDatas 1 = some second := by
  obtain ⟨hpos, htop, hrest⟩ := rawDatas_zero hcontents
  have hsize : buf.rawBufSize = rest.length + 2 := by
    rw [← length_contents, hcontents]
    rfl
  obtain ⟨next, hnext⟩ := Option.isSome_iff_exists.mp (buf.isSome_of_lt 1 (by omega))
  rw [show buf.rawBufSize - 1 = rest.length + 1 by omega, List.range_succ_eq_map,
    List.filterMap_cons, hnext] at hrest
  obtain ⟨rfl, -⟩ := List.cons_eq_cons.mp hrest
  exact ⟨htop, hnext⟩

theorem popRawData_eq (hcontents : buf.contents = first :: rest) :
    buf.popRawData.1 = some first ∧ buf.popRawData.2.contents = rest ∧
      buf.popRawData.2.rawBufSize + 1 = buf.rawBufSize := by
  obtain ⟨hpos, htop, hrest⟩ := rawDatas_zero hcontents
  unfold popRawData
  rw [if_neg (by omega), htop]
  refine ⟨rfl, ?_, by dsimp only; omega⟩
  rw [← hrest]
  have hsize := buf.size_le
  apply List.filterMap_congr
  intro i hi
  have hlt := List.mem_range.mp hi
  dsimp only at hlt ⊢
  exact moveDown_of_lt (by omega)

theorem replaceTopRawData_eq (newData : RawData) (hcontents : buf.contents = first :: rest) :
    (buf.replaceTopRawData newData).1 = some first ∧
      (buf.replaceTopRawData newData).2.contents = newData :: rest ∧
      (buf.replaceTopRawData newData).2.rawBufSize = buf.rawBufSize := by
  obtain ⟨hpos, htop, hrest⟩ := rawDatas_zero hcontents
  unfold replaceTopRawData
  rw [if_neg (by omega), htop]
  refine ⟨rfl, ?_, rfl⟩
  rw [← hrest]
  dsimp only
  refine (contents_eq_cons ?_ ?_).trans rfl
  · exact hpos
  · exact Function.update_self (0 : ℕ) (some newData) buf.rawDatas

-- The two copies lie one behind the other in the block.
theorem doOverlayRawData_eq (memory : Memory) (dstData srcData : RawData) :
    doOverlayRawData (some memory) dstData srcData =
      some (DataStream.doOverlayRawData dstData srcData) := by
  have hholds : ((memory.write 0 dstData.data).write (0 + dstData.data.length)
      srcData.data).Holds 0 (dstData.data ++ srcData.data) := by
    rw [Memory.write_append]
    exact Memory.write_holds _ _ _
  have hbytes := Memory.bytes_of_holds hholds
  rw [List.length_append] at hbytes
  simp only [doOverlayRawData, DataStream.doOverlayRawData, Option.map_some, hbytes]

-- The array does what the list of chunks does.
theorem overlayRawData_eq (memory : Memory) (hcontents : buf.contents = first :: second :: rest) :
    (buf.overlayRawData (some memory)).ret = 0 ∧
      (buf.overlayRawData (some memory)).rawBufs.contents =
        DataStream.doOverlayRawData first second :: rest ∧
      (buf.overlayRawData (some memory)).rawBufs.rawBufSize + 1 = buf.rawBufSize ∧
      (buf.overlayRawData (some memory)).destroyed = [first, second] := by
  have hsize : buf.rawBufSize = rest.length + 2 := by
    rw [← length_contents, hcontents]
    rfl
  obtain ⟨hdst, hsrc⟩ := rawDatas_of_contents hcontents
  obtain ⟨hpoped, hpopedContents, hpopedSize⟩ := popRawData_eq hcontents
  obtain ⟨hreplaced, hnewContents, hnewSize⟩ :=
    replaceTopRawData_eq (DataStream.doOverlayRawData first second) hpopedContents
  have hrslt : buf.overlayRawData (some memory) =
      ⟨0, (buf.popRawData.2.replaceTopRawData (DataStream.doOverlayRawData first second)).2,
        [first, second]⟩ := by
    unfold overlayRawData
    rw [if_neg (by omega), hdst, hsrc]
    dsimp only
    rw [doOverlayRawData_eq]
    dsimp only
    split
    next replaced rawBufs hpair =>
      rw [hpair] at hreplaced ⊢
      rw [hpoped, Option.some.inj hreplaced]
      rfl
    next rawBufs hpair =>
      rw [hpair] at hreplaced
      cases hreplaced
  rw [hrslt]
  exact ⟨rfl, hnewContents, by dsimp only; omega, rfl⟩

-- A chunk keeps what has been read of it in front of its position: what the new one still
-- gives is what the first one did, and the second one from its start.
theorem doOverlayRawData_unread (dstData srcData : RawData) :
    (DataStream.doOverlayRawData dstData srcData).unread = dstData.unread ++ srcData.data :=
  List.drop_append_of_le_length dstData.currentPos_le

theorem exists_contents (h : 2 ≤ buf.rawBufSize) :
    ∃ first second rest, buf.contents = first :: second :: rest := by
  have hlength := length_contents buf
  cases hcontents : buf.contents with
  | nil =>
      rw [hcontents, List.length_nil] at hlength
      omega
  | cons first tail =>
      cases tail with
      | nil =>
          rw [hcontents, List.length_singleton] at hlength
          omega
      | cons second rest => exact ⟨first, second, rest, rfl⟩

-- Without memory the chunks stay as they are.
theorem overlayRawData_none (buf : RawBuf) : buf.overlayRawData none = ⟨-1, buf, []⟩ := by
  unfold overlayRawData doOverlayRawData
  split
  · rfl
  · split <;> rfl

-- `memory` is what `malloc` has given.
theorem overlayRawData_merges (buf : RawBuf) (h : 2 ≤ buf.rawBufSize) :
    ∃ first second rest,
      buf.contents = first :: second :: rest ∧
      buf.overlayRawData none = ⟨-1, buf, []⟩ ∧
      ∀ memory, ∃ merged : RawData,
        (buf.overlayRawData (some memory)).ret = 0 ∧
        (buf.overlayRawData (some memory)).rawBufs.contents = merged :: rest ∧
        (buf.overlayRawData (some memory)).rawBufs.rawBufSize + 1 = buf.rawBufSize ∧
        (buf.overlayRawData (some memory)).destroyed = [first, second] ∧
        merged.unread = first.unread ++ second.data ∧
        merged.data = first.data ++ second.data ∧
        merged.currentPos = first.currentPos ∧
        merged.timestampNs = first.timestampNs := by
  obtain ⟨first, second, rest, hcontents⟩ := exists_contents h
  refine ⟨first, second, rest, hcontents, overlayRawData_none buf, fun memory => ?_⟩
  obtain ⟨hret, hmerged, hsize, hdestroyed⟩ := overlayRawData_eq memory hcontents
  exact ⟨DataStream.doOverlayRawData first second, hret, hmerged, hsize, hdestroyed,
    doOverlayRawData_unread first second, rfl, rfl, rfl⟩

-- The first chunk has been read up to its second byte, and a third one waits.
theorem overlayRawData_merges_three :
    let first : RawData :=
      { flags := true, timestampNs := 5, data := [81, 0, 0], currentPos := 1,
        currentPos_le := by decide }
    let buf := (((init.pushRawData first).2.pushRawData (.create [0, 5] 7)).2.pushRawData
      (.create [88] 9)).2
    2 ≤ buf.rawBufSize ∧
      ∃ first second rest,
        buf.contents = first :: second :: rest ∧
        buf.overlayRawData none = ⟨-1, buf, []⟩ ∧
        ∀ memory, ∃ merged : RawData,
          (buf.overlayRawData (some memory)).ret = 0 ∧
          (buf.overlayRawData (some memory)).rawBufs.contents = merged :: rest ∧
          (buf.overlayRawData (some memory)).rawBufs.rawBufSize + 1 = buf.rawBufSize ∧
          (buf.overlayRawData (some memory)).destroyed = [first, second] ∧
          merged.unread = first.unread ++ second.data ∧
          merged.data = first.data ++ second.data ∧
          merged.currentPos = first.currentPos ∧
          merged.timestampNs = first.timestampNs :=
  ⟨by decide, overlayRawData_merges _ (by decide)⟩

end Contents

theorem pushRawData_contents (buf : RawBuf) (rawData : RawData) :
    (buf.pushRawData rawData).2.contents =
      if buf.rawBufSize < RAW_BUF_SIZE then buf.contents ++ [rawData] else buf.contents := by
  unfold pushRawData
  by_cases hfull : buf.rawBufSize ≥ RAW_BUF_SIZE
  · rw [dif_pos hfull, if_neg (Nat.not_lt_of_ge hfull)]
  · rw [dif_neg hfull, if_pos (Nat.lt_of_not_ge hfull)]
    dsimp only [contents]
    rw [List.range_succ, List.filterMap_append]
    congr 1
    · apply List.filterMap_congr
      intro i hi
      exact Function.update_of_ne (Nat.ne_of_lt (List.mem_range.mp hi)) _ _
    · simp

-- The chunks of a stream, in the order of the array.
theorem overlayRawData_refines {φ : Type*} (memory : Memory) (buf : RawBuf)
    (stream : DataStream φ) (hstream : stream.rawBufs = buf.contents) :
    stream.overlayRawData =
      if buf.rawBufSize < 2 then none
      else some { stream with rawBufs := (buf.overlayRawData (some memory)).rawBufs.contents } := by
  have hlength := length_contents buf
  unfold DataStream.overlayRawData
  by_cases hsize : buf.rawBufSize < 2
  · rw [if_pos hsize]
    split
    next dst src rest hbufs =>
      rw [← hstream, hbufs, List.length_cons, List.length_cons] at hlength
      omega
    next => rfl
  · rw [if_neg hsize]
    obtain ⟨first, second, rest, hcontents⟩ := exists_contents (Nat.le_of_not_lt hsize)
    obtain ⟨-, hmerged, -⟩ := overlayRawData_eq memory hcontents
    rw [hstream, hcontents, hmerged]

end RawBuf

end Gopher.L7
