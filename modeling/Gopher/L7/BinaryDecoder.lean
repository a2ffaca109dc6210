import Gopher.L7.DataStream
import Mathlib.Algebra.Group.Int.Defs
import Mathlib.Algebra.Group.Nat.Defs

namespace Gopher.L7

variable {α β : Type}

def parserRawDataOffset (raw : RawData) (offset : ℕ) : RawData :=
  let unconsumedLen := raw.data.length - raw.currentPos
  { raw with
    currentPos := raw.currentPos + if unconsumedLen < offset then unconsumedLen else offset
    currentPos_le := by
      have := raw.currentPos_le
      split_ifs <;> omega }

theorem RawData.length_unread (raw : RawData) :
    raw.unread.length = raw.data.length - raw.currentPos := List.length_drop

theorem unread_offset (raw : RawData) (offset : ℕ) :
    (parserRawDataOffset raw offset).unread = raw.unread.drop offset := by
  have hle := raw.currentPos_le
  simp only [parserRawDataOffset, RawData.unread, List.drop_drop]
  split_ifs with h
  · rw [List.drop_of_length_le (by omega), List.drop_of_length_le (by omega)]
  · rfl

-- A function that returns a `parse_state_t` and moves `current_pos`: either the
-- state it fails with or its result, and the chunk as it leaves it.
def Decoder (α : Type) := RawData → Except ParseState α × RawData

namespace Decoder

instance : Monad Decoder where
  pure value := fun raw => (.ok value, raw)
  bind decoder next := fun raw =>
    match decoder raw with
    | (.ok value, raw) => next value raw
    | (.error state, raw) => (.error state, raw)

def fail (state : ParseState) : Decoder α := fun raw => (.error state, raw)

-- A caller that reports every failure of the decoder as `state`.
def orState (decoder : Decoder α) (state : ParseState) : Decoder α := fun raw =>
  match decoder raw with
  | (.ok value, raw) => (.ok value, raw)
  | (.error _, raw) => (.error state, raw)

theorem bind_ok {decoder : Decoder α} {next : α → Decoder β} {raw after : RawData} {value : α}
    (h : decoder raw = (.ok value, after)) : (decoder >>= next) raw = next value after := by
  simp only [bind, h]

theorem bind_error {decoder : Decoder α} {next : α → Decoder β} {raw after : RawData}
    {state : ParseState} (h : decoder raw = (.error state, after)) :
    (decoder >>= next) raw = (.error state, after) := by
  simp only [bind, h]

-- The guard each decoder starts with: `len` unread bytes, or nothing is read.
def extract (len : ℕ) (value : List UInt8 → α) : Decoder α := fun raw =>
  if raw.data.length - raw.currentPos < len then (.error .needsMoreData, raw)
  else (.ok (value (raw.unread.take len)), parserRawDataOffset raw len)

end Decoder

def decoderExtractChar : Decoder UInt8 := Decoder.extract 1 fun bytes => bytes.getD 0 0

-- The bytes shifted into a signed integer of `size` bytes.
def bigEndianBytesToInt (size : ℕ) (bytes : List UInt8) : Int :=
  Int.bmod (bytes.foldl (fun res byte => res * 256 + byte.toNat) 0 : ℕ) (256 ^ size)

def decoderExtractInt (size : ℕ) : Decoder Int := Decoder.extract size (bigEndianBytesToInt size)

def decoderExtractInt16 : Decoder Int := decoderExtractInt 2

def decoderExtractInt32 : Decoder Int := decoderExtractInt 4

def decoderExtractRawDataWithLen (decodeLen : ℕ) : Decoder (List UInt8) :=
  Decoder.extract decodeLen id

-- The bytes before `searchChar`, which is skipped.
def decoderExtractStrUntilChar (searchChar : UInt8) : Decoder (List UInt8) := fun raw =>
  match raw.unread.findIdx? (· == searchChar) with
  | none => (.error .notFound, raw)
  | some decodeLen => (.ok (raw.unread.take decodeLen), parserRawDataOffset raw (decodeLen + 1))

theorem unread_length_untilChar {raw next : RawData} {searchChar : UInt8} {value : List UInt8}
    (h : decoderExtractStrUntilChar searchChar raw = (.ok value, next)) :
    next.unread.length < raw.unread.length := by
  unfold decoderExtractStrUntilChar at h
  split at h
  · cases h
  · rename_i decodeLen hfind
    have hlt : decodeLen < raw.unread.length := by
      obtain ⟨hlt, -⟩ := List.findIdx?_eq_some_iff_getElem.mp hfind
      exact hlt
    cases h
    rw [unread_offset, List.length_drop]
    omega

end Gopher.L7
