import Gopher.L7.BinaryDecoder
import Gopher.Lib.Memory

-- The decoders over the memory a chunk lies in: the sizes are those of the machine, and the
-- memory goes on behind the chunk.

namespace Gopher.L7

open Lib

-- `data` is the memory from the first byte of the chunk on.
structure RawChunk where
  data : Memory
  dataLen : UInt64
  currentPos : UInt64

-- What a decoder returns, the position it leaves, what it sets `*res` to and the indices of
-- the bytes of `data` that it has read.
structure Decoded (α : Type) where
  state : ParseState
  currentPos : UInt64
  res : Option α
  reads : List ℕ

namespace RawChunk

variable {α : Type}

def parserRawDataOffset (chunk : RawChunk) (offset : UInt64) : UInt64 :=
  let unconsumedLen := chunk.dataLen - chunk.currentPos
  chunk.currentPos + if offset > unconsumedLen then unconsumedLen else offset

-- The bytes that `memcpy` takes from the position on, and their indices.
def copied (chunk : RawChunk) (len : UInt64) : List UInt8 :=
  chunk.data.bytes chunk.currentPos.toNat len.toNat

def copiedAt (chunk : RawChunk) (len : UInt64) : List ℕ :=
  List.range' chunk.currentPos.toNat len.toNat

def fail (chunk : RawChunk) (state : ParseState) (reads : List ℕ) : Decoded α :=
  ⟨state, chunk.currentPos, none, reads⟩

-- `granted` tells whether `malloc` gives memory. What goes wrong then is reported by each
-- caller as `STATE_INVALID`. `searched` has been read before.
def extractPrefixBytesString (chunk : RawChunk) (granted : Bool) (decodeLen offset : UInt64)
    (searched : List ℕ) : Decoded (List UInt8) :=
  if granted then
    ⟨.success, chunk.parserRawDataOffset offset, some (chunk.copied decodeLen),
      searched ++ chunk.copiedAt decodeLen⟩
  else chunk.fail .invalid searched

-- The test that most decoders start with, and what they read then.
def extract (chunk : RawChunk) (granted : Bool) (len : UInt64) (value : List UInt8 → α) :
    Decoded α :=
  if chunk.dataLen - chunk.currentPos < len then chunk.fail .needsMoreData []
  else if granted then
    ⟨.success, chunk.parserRawDataOffset len, some (value (chunk.copied len)),
      chunk.copiedAt len⟩
  else chunk.fail .invalid []

def decoderExtractChar (chunk : RawChunk) : Decoded UInt8 :=
  chunk.extract true 1 fun bytes => bytes.headD 0

inductive IntType
  | int8
  | int16
  | int32
  | uint8
  | uint16
  | uint32
  deriving DecidableEq

namespace IntType

-- `sizeof`
def size : IntType → UInt64
  | .int8 | .uint8 => 1
  | .int16 | .uint16 => 2
  | .int32 | .uint32 => 4

def signed : IntType → Bool
  | .int8 | .int16 | .int32 => true
  | .uint8 | .uint16 | .uint32 => false

-- The number that the bits of such a type stand for.
def read (type : IntType) {width : ℕ} (bits : BitVec width) : ℤ :=
  if type.signed then bits.toInt else bits.toNat

end IntType

def bigEndianBytesToInt (type : IntType) (bytes : List UInt8) : BitVec (8 * type.size.toNat) :=
  bytes.foldl (fun res byte => BitVec.ofNat _ byte.toNat ||| res <<< 8) 0

def decoderExtractInt (chunk : RawChunk) (type : IntType) : Decoded ℤ :=
  chunk.extract true type.size fun bytes => type.read (bigEndianBytesToInt type bytes)

def decoderExtractRawDataWithLen (chunk : RawChunk) (granted : Bool) (decodeLen : UInt64) :
    Decoded (List UInt8) :=
  chunk.extract granted decodeLen id

def decoderExtractString (chunk : RawChunk) (granted : Bool) (decodeLen : UInt64) :
    Decoded (List UInt8) :=
  if chunk.dataLen - chunk.currentPos < decodeLen then chunk.fail .needsMoreData []
  else chunk.extractPrefixBytesString granted decodeLen decodeLen []

-- The loop over the indices from `i` on, `count` of which are left: where the byte is, and
-- what has been read.
def findChar (data : Memory) (searchChar : UInt8) : (count i : ℕ) → Option ℕ × List ℕ
  | 0, _ => (none, [])
  | count + 1, i =>
      if data i ≠ searchChar then
        let (searchCharPos, reads) := findChar data searchChar count (i + 1)
        (searchCharPos, i :: reads)
      else (some i, [i])

def decoderExtractStrUntilChar (chunk : RawChunk) (granted : Bool) (searchChar : UInt8) :
    Decoded (List UInt8) :=
  match findChar chunk.data searchChar (chunk.dataLen.toNat - chunk.currentPos.toNat)
      chunk.currentPos.toNat with
  | (none, reads) => chunk.fail .notFound reads
  | (some searchCharPos, reads) =>
      let decodeLen := UInt64.ofNat searchCharPos - chunk.currentPos
      chunk.extractPrefixBytesString granted decodeLen (decodeLen + 1) reads

-- The loop of `memmem_custom`, from offset `i` behind `start` on. Each call of `memcmp` has to
-- be given as many bytes as the needle has.
def findNeedle (data : Memory) (start : ℕ) (needle : List UInt8) :
    (count i : ℕ) → Option ℕ × List ℕ
  | 0, _ => (none, [])
  | count + 1, i =>
      let compared := List.range' (start + i) needle.length
      if data.bytes (start + i) needle.length = needle then (some i, compared)
      else
        let (found, reads) := findNeedle data start needle count (i + 1)
        (found, compared ++ reads)

-- With a needle of one byte more than the haystack every `i` is below the bound: where
-- nothing is found, the loop would not end.
def memmemCustom (data : Memory) (start : ℕ) (haystackLen : UInt64) (needle : List UInt8) :
    Option ℕ × List ℕ :=
  if needle.length = 0 then (some 0, [])
  else findNeedle data start needle
    ((haystackLen - UInt64.ofNat needle.length).toNat + 1) 0

def decoderExtractStrUntilStr (chunk : RawChunk) (granted : Bool) (searchStr : List UInt8) :
    Decoded (List UInt8) :=
  let unconsumedLen := chunk.dataLen - chunk.currentPos
  match memmemCustom chunk.data chunk.currentPos.toNat unconsumedLen searchStr with
  | (none, reads) => chunk.fail .notFound reads
  | (some found, reads) =>
      let strPos := UInt64.ofNat found
      chunk.extractPrefixBytesString granted strPos (strPos + UInt64.ofNat searchStr.length) reads

def decoderExtractPrefixIgnore (chunk : RawChunk) (prefixLen : UInt64) : Decoded Unit :=
  if chunk.dataLen - chunk.currentPos < prefixLen then chunk.fail .needsMoreData []
  else ⟨.success, chunk.parserRawDataOffset prefixLen, some (), []⟩

def unread (chunk : RawChunk) : List UInt8 :=
  chunk.data.bytes chunk.currentPos.toNat (chunk.dataLen.toNat - chunk.currentPos.toNat)

end RawChunk

end Gopher.L7
