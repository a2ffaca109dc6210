import Gopher.L7.FrameBuf
import Gopher.Lib.Loop

namespace Gopher.L7

open Gopher.Lib

variable {φ : Type*}

def RAW_BUF_SIZE : ℕ := 50

inductive ProtoType
  | unknown
  | http
  | http2
  | mysql
  | pgsql
  | dns
  | redis
  | nats
  | cql
  | mongo
  | kafka
  deriving DecidableEq, Repr

inductive ParseState
  | success
  | invalid
  | needsMoreData
  | ignore
  | eos
  | notFound
  | unknown
  deriving DecidableEq

-- `flags` is the bit `RAW_DATA_FLAGS_INVALID`, the only one in use.
structure RawData where
  flags : Bool
  timestampNs : UInt64
  data : List UInt8
  currentPos : ℕ
  currentPos_le : currentPos ≤ data.length

namespace RawData

-- Positions that are stored lie inside the chunk.
def setPos (raw : RawData) (pos : ℕ) : RawData :=
  { raw with currentPos := min pos raw.data.length, currentPos_le := Nat.min_le_right _ _ }

def create (data : List UInt8) (timestampNs : UInt64) : RawData :=
  { flags := false, timestampNs := timestampNs, data := data, currentPos := 0,
    currentPos_le := Nat.zero_le _ }

def unread (raw : RawData) : List UInt8 := raw.data.drop raw.currentPos

end RawData

-- What `proto_find_frame_boundary` and `proto_parse_frame` select for one type of
-- protocol. The parser gets the number of its call, as it may read memory nobody
-- has set, and returns its state, the frame and the new position.
structure Protocol (φ : Type*) where
  findFrameBoundary : RawData → Option ℕ
  parseFrame : ℕ → RawData → ParseState × Option φ × ℕ

-- `rawBufs` are the pending chunks, `calls` counts the calls of the parser.
structure DataStream (φ : Type*) where
  rawBufs : List RawData
  frameBufs : FrameBuf φ
  type : ProtoType
  calls : ℕ

namespace DataStream

-- The memory is cleared, so the type is the first one of the enumeration.
def init : DataStream φ := { rawBufs := [], frameBufs := .empty, type := .unknown, calls := 0 }

def pushRawData (stream : DataStream φ) (raw : RawData) : Option (DataStream φ) :=
  if RAW_BUF_SIZE ≤ stream.rawBufs.length then none
  else some { stream with rawBufs := stream.rawBufs ++ [raw] }

def popRawData (stream : DataStream φ) : DataStream φ :=
  { stream with rawBufs := stream.rawBufs.tail }

-- The chunk on top is changed in place.
def setTop (stream : DataStream φ) (raw : RawData) : DataStream φ :=
  { stream with rawBufs := raw :: stream.rawBufs.tail }

-- All of both chunks, read up to where the first one was.
def doOverlayRawData (dst src : RawData) : RawData where
  flags := false
  timestampNs := dst.timestampNs
  data := dst.data ++ src.data
  currentPos := dst.currentPos
  currentPos_le := by
    have := dst.currentPos_le
    simp only [List.length_append]
    omega

def overlayRawData (stream : DataStream φ) : Option (DataStream φ) :=
  match stream.rawBufs with
  | dst :: src :: rest => some { stream with rawBufs := doOverlayRawData dst src :: rest }
  | _ => none

inductive ParseRslt
  | next
  | rebound
  | again
  | overlay
  | stop
  | error

def doParseFrames (protocol : Protocol φ) (stream : DataStream φ) (raw : RawData) :
    ParseRslt × DataStream φ :=
  let (state, frame, pos) := protocol.parseFrame stream.calls raw
  let raw := raw.setPos pos
  let stream := { stream.setTop raw with calls := stream.calls + 1 }
  match state with
  | .success =>
      match frame with
      | none => (.error, stream)
      | some frame =>
          match stream.frameBufs.pushFrameData frame with
          | none => (.stop, stream)
          | some frameBufs =>
              (if raw.currentPos = raw.data.length then .next else .again,
                { stream with frameBufs := frameBufs })
  | .ignore => (.next, stream)
  | .invalid =>
      if raw.flags then (.next, stream)
      else (.rebound, stream.setTop { raw with flags := true })
  | .needsMoreData =>
      match stream.overlayRawData with
      | none => (.stop, stream)
      | some stream => (.overlay, stream)
  | _ => (.error, stream)

-- The labels of the parse loop. `rebound` is `next` with a chunk on top.
inductive Label
  | next
  | again
  deriving DecidableEq

def parseRound (protocol : Protocol φ) (state : DataStream φ × Label) :
    (DataStream φ × Label) ⊕ DataStream φ :=
  let (stream, label) := state
  match stream.rawBufs, label with
  | [], _ => .inr stream
  | raw :: _, .next =>
      match protocol.findFrameBoundary raw with
      | none => .inl (stream.popRawData, .next)
      | some newPos => .inl (stream.setTop (raw.setPos newPos), .again)
  | raw :: _, .again =>
      match doParseFrames protocol stream raw with
      | (.next, stream) => .inl (stream.popRawData, .next)
      | (.overlay, stream) => .inl (stream, .next)
      | (.rebound, stream) => .inl (stream, .next)
      | (.again, stream) => .inl (stream, .again)
      -- the old position is put back
      | (.stop, stream) => .inr (stream.setTop raw)
      | (.error, stream) => .inr stream

def dataStreamParseFrames (protocol : Protocol φ) (fuel : ℕ) (stream : DataStream φ) :
    Option (DataStream φ) :=
  loop (fun state => some (parseRound protocol state)) fuel (stream, .next)

-- `none` is the return value -1. The allocation of the chunk is granted.
def dataStreamAddRawData (stream : DataStream φ) (data : List UInt8) (timestampNs : UInt64) :
    Option (DataStream φ) :=
  stream.pushRawData (.create data timestampNs)

-- A chunk and whether the stream is parsed once it is added.
structure Chunk where
  data : List UInt8
  parse : Bool

-- All chunks are added, none of them refused, and the stream is parsed at the end.
inductive Delivers (protocol : Protocol φ) (timestampNs : UInt64) :
    List Chunk → DataStream φ → DataStream φ → Prop
  | done {stream last : DataStream φ} (fuel : ℕ)
      (hparse : dataStreamParseFrames protocol fuel stream = some last) :
      Delivers protocol timestampNs [] stream last
  | keep {data : List UInt8} {chunks : List Chunk} {stream added last : DataStream φ}
      (hadd : stream.dataStreamAddRawData data timestampNs = some added)
      (hrest : Delivers protocol timestampNs chunks added last) :
      Delivers protocol timestampNs (⟨data, false⟩ :: chunks) stream last
  | parse {data : List UInt8} {chunks : List Chunk} {stream added parsed last : DataStream φ}
      (hadd : stream.dataStreamAddRawData data timestampNs = some added) (fuel : ℕ)
      (hparse : dataStreamParseFrames protocol fuel added = some parsed)
      (hrest : Delivers protocol timestampNs chunks parsed last) :
      Delivers protocol timestampNs (⟨data, true⟩ :: chunks) stream last

-- The bytes a delivery carries.
def bytesOf (chunks : List Chunk) : List UInt8 := chunks.flatMap Chunk.data

end DataStream

end Gopher.L7
