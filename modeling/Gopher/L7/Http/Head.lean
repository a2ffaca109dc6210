import Gopher.L7.DataStream
import Gopher.Lib.Scan
import Mathlib.Algebra.Group.Nat.Defs

namespace Gopher.L7.Http

open Gopher.Lib

def K_MAX_NUM_HEADERS : ℕ := 50

def HT : UInt8 := 0x09
def LF : UInt8 := 0x0a
def CR : UInt8 := 0x0d
def SP : UInt8 := 0x20
def COLON : UInt8 := 0x3a
def DEL : UInt8 := 0x7f

-- The difference wraps around as an `unsigned int`.
def isPrintableAscii (byte : UInt8) : Bool := byte.toUInt32 - 0x20 < 0x5f

def tokenCharMap : List ℕ :=
  List.replicate 32 0 ++
  [0, 1, 0, 1, 1, 1, 1, 1, 0, 0, 1, 1, 0, 1, 1, 0, 1, 1, 1, 1, 1, 1, 1, 1, 1, 1, 0, 0, 0, 0, 0, 0,
    0, 1, 1, 1, 1, 1, 1, 1, 1, 1, 1, 1, 1, 1, 1, 1, 1, 1, 1, 1, 1, 1, 1, 1, 1, 1, 1, 0, 0, 0, 1, 1,
    1, 1, 1, 1, 1, 1, 1, 1, 1, 1, 1, 1, 1, 1, 1, 1, 1, 1, 1, 1, 1, 1, 1, 1, 1, 1, 1, 0, 1, 0, 1, 0]
  ++ List.replicate 128 0

def isTokenChar (byte : UInt8) : Bool := tokenCharMap.getD byte.toNat 0 ≠ 0

def isBlank (byte : UInt8) : Bool := byte == SP || byte == HT

def isDigit (byte : UInt8) : Bool := 0x30 ≤ byte && byte ≤ 0x39

def digitValue (byte : UInt8) : ℤ := byte.toNat - 0x30

-- A pointer into the buffer with the bytes that belong to it.
structure Slice where
  start : ℕ
  bytes : List UInt8
  deriving DecidableEq, Repr

section FindCharFast

abbrev CharRanges := List (UInt8 × UInt8)

def inRanges (ranges : CharRanges) (byte : UInt8) : Bool :=
  ranges.any fun range => range.1 ≤ byte && byte ≤ range.2

def tokenRanges : CharRanges :=
  [(0x00, 0x20), (0x22, 0x22), (0x28, 0x29), (0x2c, 0x2c), (0x2f, 0x2f), (0x3a, 0x40),
    (0x5b, 0x5d), (0x7b, 0xff)]

def eolRanges : CharRanges := [(0x00, 0x08), (0x0a, 0x1f), (0x7f, 0x7f)]

def pathRanges : CharRanges := [(0x00, 0x20), (0x7f, 0x7f)]

-- The blocks of 16 bytes. `_mm_cmpestri` gives the first byte of a block that lies in one
-- of the ranges, or 16. The result is how far `buf` moves and `found`.
def findBlocks (ranges : CharRanges) (rest : List UInt8) : ℕ × Bool :=
  if 16 ≤ rest.length then
    match (rest.take 16).findIdx? (inRanges ranges) with
    | some r => (r, true)
    | none =>
        let (moved, found) := findBlocks ranges (rest.drop 16)
        (16 + moved, found)
  else (0, false)
termination_by rest.length
decreasing_by
  rw [List.length_drop]
  omega

-- `sse42` is the build with `__SSE4_2__`.
def findCharFast (sse42 : Bool) (ranges : CharRanges) (rest : List UInt8) : ℕ × Bool :=
  if sse42 then findBlocks ranges rest else (0, false)

end FindCharFast

section Tokens

-- The loop of a scanner behind the bytes that were skipped beforehand. The loop begins
-- with a byte, unless the check of the end in front of it ends the scan.
def scanSlice (stop legal : UInt8 → Bool) (skipped : ℕ) (buf : BufPtr) :
    Except Stop (Slice × BufPtr) :=
  (scanUntil stop legal (buf.pos + skipped) (buf.rest.drop skipped)).map
    (Prod.map (fun bytes => ⟨buf.pos, buf.rest.take skipped ++ bytes⟩) id)

def parseToken (sse42 : Bool) (nextChar : UInt8) (buf : BufPtr) : Except Stop (Slice × BufPtr) :=
  scanSlice (fun byte => byte == nextChar) isTokenChar
    (findCharFast sse42 tokenRanges buf.rest).1 buf

-- `ADVANCE_TOKEN`
def isPathChar (byte : UInt8) : Bool :=
  isPrintableAscii byte || !(byte < SP || byte == DEL)

def advanceToken (sse42 : Bool) (buf : BufPtr) : Except Stop (Slice × BufPtr) :=
  scanSlice (fun byte => byte == SP) isPathChar (findCharFast sse42 pathRanges buf.rest).1 buf

-- The bytes that lead to `FOUND_CTL`.
def isCtl (byte : UInt8) : Bool :=
  !isPrintableAscii byte && ((byte < SP && byte != HT) || byte == DEL)

-- The loop over 8 bytes at a time of the plain build. A byte that is not printable but
-- allowed makes it look again whether 8 bytes are left.
def eolUnrolled (rest : List UInt8) : ℕ × Bool :=
  if 8 ≤ rest.length then
    match (rest.take 8).findIdx? fun byte => !isPrintableAscii byte with
    | none =>
        let (moved, found) := eolUnrolled (rest.drop 8)
        (8 + moved, found)
    | some r =>
        if (rest.drop r).head?.any isCtl then (r, true)
        else
          let (moved, found) := eolUnrolled (rest.drop (r + 1))
          (r + 1 + moved, found)
  else (0, false)
termination_by rest.length
decreasing_by
  all_goals
    rw [List.length_drop]
    omega

-- CR LF or LF, behind which the scan goes on. `false` is any other byte.
def lineEnd (buf : BufPtr) : Except Stop (Bool × BufPtr) :=
  match buf.rest with
  | [] => .error .incomplete
  | byte :: rest =>
      if byte = CR then
        match rest with
        | [] => .error .incomplete
        | next :: rest =>
            if next = LF then .ok (true, ⟨buf.pos + 2, rest⟩) else .error .malformed
      else if byte = LF then .ok (true, ⟨buf.pos + 1, rest⟩)
      else .ok (false, buf)

def foundCtl (found : Slice × BufPtr) : Except Stop (Slice × BufPtr) :=
  match lineEnd found.2 with
  | .error stop => .error stop
  | .ok (ended, buf) => if ended then .ok (found.1, buf) else .error .malformed

def getTokenToEol (sse42 : Bool) (buf : BufPtr) : Except Stop (Slice × BufPtr) :=
  let (skipped, found) :=
    if sse42 then findCharFast sse42 eolRanges buf.rest else eolUnrolled buf.rest
  if found then foundCtl (⟨buf.pos, buf.rest.take skipped⟩, buf.skip skipped)
  else
    match scanSlice isCtl (fun _ => true) skipped buf with
    | .error stop => .error stop
    | .ok found => foundCtl found

-- Over the byte at hand and all that follow of this kind.
def skipBehind (skipped : UInt8 → Bool) (buf : BufPtr) : Except Stop (Unit × BufPtr) :=
  match buf.rest with
  | [] => .error .incomplete
  | _ :: rest =>
      (scanUntil (fun byte => !skipped byte) (fun _ => true) (buf.pos + 1) rest).map
        (Prod.map (fun _ => ()) id)

def skipSpaces : BufPtr → Except Stop (Unit × BufPtr) := skipBehind fun byte => byte == SP

-- The byte at hand, behind a check of the end.
def currentByte (buf : BufPtr) : Except Stop (UInt8 × BufPtr) :=
  match buf.rest with
  | [] => .error .incomplete
  | byte :: _ => .ok (byte, buf)

-- HTTP/1.
def HTTP_1 : List UInt8 := [0x48, 0x54, 0x54, 0x50, 0x2f, 0x31, 0x2e]

def parseHttpVersion (buf : BufPtr) : Except Stop (ℤ × BufPtr) :=
  match buf.rest with
  | h :: t :: t' :: p :: slash :: one :: dot :: minor :: next :: rest =>
      if [h, t, t', p, slash, one, dot] = HTTP_1 ∧ isDigit minor = true then
        .ok (digitValue minor, ⟨buf.pos + 8, next :: rest⟩)
      else .error .malformed
  | _ => .error .incomplete

end Tokens

section Headers

-- The name of a continued value is NULL.
structure HttpHeader where
  name : Option Slice
  value : Slice
  deriving DecidableEq, Repr

def trimEnd (value : Slice) : Slice :=
  { value with bytes := (value.bytes.reverse.dropWhile isBlank).reverse }

variable {σ : Type}

def parseName (sse42 : Bool) : Scan σ Slice := do
  let name ← .bytes (parseToken sse42 COLON)
  if name.bytes.length = 0 then .fail .malformed
  else do
    .bytes (skipBehind isBlank)
    return name

-- A line that begins with a blank continues the value before, if there is one.
def parseNameUnless (continued : Bool) (sse42 : Bool) : Scan σ (Option Slice) :=
  if continued then return none
  else do
    let name ← parseName sse42
    return some name

-- The record is the slots that are filled, `room` the number of those that are left. The
-- name of a header whose value is not reached stands in the slot behind them.
def parseHeaders (sse42 : Bool) (room : ℕ) : Scan (List HttpHeader) Unit := do
  let ended ← .bytes lineEnd
  if ended then return ()
  else
    match room with
    | 0 => .fail .malformed
    | room + 1 => do
        let headers ← .get
        let byte ← .bytes currentByte
        let name ← parseNameUnless (!headers.isEmpty && isBlank byte) sse42
        let value ← .bytes (getTokenToEol sse42)
        .modify (· ++ [⟨name, trimEnd value⟩])
        parseHeaders sse42 room

end Headers

-- Before the parser has found them, the texts are those of `init_http_request`, which are
-- not in the buffer.
structure HttpRequest where
  method : Option Slice
  path : Option Slice
  minorVersion : ℤ
  headers : List HttpHeader
  deriving DecidableEq, Repr

def initHttpRequest : HttpRequest := ⟨none, none, -1, []⟩

structure HttpResponse where
  msg : Option Slice
  status : ℤ
  minorVersion : ℤ
  headers : List HttpHeader
  deriving DecidableEq, Repr

def initHttpResponse : HttpResponse := ⟨none, 0, -1, []⟩

def parseRequestLine (sse42 : Bool) : Scan HttpRequest Unit := do
  let _ ← .bytes lineEnd
  let method ← .bytes (parseToken sse42 SP)
  .modify fun req => { req with method := some method }
  .bytes skipSpaces
  let path ← .bytes (advanceToken sse42)
  .modify fun req => { req with path := some path }
  .bytes skipSpaces
  if method.bytes.length = 0 ∨ path.bytes.length = 0 then .fail .malformed
  else do
    let minorVersion ← .bytes parseHttpVersion
    .modify fun req => { req with minorVersion := minorVersion }
    let ended ← .bytes lineEnd
    if ended then do
      let req ← .get
      .focus HttpRequest.headers (fun req headers => { req with headers := headers })
        (parseHeaders sse42 (K_MAX_NUM_HEADERS - req.headers.length))
    else .fail .malformed

-- `PARSE_INT_3`, behind the check that four bytes are left.
def parseStatus : Scan HttpResponse Unit := fun resp buf =>
  match buf.rest with
  | hundreds :: tens :: ones :: next :: rest =>
      if isDigit hundreds then
        let status := 100 * digitValue hundreds
        if isDigit tens then
          let status := status + 10 * digitValue tens
          if isDigit ones then
            ({ resp with status := status + 1 * digitValue ones },
              .ok ((), ⟨buf.pos + 3, next :: rest⟩))
          else ({ resp with status := status }, .error .malformed)
        else ({ resp with status := status }, .error .malformed)
      else (resp, .error .malformed)
  | _ => (resp, .error .incomplete)

-- The spaces in front of the reason. A byte that is none stands behind it.
def stripSpaces (msg : Slice) : Slice :=
  let spaces := msg.bytes.takeWhile fun byte => byte == SP
  ⟨msg.start + spaces.length, msg.bytes.drop spaces.length⟩

def stripMsg (msg : Slice) (resp : HttpResponse) : HttpResponse :=
  if msg.bytes.length = 0 then resp else { resp with msg := some (stripSpaces msg) }

def parseResponseLine (sse42 : Bool) : Scan HttpResponse Unit := do
  let minorVersion ← .bytes parseHttpVersion
  .modify fun resp => { resp with minorVersion := minorVersion }
  let byte ← .bytes currentByte
  if byte ≠ SP then .fail .malformed
  else do
    .bytes skipSpaces
    parseStatus
    let msg ← .bytes (getTokenToEol sse42)
    .modify fun resp => { resp with msg := some msg }
    if msg.bytes.length ≠ 0 ∧ msg.bytes.head? ≠ some SP then .fail .malformed
    else do
      .modify (stripMsg msg)
      let resp ← .get
      .focus HttpResponse.headers (fun resp headers => { resp with headers := headers })
        (parseHeaders sse42 (K_MAX_NUM_HEADERS - resp.headers.length))

-- What the entry points return as a `size_t`. The consumed length goes through an `int`.
def parseResult (start : ℕ) : Except Stop (Unit × BufPtr) → UInt64
  | .error .malformed => UInt64.ofInt (-1)
  | .error .incomplete => UInt64.ofInt (-2)
  | .ok (_, buf) => UInt64.ofInt (Int.bmod (buf.pos - start : ℕ) (2 ^ 32))

def httpParseRequestHeaders (sse42 : Bool) (raw : RawData) (req : HttpRequest) :
    HttpRequest × UInt64 :=
  let (req, result) := parseRequestLine sse42 req ⟨raw.currentPos, raw.unread⟩
  (req, parseResult raw.currentPos result)

def httpParseResponseHeaders (sse42 : Bool) (raw : RawData) (resp : HttpResponse) :
    HttpResponse × UInt64 :=
  let (resp, result) := parseResponseLine sse42 resp ⟨raw.currentPos, raw.unread⟩
  (resp, parseResult raw.currentPos result)

end Gopher.L7.Http
