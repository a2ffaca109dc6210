import Gopher.L7.BinaryDecoder

namespace Gopher.L7.Pgsql

open Gopher.L7

def PGSQL_MSG_HEADER_SIZE : ℕ := 8
def REGULAR_MSG_MIN_LEN : Int := 4

-- The table `pgsql_tag_enum_values` has 64 entries of which 32 are given. The
-- others are zero, so the search also finds the byte 0.
def pgsqlTagEnumValues : List Char :=
  ['d', 'c', 'Q', 'P', 'B', 'E', 'F', 'C', 'D', 'S', 'H', 'X', 'f',
    'd', 'c', 'C', 'E', 'Z', 'I', '1', '2', '3', 'S', 'K', 'T', 'n', 't', 'D', 'G', 'H', 'W', 'R'] ++
    List.replicate 32 '\x00'

def containsPgsqlTag (tag : UInt8) : Bool :=
  pgsqlTagEnumValues.any fun value => value.toNat == tag.toNat

structure PgsqlRegularMsg where
  timestampNs : UInt64
  tag : UInt8
  len : Int
  payloadData : List UInt8
  deriving DecidableEq

-- `CHECK_RAW_DATA_LEN`
def noDataLeft (raw : RawData) : Bool :=
  raw.data.length == 0 || raw.currentPos == raw.data.length

def checkRawDataLen : Decoder Unit := fun raw =>
  if noDataLeft raw then (.error .needsMoreData, raw) else (.ok (), raw)

def pgsqlParseRegularMsg (timestampNs : UInt64) : Decoder PgsqlRegularMsg := do
  checkRawDataLen
  let tag ← decoderExtractChar.orState .needsMoreData
  let len ← decoderExtractInt32.orState .needsMoreData
  if len < REGULAR_MSG_MIN_LEN then Decoder.fail .invalid
  else
    let payloadLen := (len - REGULAR_MSG_MIN_LEN).toNat
    let payloadData ← (decoderExtractRawDataWithLen payloadLen).orState .needsMoreData
    return { timestampNs := timestampNs, tag := tag, len := len, payloadData := payloadData }

-- One round over a name and its value, `false` when the name is empty.
def startupPair : Decoder Bool := do
  let name ← decoderExtractStrUntilChar 0
  if name.length = 0 then return false
  else
    let value ← decoderExtractStrUntilChar 0
    if value.length = 0 then Decoder.fail .invalid else return true

theorem unread_length_startupPair {raw next : RawData} {more : Bool}
    (h : startupPair raw = (.ok more, next)) : next.unread.length < raw.unread.length := by
  unfold startupPair at h
  rcases hname : decoderExtractStrUntilChar 0 raw with ⟨name, after⟩
  cases name with
  | error state =>
      rw [Decoder.bind_error hname] at h
      cases h
  | ok name =>
      have hfirst := unread_length_untilChar hname
      rw [Decoder.bind_ok hname] at h
      split_ifs at h
      · cases h
        exact hfirst
      · rcases hvalue : decoderExtractStrUntilChar 0 after with ⟨value, last⟩
        cases value with
        | error state =>
            rw [Decoder.bind_error hvalue] at h
            cases h
        | ok value =>
            have hsecond := unread_length_untilChar hvalue
            rw [Decoder.bind_ok hvalue] at h
            split_ifs at h
            · cases h
            · cases h
              omega

set_option linter.unusedVariables false in
def pgsqlParseStartupNameValue (raw : RawData) : Except ParseState Unit × RawData :=
  if raw.currentPos < raw.data.length then
    match hpair : startupPair raw with
    | (.error state, raw) => (.error state, raw)
    | (.ok false, raw) => (.ok (), raw)
    | (.ok true, raw) => pgsqlParseStartupNameValue raw
  else (.ok (), raw)
termination_by raw.unread.length
decreasing_by exact unread_length_startupPair hpair

-- Both sides of the comparison are of type `size_t`.
def startupTooLong (raw : RawData) (len : Int) : Bool :=
  raw.data.length - raw.currentPos < ((len - PGSQL_MSG_HEADER_SIZE) % 2 ^ 64).toNat

def pgsqlParseStartupMsg : Decoder Unit := do
  checkRawDataLen
  let len ← decoderExtractInt32
  let _majorVersion ← decoderExtractInt16
  let _minorVersion ← decoderExtractInt16
  fun raw =>
    if startupTooLong raw len then (.error .invalid, raw) else pgsqlParseStartupNameValue raw

def pgsqlFindFrameBoundary (raw : RawData) : Option ℕ :=
  (raw.unread.findIdx? containsPgsqlTag).map (raw.currentPos + ·)

-- `junk` says whether `name_value_pair_len`, which nobody sets, reads as nonzero.
-- The startup message is tried on the same chunk and its position is kept.
def pgsqlParseFrame (junk : Bool) : Decoder PgsqlRegularMsg := fun raw =>
  if noDataLeft raw then (.error .needsMoreData, raw)
  else
    match pgsqlParseStartupMsg raw with
    | (.ok (), next) =>
        if junk && next.currentPos == next.data.length then (.error .invalid, next)
        else pgsqlParseRegularMsg raw.timestampNs next
    | (.error _, next) => pgsqlParseRegularMsg raw.timestampNs next

def pgsql (junk : ℕ → Bool) : Protocol PgsqlRegularMsg where
  findFrameBoundary := pgsqlFindFrameBoundary
  parseFrame calls raw :=
    match pgsqlParseFrame (junk calls) raw with
    | (.ok msg, next) => (.success, some msg, next.currentPos)
    | (.error state, next) => (state, none, next.currentPos)

variable {α : Type}

def PGSQL_ROW_DESC_SIZE : ℕ := 1024

-- A payload is read from its start and needs at least one byte. Only the fields that
-- matching looks at are kept.
def parsePayload (decoder : Decoder α) (msg : PgsqlRegularMsg) : Except ParseState α :=
  if msg.payloadData.length = 0 then .error .invalid
  else (decoder (.create msg.payloadData msg.timestampNs)).1

-- The loops `i < count`.
def decodeTimes (decoder : Decoder α) : ℕ → Decoder Unit
  | 0 => pure ()
  | count + 1 => do
      let _ ← decoder
      decodeTimes decoder count

def pgsqlParseParseMsg : PgsqlRegularMsg → Except ParseState Unit := parsePayload do
  let _stmtName ← decoderExtractStrUntilChar 0
  let _query ← decoderExtractStrUntilChar 0
  let paramCount ← decoderExtractInt16
  decodeTimes decoderExtractInt32 paramCount.toNat

def pgsqlParseBindReq : PgsqlRegularMsg → Except ParseState Unit := parsePayload do
  let _destPortalName ← decoderExtractStrUntilChar 0
  let _srcPreparedStatName ← decoderExtractStrUntilChar 0
  let fmtCodeCount ← decoderExtractInt16
  decodeTimes decoderExtractInt16 fmtCodeCount.toNat

def pgsqlParseParamDesc : PgsqlRegularMsg → Except ParseState Unit := parsePayload do
  let paramCount ← decoderExtractInt16
  decodeTimes decoderExtractInt32 paramCount.toNat

-- The type of what is described.
def pgsqlParseDescribe : PgsqlRegularMsg → Except ParseState UInt8 := parsePayload do
  let descType ← decoderExtractChar
  let _name ← decoderExtractStrUntilChar 0
  return descType

def pgsqlExtractRowDescField : Decoder Unit := do
  let _name ← decoderExtractStrUntilChar 0
  let _tableOid ← decoderExtractInt32
  let _attrNum ← decoderExtractInt16
  let _typeOid ← decoderExtractInt32
  let _typeSize ← decoderExtractInt16
  let _typeModifier ← decoderExtractInt32
  let _fmtCode ← decoderExtractInt16
  return ()

-- `none` is a field stored behind the array.
def extractRowDescFields : ℕ → ℕ → RawData → Option (Except ParseState Unit)
  | 0, _, _ => some (.ok ())
  | count + 1, i, raw =>
      match pgsqlExtractRowDescField raw with
      | (.error state, _) => some (.error state)
      | (.ok (), raw) =>
          if PGSQL_ROW_DESC_SIZE ≤ i then none else extractRowDescFields count (i + 1) raw

def pgsqlParseRowDesc (msg : PgsqlRegularMsg) : Option (Except ParseState Unit) :=
  if msg.payloadData.length = 0 then some (.error .invalid)
  else
    match decoderExtractInt16 (.create msg.payloadData msg.timestampNs) with
    | (.error state, _) => some (.error state)
    | (.ok fieldCount, raw) => extractRowDescFields fieldCount.toNat 0 raw

-- One field of an error, `false` at the byte that ends them.
def errRespField : Decoder Bool := do
  let code ← decoderExtractChar
  if code = 0 then return false
  else
    let _value ← decoderExtractStrUntilChar 0
    return true

theorem unread_length_errRespField {raw next : RawData}
    (h : errRespField raw = (.ok true, next)) : next.unread.length < raw.unread.length := by
  unfold errRespField at h
  rcases hcode : decoderExtractChar raw with ⟨code, after⟩
  cases code with
  | error state =>
      rw [Decoder.bind_error hcode] at h
      cases h
  | ok code =>
      have hfirst : after.unread.length ≤ raw.unread.length := by
        unfold decoderExtractChar Decoder.extract at hcode
        split_ifs at hcode
        · cases hcode
        · cases hcode
          rw [unread_offset, List.length_drop]
          omega
      rw [Decoder.bind_ok hcode] at h
      split_ifs at h
      · cases h
      · rcases hvalue : decoderExtractStrUntilChar 0 after with ⟨value, last⟩
        cases value with
        | error state =>
            rw [Decoder.bind_error hvalue] at h
            cases h
        | ok value =>
            have hsecond := unread_length_untilChar hvalue
            rw [Decoder.bind_ok hvalue] at h
            cases h
            omega

set_option linter.unusedVariables false in
def errRespFields (raw : RawData) : Except ParseState Unit :=
  if raw.currentPos < raw.data.length then
    match hfield : errRespField raw with
    | (.error state, _) => .error state
    | (.ok false, raw) =>
        if raw.currentPos = raw.data.length then .ok () else .error .invalid
    | (.ok true, raw) => errRespFields raw
  else .ok ()
termination_by raw.unread.length
decreasing_by exact unread_length_errRespField hfield

def pgsqlParseErrResp : PgsqlRegularMsg → Except ParseState Unit :=
  parsePayload fun raw => (errRespFields raw, raw)

end Gopher.L7.Pgsql
