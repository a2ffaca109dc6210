import Gopher.L7.Http.Head
import Gopher.L7.Http.Head.RoundTrip
import Gopher.L7.Inference

namespace Gopher.L7.Http

open Gopher.L7.Inference (MessageType)

-- A message with the fields that its frame is made from.
structure ParsedMessage where
  type : MessageType
  timestampNs : UInt64
  minorVersion : ℤ
  respStatus : ℤ
  body : Option (List UInt8)
  bodySize : ℕ

-- The body is left as `malloc` gave it.
def initHttpMsg : ParsedMessage where
  type := .unknow
  timestampNs := 0
  minorVersion := -1
  respStatus := -1
  body := none
  bodySize := 0

-- What the parser of a frame leaves, with the position in the chunk.
structure FrameParse where
  state : ParseState
  currentPos : ℕ
  msg : ParsedMessage

-- What happens behind the checks of the offset. There `strcpy` writes each header to the
-- literal "" and the method, the path or the reason to a pointer that nobody has set, so
-- that the language gives no meaning to the assembly of the frame and to the parse of the
-- body that follows it. It is any function.
abbrev Assembly (ρ : Type) := RawData → ρ → UInt64 → FrameParse

-- The offset is a `size_t`, and so are the two numbers that it is compared with.
def checkOffset (offset : UInt64) : Option ParseState :=
  if offset = UInt64.ofInt (-2) then some .needsMoreData
  else if offset = UInt64.ofInt (-1) ∨ offset < UInt64.ofInt (-2) then some .invalid
  else none

def parseFrameBehind {ρ : Type} (parseHead : RawData → ρ × UInt64) (assembly : Assembly ρ)
    (raw : RawData) : FrameParse :=
  let (head, offset) := parseHead raw
  match checkOffset offset with
  | some state => ⟨state, raw.currentPos, initHttpMsg⟩
  | none => assembly raw head offset

-- The build and what the two kinds of frame do behind the checks.
structure FrameParser where
  sse42 : Bool
  requestAssembly : Assembly HttpRequest
  responseAssembly : Assembly HttpResponse

structure FrameData where
  msgType : MessageType
  frame : Option ParsedMessage
  timestampNs : UInt64

namespace FrameParser

def parseRequestFrame (parser : FrameParser) : RawData → FrameParse :=
  parseFrameBehind (fun raw => httpParseRequestHeaders parser.sse42 raw initHttpRequest)
    parser.requestAssembly

def parseResponseFrame (parser : FrameParser) : RawData → FrameParse :=
  parseFrameBehind (fun raw => httpParseResponseHeaders parser.sse42 raw initHttpResponse)
    parser.responseAssembly

def setFrame (msgType : MessageType) (parse : FrameParse) : ParseState × ℕ × FrameData :=
  (parse.state, parse.currentPos, ⟨msgType, some parse.msg, parse.msg.timestampNs⟩)

def httpParseFrame (parser : FrameParser) (msgType : MessageType) (raw : RawData)
    (frameData : FrameData) : ParseState × ℕ × FrameData :=
  match msgType with
  | .request => setFrame msgType (parser.parseRequestFrame raw)
  | .response => setFrame msgType (parser.parseResponseFrame raw)
  | .unknow => (.invalid, raw.currentPos, frameData)

end FrameParser

section Messages

def toLower (byte : UInt8) : UInt8 := if 0x41 ≤ byte ∧ byte ≤ 0x5a then byte + 0x20 else byte

-- content-length
def CONTENT_LENGTH : List UInt8 :=
  [0x63, 0x6f, 0x6e, 0x74, 0x65, 0x6e, 0x74, 0x2d, 0x6c, 0x65, 0x6e, 0x67, 0x74, 0x68]

-- transfer-encoding
def TRANSFER_ENCODING : List UInt8 :=
  [0x74, 0x72, 0x61, 0x6e, 0x73, 0x66, 0x65, 0x72, 0x2d, 0x65, 0x6e, 0x63, 0x6f, 0x64, 0x69, 0x6e,
    0x67]

-- chunked
def CHUNKED : List UInt8 := [0x63, 0x68, 0x75, 0x6e, 0x6b, 0x65, 0x64]

def hexDigitValue (byte : UInt8) : Option ℕ :=
  if 0x30 ≤ byte ∧ byte ≤ 0x39 then some (byte.toNat - 0x30)
  else if 0x41 ≤ byte ∧ byte ≤ 0x46 then some (byte.toNat - 0x37)
  else if 0x61 ≤ byte ∧ byte ≤ 0x66 then some (byte.toNat - 0x57)
  else none

-- The number that digits stand for, if there is a digit and nothing else.
def numeral (base : ℕ) (digits : List UInt8) : Option ℕ :=
  if digits = [] then none
  else digits.foldlM (fun total byte => do
    let digit ← hexDigitValue byte
    if digit < base then some (base * total + digit) else none) 0

-- The line in front of a chunk, with an extension behind the size.
structure SizeLine (length : ℕ) where
  digits : List UInt8
  extension : List UInt8
  numeral_digits : numeral 16 digits = some length
  extension_text : ∀ byte ∈ extension, isText byte = true
  extension_first : ∀ byte, extension.head? = some byte → byte = 0x3b

def SizeLine.render {length : ℕ} (line : SizeLine length) : List UInt8 :=
  line.digits ++ line.extension ++ CRLF

structure Chunk where
  data : List UInt8
  data_ne_nil : data ≠ []
  size : SizeLine data.length

def Chunk.render (chunk : Chunk) : List UInt8 := chunk.size.render ++ chunk.data ++ CRLF

inductive MessageBody
  | sized (content : List UInt8)
  | chunked (chunks : List Chunk) (last : SizeLine 0) (trailer : List HeaderField)

namespace MessageBody

def render : MessageBody → List UInt8
  | sized content => content
  | chunked chunks last trailer =>
      chunks.flatMap Chunk.render ++ last.render ++ renderFields trailer

def content : MessageBody → List UInt8
  | sized content => content
  | chunked chunks _ _ => chunks.flatMap Chunk.data

-- The fields of a head that say where its message ends.
def framing (fields : List HeaderField) : List HeaderField :=
  fields.filter fun field => [CONTENT_LENGTH, TRANSFER_ENCODING].contains (field.name.map toLower)

-- A head announces its body by one field.
def AnnouncedBy (body : MessageBody) (fields : List HeaderField) : Prop :=
  ∃ field, framing fields = [field] ∧
    match body with
    | sized content =>
        field.name.map toLower = CONTENT_LENGTH ∧ numeral 10 field.value = some content.length
    | chunked _ _ _ =>
        field.name.map toLower = TRANSFER_ENCODING ∧ field.value.map toLower = CHUNKED

end MessageBody

inductive Message
  | request (head : RequestHead) (body : MessageBody) (announced : body.AnnouncedBy head.fields)
  | response (head : ResponseHead) (body : MessageBody) (announced : body.AnnouncedBy head.fields)

namespace Message

def msgType : Message → MessageType
  | request _ _ _ => .request
  | response _ _ _ => .response

def head : Message → List UInt8
  | request head _ _ => head.render
  | response head _ _ => head.render

def body : Message → MessageBody
  | request _ body _ => body
  | response _ body _ => body

def render (msg : Message) : List UInt8 := msg.head ++ msg.body.render

end Message

end Messages

section Parsing

variable (parser : FrameParser) (frameData : FrameData)

-- The parser succeeds with the body of the message and goes over its head and its body.
def FrameParser.Parses (msg : Message) (raw : RawData) : Prop :=
  ∃ parsed, parser.httpParseFrame msg.msgType raw frameData =
      (.success, raw.currentPos + msg.render.length, parsed) ∧
    parsed.frame.bind ParsedMessage.body = some msg.body.content

-- Every offset other than the code for incomplete is one of the two that are invalid.
theorem checkOffset_eq (offset : UInt64) :
    checkOffset offset =
      some (if offset = NEEDS_MORE_DATA then .needsMoreData else .invalid) := by
  have hlast : (UInt64.ofInt (-2)).toNat = 2 ^ 64 - 2 := rfl
  have hlast' : (UInt64.ofInt (-1)).toNat = 2 ^ 64 - 1 := rfl
  unfold checkOffset NEEDS_MORE_DATA
  by_cases hmore : offset = UInt64.ofInt (-2)
  · rw [if_pos hmore, if_pos hmore]
  · have hinvalid : offset = UInt64.ofInt (-1) ∨ offset < UInt64.ofInt (-2) := by
      have hlt := offset.toNat_lt
      rw [← UInt64.toNat_inj, hlast] at hmore
      rw [← UInt64.toNat_inj, UInt64.lt_iff_toNat_lt, hlast, hlast']
      omega
    rw [if_neg hmore, if_pos hinvalid, if_neg hmore]

theorem parseFrameBehind_eq {ρ : Type} (parseHead : RawData → ρ × UInt64) (assembly : Assembly ρ)
    (raw : RawData) :
    parseFrameBehind parseHead assembly raw =
      ⟨if (parseHead raw).2 = NEEDS_MORE_DATA then .needsMoreData else .invalid, raw.currentPos,
        initHttpMsg⟩ := by
  unfold parseFrameBehind
  dsimp only
  rw [checkOffset_eq]

theorem parseResult_eq_needsMoreData (start length : ℕ) (rest : List UInt8) :
    parseResult start (.ok ((), ⟨start + length, rest⟩)) = NEEDS_MORE_DATA ↔
      length % 2 ^ 32 = 2 ^ 32 - 2 := by
  have hlen : start + length - start = length := by omega
  have hmore : NEEDS_MORE_DATA.toNat = 2 ^ 64 - 2 := rfl
  rw [← UInt64.toNat_inj, hmore]
  unfold parseResult UInt64.ofInt
  dsimp only
  rw [hlen, UInt64.toNat_ofNat', Int.bmod_def]
  omega

-- What comes behind a head has no say in the state.
theorem parseFrameBehind_state {ρ : Type} {parseHead : RawData → ρ × UInt64} {head : ρ}
    {raw : RawData} {length : ℕ} {more : List UInt8}
    (hparse : parseHead raw = (head, parseResult raw.currentPos
      (.ok ((), ⟨raw.currentPos + length, more⟩)))) (assembly : Assembly ρ) :
    (parseFrameBehind parseHead assembly raw).state =
      if length % 2 ^ 32 = 2 ^ 32 - 2 then .needsMoreData else .invalid := by
  rw [parseFrameBehind_eq, hparse]
  simp only [parseResult_eq_needsMoreData]

theorem httpParseFrame_head (msg : Message) {raw : RawData} {more : List UInt8}
    (h : raw.unread = msg.head ++ more) :
    (parser.httpParseFrame msg.msgType raw frameData).1 =
      if msg.head.length % 2 ^ 32 = 2 ^ 32 - 2 then .needsMoreData else .invalid := by
  cases msg with
  | request head body announced =>
      exact parseFrameBehind_state (httpParseRequestHeaders_render parser.sse42 head h)
        parser.requestAssembly
  | response head body announced =>
      exact parseFrameBehind_state (httpParseResponseHeaders_render parser.sse42 head h)
        parser.responseAssembly

theorem not_parses (msg : Message) {raw : RawData} {more : List UInt8}
    (h : raw.unread = msg.render ++ more) : ¬parser.Parses frameData msg raw := by
  rintro ⟨parsed, hparsed, -⟩
  have hhead : raw.unread = msg.head ++ (msg.body.render ++ more) := by
    rw [h, Message.render, List.append_assoc]
  have hstate := httpParseFrame_head parser frameData msg hhead
  rw [hparsed] at hstate
  split_ifs at hstate

-- No message is parsed. A message whose body is cut short asks for more if the length of
-- its head comes through the `int` as the code for that.
theorem httpParseFrame_parses_iff (msg : Message) :
    (∀ raw more, raw.unread = msg.render ++ more → ¬parser.Parses frameData msg raw) ∧
    ∀ raw part, part <+: msg.body.render → part ≠ msg.body.render →
      raw.unread = msg.head ++ part →
        ((parser.httpParseFrame msg.msgType raw frameData).1 = .needsMoreData ↔
          msg.head.length % 2 ^ 32 = 2 ^ 32 - 2) := by
  constructor
  · intro raw more h
    exact not_parses parser frameData msg h
  · intro raw part _ _ h
    rw [httpParseFrame_head parser frameData msg h]
    constructor
    · intro hstate
      by_contra hlen
      rw [if_neg hlen] at hstate
      cases hstate
    · intro hlen
      rw [if_pos hlen]

end Parsing

-- PUT / HTTP/1.0 with a body of one byte.
def letterHead : RequestHead where
  method := [0x50, 0x55, 0x54]
  path := [0x2f]
  minor := 0x30
  fields := [{
    name := CONTENT_LENGTH
    value := [0x31]
    name_ne_nil := List.cons_ne_nil _ _
    name_tchar := List.all_eq_true.mp rfl
    value_text := List.all_eq_true.mp rfl
    value_first byte h := by
      cases h
      rfl
    value_last byte h := by
      cases h
      rfl }]
  method_ne_nil := List.cons_ne_nil _ _
  method_tchar := List.all_eq_true.mp rfl
  path_ne_nil := List.cons_ne_nil _ _
  path_text byte hbyte := by
    rw [List.mem_singleton.mp hbyte]
    decide
  minor_digit := rfl
  fields_le := Nat.le_of_ble_eq_true rfl

def letterMessage : Message :=
  .request letterHead (.sized [0x61]) ⟨_, rfl, rfl, rfl⟩

def plainParser : FrameParser where
  sse42 := false
  requestAssembly raw _ _ := ⟨.success, raw.currentPos, initHttpMsg⟩
  responseAssembly raw _ _ := ⟨.success, raw.currentPos, initHttpMsg⟩

theorem httpParseFrame_parses_iff_letter :
    ¬plainParser.Parses ⟨.unknow, none, 0⟩ letterMessage (.create letterMessage.render 0) ∧
      (plainParser.httpParseFrame .request (.create letterMessage.head 0) ⟨.unknow, none, 0⟩).1 ≠
        .needsMoreData := by
  have hparse := httpParseFrame_parses_iff plainParser ⟨.unknow, none, 0⟩ letterMessage
  constructor
  · exact hparse.1 _ [] (List.append_nil _).symm
  · intro hstate
    have hlen := (hparse.2 (.create letterMessage.head 0) [] (List.nil_prefix)
      (by decide) (List.append_nil _).symm).mp hstate
    exact absurd hlen (by decide)

-- The letter is a complete message and is called invalid.
theorem letterMessage_not_parsed :
    ¬∀ (parser : FrameParser) frameData msg raw more, raw.unread = Message.render msg ++ more →
      parser.Parses frameData msg raw := by
  intro h
  have hunread : (RawData.create letterMessage.render 0).unread = letterMessage.render ++ [] :=
    (List.append_nil _).symm
  exact not_parses plainParser ⟨.unknow, none, 0⟩ letterMessage hunread (h _ _ _ _ _ hunread)

end Gopher.L7.Http
