import Gopher.L7.Counters
import Gopher.L7.Pgsql

namespace Gopher.L7.Pgsql

open Gopher.L7

def PGSQL_SIMPLE_QUERY : UInt8 := 'Q'.toUInt8
def PGSQL_EXTENDED_QUERY_PARSE : UInt8 := 'P'.toUInt8
def PGSQL_EXTENDED_QUERY_BIND : UInt8 := 'B'.toUInt8
def PGSQL_EXTENDED_QUERY_EXECUTE : UInt8 := 'E'.toUInt8
def PGSQL_EXTENDED_QUERY_DESCRIBE : UInt8 := 'D'.toUInt8
def PGSQL_CMD_COMPLETE : UInt8 := 'C'.toUInt8
def PGSQL_ERR_RETURN : UInt8 := 'E'.toUInt8
def PGSQL_EMPTY_QUERY_RESP : UInt8 := 'I'.toUInt8
def PGSQL_PARSE_COMPLETE : UInt8 := '1'.toUInt8
def PGSQL_BIND_COMPLETE : UInt8 := '2'.toUInt8
def PGSQL_ROW_DESCRIPTION : UInt8 := 'T'.toUInt8
def PGSQL_NO_DATA : UInt8 := 'n'.toUInt8
def PGSQL_PARAMETER_DESCRIPTION : UInt8 := 't'.toUInt8
def PGSQL_DATA_ROW : UInt8 := 'D'.toUInt8
def PGSQL_DESCRIBE_TYPE_STATEMENT : UInt8 := 'S'.toUInt8
def PGSQL_DESCRIBE_TYPE_PORTAL : UInt8 := 'P'.toUInt8

-- Nobody sets `consumed` before matching does.
structure PgsqlFrame where
  msg : PgsqlRegularMsg
  consumed : Bool
  deriving DecidableEq

-- The responses that go into a record and the timestamp if one was set. The mark
-- `consumed` of a response is left out, as nobody reads it.
structure Reply where
  taken : List ℕ
  timestampNs : Option UInt64

-- What handling a request comes to, an error being any state but success, and how far
-- it moves the position of the responses.
structure Handled where
  result : Except ParseState Reply
  advanced : ℕ

def Handled.failed (state : ParseState) (advanced : ℕ) : Handled := ⟨.error state, advanced⟩

def Handled.replied (taken : List ℕ) (timestampNs : Option UInt64) (advanced : ℕ) : Handled :=
  ⟨.ok ⟨taken, timestampNs⟩, advanced⟩

-- The text of a command that is complete is copied whatever it is. All other
-- responses that end an answer have nothing to parse.
def parseReply (msg : PgsqlRegularMsg) : Except ParseState Unit :=
  if msg.tag = PGSQL_ERR_RETURN then pgsqlParseErrResp msg else .ok ()

-- The loop of `pgsql_handle_query` and `pgsql_fill_query_resp`. An answer is found
-- when a timestamp was set. Data rows are taken, and only those of a simple query
-- count as an answer.
def collectQueryResp (ends rows : List UInt8) :
    List (Slot PgsqlFrame) → ℕ → List ℕ → Option UInt64 → Option Handled
  | [], index, taken, timestampNs =>
      some (if timestampNs.isSome then .replied taken timestampNs index
        else .failed .invalid index)
  | none :: _, _, _, _ => none
  | some (ptr, frame) :: rest, index, taken, timestampNs =>
      if frame.msg.tag ∈ ends then
        match parseReply frame.msg with
        | .error state => some (.failed state 0)
        | .ok () => some (.replied (taken ++ [ptr]) (some frame.msg.timestampNs) (index + 1))
      else if frame.msg.tag ∈ rows then
        collectQueryResp ends rows rest (index + 1) (taken ++ [ptr]) (some frame.msg.timestampNs)
      else if frame.msg.tag = PGSQL_DATA_ROW then
        collectQueryResp ends rows rest (index + 1) (taken ++ [ptr]) timestampNs
      else collectQueryResp ends rows rest (index + 1) taken timestampNs

def pgsqlHandleQuery (slots : List (Slot PgsqlFrame)) : Option Handled :=
  collectQueryResp [PGSQL_EMPTY_QUERY_RESP, PGSQL_CMD_COMPLETE, PGSQL_ERR_RETURN]
    [PGSQL_ROW_DESCRIPTION, PGSQL_DATA_ROW] slots 0 [] none

def pgsqlHandleExecute (slots : List (Slot PgsqlFrame)) : Option Handled :=
  collectQueryResp [PGSQL_CMD_COMPLETE, PGSQL_ERR_RETURN] [PGSQL_ROW_DESCRIPTION] slots 0 [] none

structure FoundTag where
  index : ℕ
  ptr : ℕ
  msg : PgsqlRegularMsg

-- `some none` is the end of the buffer.
def pgsqlFindFirstTag (tags : List UInt8) : List (Slot PgsqlFrame) → ℕ → Option (Option FoundTag)
  | [], _ => some none
  | none :: _, _ => none
  | some (ptr, frame) :: rest, index =>
      if frame.msg.tag ∈ tags then some (some ⟨index, ptr, frame.msg⟩)
      else pgsqlFindFirstTag tags rest (index + 1)

-- Parse and bind requests, the payload of the request having been parsed.
def handleComplete (parsed : Except ParseState Unit) (complete : UInt8)
    (slots : List (Slot PgsqlFrame)) : Option Handled :=
  match parsed with
  | .error state => some (.failed state 0)
  | .ok () =>
      (pgsqlFindFirstTag [complete, PGSQL_ERR_RETURN] slots 0).map fun
        | none => .failed .notFound 0
        | some found =>
            match parseReply found.msg with
            | .error state => .failed state (found.index + 1)
            | .ok () => .replied [found.ptr] (some found.msg.timestampNs) (found.index + 1)

def pgsqlHandleParse (msg : PgsqlRegularMsg) : List (Slot PgsqlFrame) → Option Handled :=
  handleComplete (pgsqlParseParseMsg msg) PGSQL_PARSE_COMPLETE

def pgsqlHandleBind (msg : PgsqlRegularMsg) : List (Slot PgsqlFrame) → Option Handled :=
  handleComplete (pgsqlParseBindReq msg) PGSQL_BIND_COMPLETE

-- The message behind a parameter description.
def fillRowDesc (param : FoundTag) : List (Slot PgsqlFrame) → Option Handled
  | [] => some (.failed .invalid (param.index + 1))
  | none :: _ => none
  | some (ptr, frame) :: _ =>
      let described : Handled :=
        .replied [param.ptr, ptr] (some param.msg.timestampNs) (param.index + 2)
      if frame.msg.tag = PGSQL_ROW_DESCRIPTION then
        (pgsqlParseRowDesc frame.msg).map fun
          | .error state => .failed state (param.index + 2)
          | .ok () => described
      else if frame.msg.tag = PGSQL_NO_DATA then some described
      else some (.failed .invalid (param.index + 2))

def pgsqlFillStmtDescResp (slots : List (Slot PgsqlFrame)) : Option Handled := do
  match ← pgsqlFindFirstTag [PGSQL_PARAMETER_DESCRIPTION, PGSQL_ERR_RETURN] slots 0 with
  | none => return .failed .notFound 0
  | some found =>
      if found.msg.tag = PGSQL_ERR_RETURN then
        match pgsqlParseErrResp found.msg with
        | .error state => return .failed state (found.index + 1)
        | .ok () => return .replied [found.ptr] (some found.msg.timestampNs) (found.index + 1)
      else
        match pgsqlParseParamDesc found.msg with
        | .error state => return .failed state (found.index + 1)
        | .ok () => fillRowDesc found (slots.drop (found.index + 1))

def parsePortalDesc (msg : PgsqlRegularMsg) : Option (Except ParseState Unit) :=
  if msg.tag = PGSQL_ERR_RETURN then some (pgsqlParseErrResp msg) else pgsqlParseRowDesc msg

-- The answer for a portal gets no timestamp.
def pgsqlFillPortalDescResp (slots : List (Slot PgsqlFrame)) : Option Handled := do
  match ← pgsqlFindFirstTag [PGSQL_PARAMETER_DESCRIPTION, PGSQL_ERR_RETURN] slots 0 with
  | none => return .failed .notFound 0
  | some found =>
      match ← parsePortalDesc found.msg with
      | .error state => return .failed state (found.index + 1)
      | .ok () => return .replied [found.ptr] none (found.index + 1)

def pgsqlHandleDescribe (msg : PgsqlRegularMsg) (slots : List (Slot PgsqlFrame)) :
    Option Handled :=
  match pgsqlParseDescribe msg with
  | .error state => some (.failed state 0)
  | .ok descType =>
      if descType = PGSQL_DESCRIBE_TYPE_STATEMENT then pgsqlFillStmtDescResp slots
      else if descType = PGSQL_DESCRIBE_TYPE_PORTAL then pgsqlFillPortalDescResp slots
      else some (.failed .invalid 0)

-- The requests that are handled. All others are passed over.
def handlerOf (msg : PgsqlRegularMsg) : Option (List (Slot PgsqlFrame) → Option Handled) :=
  if msg.tag = PGSQL_SIMPLE_QUERY then some pgsqlHandleQuery
  else if msg.tag = PGSQL_EXTENDED_QUERY_PARSE then some (pgsqlHandleParse msg)
  else if msg.tag = PGSQL_EXTENDED_QUERY_BIND then some (pgsqlHandleBind msg)
  else if msg.tag = PGSQL_EXTENDED_QUERY_DESCRIBE then some (pgsqlHandleDescribe msg)
  else if msg.tag = PGSQL_EXTENDED_QUERY_EXECUTE then some pgsqlHandleExecute
  else none

-- The tags a handler looks for.
def answerTags (msg : PgsqlRegularMsg) : List UInt8 :=
  if msg.tag = PGSQL_SIMPLE_QUERY then
    [PGSQL_EMPTY_QUERY_RESP, PGSQL_CMD_COMPLETE, PGSQL_ERR_RETURN, PGSQL_ROW_DESCRIPTION,
      PGSQL_DATA_ROW]
  else if msg.tag = PGSQL_EXTENDED_QUERY_PARSE then [PGSQL_PARSE_COMPLETE, PGSQL_ERR_RETURN]
  else if msg.tag = PGSQL_EXTENDED_QUERY_BIND then [PGSQL_BIND_COMPLETE, PGSQL_ERR_RETURN]
  else if msg.tag = PGSQL_EXTENDED_QUERY_DESCRIBE then
    [PGSQL_PARAMETER_DESCRIPTION, PGSQL_ERR_RETURN]
  else [PGSQL_CMD_COMPLETE, PGSQL_ERR_RETURN, PGSQL_ROW_DESCRIPTION]

def isAnswer (msg : PgsqlRegularMsg) : Slot PgsqlFrame → Bool
  | none => false
  | some (_, frame) => frame.msg.tag ∈ answerTags msg

-- The description of a statement takes two responses unless the first is an error.
def needsTwo (msg : PgsqlRegularMsg) : Slot PgsqlFrame → Bool
  | none => false
  | some (_, frame) => msg.tag = PGSQL_EXTENDED_QUERY_DESCRIBE &&
      msg.payloadData.head? = some PGSQL_DESCRIBE_TYPE_STATEMENT &&
      frame.msg.tag = PGSQL_PARAMETER_DESCRIPTION

-- Whether the response of a request is among the ones that are left.
def responseArrived (msg : PgsqlRegularMsg) (slots : List (Slot PgsqlFrame)) : Bool :=
  match slots.dropWhile fun slot => !isAnswer msg slot with
  | [] => false
  | first :: rest => !(needsTwo msg first && rest.isEmpty)

-- `taken` is only kept to speak about the responses a record was made of.
structure PgsqlRecord where
  reqMsg : ℕ
  respTimestampNs : UInt64
  taken : List ℕ

-- `refused` are the requests that were counted as errors, each with the answer to
-- whether its response had arrived.
structure Matching where
  req : FrameStream PgsqlFrame
  rsp : FrameStream PgsqlFrame
  records : RecordBuf PgsqlRecord
  refused : List (ℕ × Bool)

def PgsqlFrame.markConsumed (frame : PgsqlFrame) : PgsqlFrame := { frame with consumed := true }

-- The mark of the frame object behind a pointer is set.
def consume (req : FrameStream PgsqlFrame) (ptr : ℕ) : FrameStream PgsqlFrame :=
  { req with
    frames := Function.update req.frames ptr ((req.frames ptr).map PgsqlFrame.markConsumed) }

namespace Matching

-- The requests that went into a record with the responses it took.
def answers (matching : Matching) : List (ℕ × List ℕ) :=
  matching.records.records.map fun data => (data.record.reqMsg, data.record.taken)

def advance (matching : Matching) (count : ℕ) : Matching :=
  { matching with rsp := matching.rsp.advance count }

def countError (matching : Matching) (ptr : ℕ) (arrived : Bool) : Matching :=
  { matching with
    records := { matching.records with errCount := matching.records.errCount + 1 }
    refused := matching.refused ++ [(ptr, arrived)] }

-- The allocations of the record are granted. A timestamp nobody has set is `unset`.
def addRecord (unset : ℕ → UInt64) (matching : Matching) (ptr : ℕ) (msg : PgsqlRegularMsg)
    (reply : Reply) : Matching :=
  let timestampNs := reply.timestampNs.getD (unset ptr)
  let record : RecordData PgsqlRecord :=
    { record := ⟨ptr, timestampNs, reply.taken⟩, latency := timestampNs - msg.timestampNs }
  { matching with
    req := consume matching.req ptr
    records := { matching.records with records := matching.records.records ++ [record] } }

end Matching

def pgsqlMatcherAddRecord (unset : ℕ → UInt64) (matching : Matching) (ptr : ℕ)
    (msg : PgsqlRegularMsg) (reply : Reply) (arrived : Bool) : Matching :=
  if RECORD_BUF_SIZE < matching.records.records.length then matching.countError ptr arrived
  else matching.addRecord unset ptr msg reply

-- One round of the loop. `none` is a pointer that cannot be followed.
def matchRequest (unset : ℕ → UInt64) (matching : Matching) (slot : Option ℕ) :
    Option Matching := do
  let (ptr, frame) ← matching.req.follow slot
  match handlerOf frame.msg with
  | none => return matching
  | some handler =>
      let handled ← handler matching.rsp.slots
      let arrived := responseArrived frame.msg matching.rsp.slots
      let moved := matching.advance handled.advanced
      match handled.result with
      | .ok reply => return pgsqlMatcherAddRecord unset moved ptr frame.msg reply arrived
      | .error _ => return moved.countError ptr arrived

-- The requests at the front that are marked.
def countConsumed (req : FrameStream PgsqlFrame) : List (Option ℕ) → Option ℕ
  | [] => some 0
  | slot :: rest => do
      let (_, frame) ← req.follow slot
      if frame.consumed then return (← countConsumed req rest) + 1 else return 0

-- All responses go with the requests that were matched.
def dropConsumed (matching : Matching) : Option Matching := do
  let count ← countConsumed matching.req matching.req.unmatched
  if count = 0 then return matching
  else return { matching with
    req := matching.req.advance count
    rsp := matching.rsp.setPos matching.rsp.frameBufs.frameBufSize }

-- The numbers of frames are those the buffers hold before.
def Matching.start (req rsp : FrameStream PgsqlFrame) : Matching where
  req := req
  rsp := rsp
  records :=
    { records := []
      errCount := 0
      reqCount := req.frameBufs.frameBufSize
      respCount := rsp.frameBufs.frameBufSize }
  refused := []

-- The loop compares the position the responses had at the start.
def pgsqlMatchFrames (unset : ℕ → UInt64) (req rsp : FrameStream PgsqlFrame) : Option Matching :=
  (if rsp.frameBufs.currentPos < rsp.frameBufs.frameBufSize then
    req.unmatched.foldlM (matchRequest unset) (.start req rsp)
  else some (.start req rsp)).bind dropConsumed

def pgsqlMatcher (unset : ℕ → UInt64) : FrameMatcher PgsqlFrame PgsqlRecord :=
  fun req rsp => (pgsqlMatchFrames unset req rsp).map fun matching =>
    (matching.req, matching.rsp, matching.records)

end Gopher.L7.Pgsql
