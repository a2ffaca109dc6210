import Gopher.L7.ConnTracker
import Gopher.L7.FrameStream
import Gopher.Lib.Run

namespace Gopher.L7

variable {φ ρ ι : Type*}

-- What matching does to the streams of the requests and of the responses, and the
-- records it makes. `none` is a matcher that follows a pointer to nothing.
def FrameMatcher (φ ρ : Type*) :=
  FrameStream φ → FrameStream φ → Option (FrameStream φ × FrameStream φ × RecordBuf ρ)

-- The frames that arrive before matching, and what memory nobody has set holds then.
structure MatchRound (φ ι : Type*) where
  requests : List φ
  responses : List φ
  unset : ι

-- The streams of a connection and the statistics of its tracker.
structure CountedConn (φ : Type*) where
  req : FrameStream φ
  rsp : FrameStream φ
  stats : Stats

namespace CountedConn

def init : CountedConn φ := { req := .init, rsp := .init, stats := .zero }

def push (conn : CountedConn φ) (round : MatchRound φ ι) : CountedConn φ :=
  { conn with
    req := conn.req.pushFrames round.requests
    rsp := conn.rsp.pushFrames round.responses }

end CountedConn

-- Frames are matched, counted and popped. The records are freed behind the statistics,
-- which changes neither those nor the streams and is left out.
def l7ParserTracker (matchFrames : FrameMatcher φ ρ) (conn : CountedConn φ) :
    Option (CountedConn φ) :=
  (matchFrames conn.req conn.rsp).bind fun (req, rsp, records) => do
    let stats := addCounts records conn.stats
    let req ← req.dataStreamPopFrames
    let rsp ← rsp.dataStreamPopFrames
    return { req := req, rsp := rsp, stats := stats }

-- A round that comes to its end.
def matchStep (matchFrames : ι → FrameMatcher φ ρ) (conn : CountedConn φ)
    (round : MatchRound φ ι) (next : CountedConn φ) : Prop :=
  l7ParserTracker (matchFrames round.unset) (conn.push round) = some next

-- What the two counters are for. Every frame that was pushed was created once.
structure Conserved (conn : CountedConn φ) : Prop where
  requests : conn.stats .reqCount = conn.req.created
  responses : conn.stats .rspCount = conn.rsp.created

-- No round but the last one brings frames.
def PushedLast (rounds : List (MatchRound φ ι)) : Prop :=
  ∀ round ∈ rounds.dropLast, round.requests = [] ∧ round.responses = []

end Gopher.L7
