import Gopher.L7.Http.Matcher
import Gopher.L7.Pgsql.Matcher

namespace Gopher.L7

open Pgsql Http

-- The protocols whose frames are matched, with what is matched and what nobody sets.
inductive MatchedProto
  | pgsql
  | http

namespace MatchedProto

def Frame : MatchedProto → Type
  | .pgsql => PgsqlFrame
  | .http => HttpMessage

def Record : MatchedProto → Type
  | .pgsql => PgsqlRecord
  | .http => HttpRecord

def Unset : MatchedProto → Type
  | .pgsql => ℕ → UInt64
  | .http => ℕ → Option UInt64

end MatchedProto

def protoMatchFrames : (type : MatchedProto) → type.Unset → FrameMatcher type.Frame type.Record
  | .pgsql => pgsqlMatcher
  | .http => httpMatchFrames

end Gopher.L7
