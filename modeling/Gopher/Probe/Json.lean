import Gopher.Lib.Text
import Mathlib.Data.Rat.Defs

namespace Gopher.Probe

open Gopher.Lib

def INT_MAX : ℤ := 2147483647
def INT_MIN : ℤ := -2147483648

-- A parsed document as the cJSON library gives it, numbers by their `valuedouble`.
inductive Json
  | null
  | bool (value : Bool)
  | number (valuedouble : ℚ)
  | string (value : Text)
  | array (items : List Json)
  | object (members : List (Text × Json))

inductive JsonType
  | null
  | bool
  | number
  | string
  | array
  | object
  deriving DecidableEq, Repr

namespace Json

def type : Json → JsonType
  | null => .null
  | bool _ => .bool
  | number _ => .number
  | string _ => .string
  | array _ => .array
  | object _ => .object

-- `cJSON_GetArraySize` and `cJSON_GetArrayItem` go through the children of an
-- object as well.
def children : Json → List Json
  | array items => items
  | object members => members.map Prod.snd
  | _ => []

-- The first member whose name agrees, upper and lower case taken as equal.
def getObjectItem (json : Json) (name : Text) : Option Json :=
  match json with
  | object members =>
      (members.find? fun member => sameIgnoringCase member.1 name).map Prod.snd
  | _ => none

-- The number cut towards zero and kept within the bounds of an `int`.
def valueint : Json → ℤ
  | number value => max INT_MIN (min INT_MAX (value.num.tdiv value.den))
  | _ => 0

def valuestring : Json → Option Text
  | string value => some value
  | _ => none

end Json

-- What a parser reports: 0, or -1 and the text it leaves in `g_parse_json_err`.
-- Without a text the earlier one stays.
inductive Result
  | ok
  | error (message : Option Text)
  deriving DecidableEq, Repr

end Gopher.Probe
