import Mathlib.Init

namespace Gopher.Lib

-- A C string, one `Char` for each byte before the NUL.
abbrev Text := List Char

-- In front of the instance for finite types, which goes through all characters there are.
instance decidableForallMem (p : Char → Prop) [DecidablePred p] (text : Text) :
    Decidable (∀ char ∈ text, p char) :=
  List.decidableBAll p text

-- `strcasecmp` returns 0.
def sameIgnoringCase (first second : Text) : Bool :=
  first.map Char.toLower == second.map Char.toLower

-- The string that `snprintf(array, size, "%s", text)` leaves in an array of `size` bytes.
def truncated (size : Nat) (text : Text) : Text :=
  text.take (size - 1)

theorem length_truncated_le (size : Nat) (text : Text) : (truncated size text).length ≤ size - 1 :=
  text.length_take_le _

-- The whole array after that call: the bytes behind the new NUL stay as they were.
def snprintfTo (array text : Text) : Text :=
  let string := truncated array.length text
  if array = [] then [] else string ++ '\x00' :: array.drop (string.length + 1)

-- A C string in an array of `size` bytes.
structure CString (size : Nat) where
  text : Text
  fits : text.length < size
  deriving DecidableEq

-- What `snprintf` leaves in such an array.
def CString.print {size : Nat} (hsize : 0 < size) (text : Text) : CString size :=
  ⟨truncated size text, by
    have := length_truncated_le size text
    omega⟩

-- The bytes up to a newline, and with it, for which there is room.
def lineLength : (room : Nat) → Text → Nat
  | 0, _ => 0
  | _, [] => 0
  | room + 1, c :: text => if c = '\n' then 1 else lineLength room text + 1

-- The line read and the rest; `none` at the end of the input.
def fgets (size : Nat) (input : Text) : Option (Text × Text) :=
  if input = [] then none
  else
    let len := lineLength (size - 1) input
    some (input.take len, input.drop len)

def splitNewlineSymbol (s : Text) : Text :=
  if s.getLast? = some '\n' then s.dropLast else s

end Gopher.Lib
