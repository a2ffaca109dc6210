import Gopher.Lib.Text
import Mathlib.Data.Int.Notation
import Mathlib.Data.Nat.Notation
import Mathlib.Tactic.SplitIfs

-- What `printf` prints for a format of literals and of directives without `#` and precision. An
-- `int` has 32 bits, the other integers have 64, and the locale is the one a program starts in.

namespace Gopher.Lib.Printf

section Format

inductive Flag where
  | minus
  | plus
  | space
  | zero
  deriving DecidableEq

inductive Width where
  | unspecified
  | number (n : ℕ) (pos : 0 < n)
  | star
  deriving DecidableEq

inductive Length where
  | none
  | h
  | l
  | ll
  deriving DecidableEq

inductive Conversion where
  | d
  | i
  | u
  | x
  | X
  | o
  | c
  | s
  | percent
  deriving DecidableEq

structure Directive where
  flags : List Flag
  width : Width
  length : Length
  conversion : Conversion
  deriving DecidableEq

inductive Piece where
  | literal (char : Char) (verbatim : char ≠ '%' ∧ char ≠ '\x00')
  | directive (directive : Directive)

abbrev Format := List Piece

def Flag.char : Flag → Char
  | .minus => '-'
  | .plus => '+'
  | .space => ' '
  | .zero => '0'

def Width.text : Width → Text
  | .unspecified => []
  | .number n _ => Nat.toDigits 10 n
  | .star => ['*']

def Length.text : Length → Text
  | .none => []
  | .h => ['h']
  | .l => ['l']
  | .ll => ['l', 'l']

def Conversion.char : Conversion → Char
  | .d => 'd'
  | .i => 'i'
  | .u => 'u'
  | .x => 'x'
  | .X => 'X'
  | .o => 'o'
  | .c => 'c'
  | .s => 's'
  | .percent => '%'

-- The length is that of an integer.
def Directive.LengthOfInteger (directive : Directive) : Prop :=
  directive.length = .none ∨ directive.conversion ∈ [.d, .i, .u, .x, .X, .o]

instance (directive : Directive) : Decidable directive.LengthOfInteger :=
  inferInstanceAs (Decidable (_ ∨ _))

-- What stands behind the percent sign.
def Directive.text (directive : Directive) : Text :=
  directive.flags.map Flag.char ++ (directive.width.text ++
    (directive.length.text ++ [directive.conversion.char]))

def Piece.text : Piece → Text
  | .literal char _ => [char]
  | .directive one => '%' :: one.text

def Format.text (format : Format) : Text := format.flatMap Piece.text

end Format

section Args

inductive Arg where
  | int (value : BitVec 32)
  | long (value : BitVec 64)
  | longLong (value : BitVec 64)
  | string (text : Text) (noNul : '\x00' ∉ text)
  | wideString (text : List (BitVec 32)) (noNul : 0 ∉ text)
  | pointer (address : BitVec 64)

-- The number of a signed conversion; `none` where the argument has another type.
def Length.signed : Length → Arg → Option ℤ
  | .none, .int value => some value.toInt
  | .h, .int value => some (value.setWidth 16).toInt
  | .l, .long value => some value.toInt
  | .ll, .longLong value => some value.toInt
  | _, _ => Option.none

def Length.unsigned : Length → Arg → Option ℕ
  | .none, .int value => some value.toNat
  | .h, .int value => some (value.setWidth 16).toNat
  | .l, .long value => some value.toNat
  | .ll, .longLong value => some value.toNat
  | _, _ => Option.none

-- In the locale a program starts in, only these wide characters have a byte of their own.
def wcrtomb (wide : BitVec 32) : Option Char :=
  if wide.toNat < 128 then some (Char.ofNat wide.toNat) else Option.none

def Length.character : Length → Arg → Option Text
  | .none, .int value => some [Char.ofNat (value.toNat % 256)]
  | .l, .int value => if value = 0 then some [] else (wcrtomb value).map ([·])
  | _, _ => Option.none

def Length.string : Length → Arg → Option Text
  | .none, .string text _ => some text
  | .l, .wideString text _ => text.mapM wcrtomb
  | _, _ => Option.none

end Args

section Print

def signText (flags : List Flag) (value : ℤ) : Text :=
  if value < 0 then ['-']
  else if .plus ∈ flags then ['+']
  else if .space ∈ flags then [' ']
  else []

-- The zeros stand between the sign and the digits, the blanks on one side of both.
def field (flags : List Flag) (width : ℕ) (sign text : Text) : Text :=
  let count := width - (sign.length + text.length)
  if .minus ∈ flags then sign ++ text ++ List.replicate count ' '
  else if .zero ∈ flags then sign ++ List.replicate count '0' ++ text
  else List.replicate count ' ' ++ sign ++ text

-- `none` where the behaviour is undefined.
def Directive.print (directive : Directive) (flags : List Flag) (width : ℕ) (arg : Arg) :
    Option Text :=
  match directive.conversion with
  | .d | .i => (directive.length.signed arg).map fun value =>
      field flags width (signText flags value) (Nat.toDigits 10 value.natAbs)
  | .u => (directive.length.unsigned arg).map fun value =>
      field flags width [] (Nat.toDigits 10 value)
  | .x => (directive.length.unsigned arg).map fun value =>
      field flags width [] (Nat.toDigits 16 value)
  | .X => (directive.length.unsigned arg).map fun value =>
      field flags width [] ((Nat.toDigits 16 value).map Char.toUpper)
  | .o => (directive.length.unsigned arg).map fun value =>
      field flags width [] (Nat.toDigits 8 value)
  | .c =>
      if .zero ∈ flags then none
      else (directive.length.character arg).map (field flags width [])
  | .s =>
      if .zero ∈ flags then none
      else (directive.length.string arg).map (field flags width [])
  | .percent => none

-- A negative width that is an argument is a flag and a width.
def Directive.starred (directive : Directive) (args : List Arg) :
    Option (List Flag × ℕ × List Arg) :=
  match directive.width, args with
  | .unspecified, args => some (directive.flags, 0, args)
  | .number n _, args => some (directive.flags, n, args)
  | .star, .int value :: args =>
      some (if value.toInt < 0 then .minus :: directive.flags else directive.flags,
        value.toInt.natAbs, args)
  | .star, _ => none

def Directive.printf (directive : Directive) (args : List Arg) : Option (Text × List Arg) :=
  if directive.conversion = .percent then
    if directive = ⟨[], .unspecified, .none, .percent⟩ then some (['%'], args) else none
  else
    match directive.starred args with
    | some (flags, width, arg :: args) =>
        (directive.print flags width arg).map fun text => (text, args)
    | _ => none

def printf : Format → List Arg → Option Text
  | [], _ => some []
  | .literal char _ :: format, args => (printf format args).map (char :: ·)
  | .directive directive :: format, args => do
      let (text, args) ← directive.printf args
      let rest ← printf format args
      return text ++ rest

theorem width_le_length_field (flags : List Flag) (width : ℕ) (sign text : Text) :
    width ≤ (field flags width sign text).length := by
  unfold field
  split_ifs <;> simp only [List.length_append, List.length_replicate] <;> omega

-- A text that is printed fills its field.
theorem Directive.width_le_length {directive : Directive} {flags : List Flag} {width : ℕ}
    {arg : Arg} {text : Text} (h : directive.print flags width arg = some text) :
    width ≤ text.length := by
  have hfield : ∃ sign rest, text = field flags width sign rest := by
    unfold Directive.print at h
    split at h
    case h_7 | h_8 =>
      split_ifs at h
      obtain ⟨rest, -, rfl⟩ := Option.map_eq_some_iff.mp h
      exact ⟨[], rest, rfl⟩
    case h_9 => cases h
    all_goals
      obtain ⟨value, -, rfl⟩ := Option.map_eq_some_iff.mp h
      exact ⟨_, _, rfl⟩
  obtain ⟨sign, rest, rfl⟩ := hfield
  exact width_le_length_field flags width sign rest

end Print

end Gopher.Lib.Printf
