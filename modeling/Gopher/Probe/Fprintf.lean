import Gopher.Lib.CharBuffer
import Gopher.Lib.Printf
import Gopher.Probe.Extend
import Mathlib.Algebra.Group.Int.Defs
import Mathlib.Algebra.Group.Nat.Defs

namespace Gopher.Probe.Fprintf

open Gopher.Lib
open Gopher.Lib.Printf (Arg)
open Gopher.Probe.Extend (MAX_DATA_STR_LEN)

section Number

-- The bits of `flags` and `type`.
structure Flags where
  zeropad : Bool := false
  sign : Bool := false
  plus : Bool := false
  space : Bool := false
  left : Bool := false
  small : Bool := false
  special : Bool := false
  deriving DecidableEq

-- `digits[res] | locase`
def digit (small : Bool) (res : ℕ) : Char :=
  let char := "0123456789ABCDEF".toList.getD res '\x00'
  if small then Char.ofNat (char.toNat ||| 0x20) else char

-- The digits of a number that is not 0, from the last one on; `none` is a store behind `tmp`.
def tmpDigits (base : ℕ) (small : Bool) : (room num : ℕ) → Option Text
  | room, num =>
    if num = 0 then some []
    else
      match room with
      | 0 => none
      | room + 1 => (tmpDigits base small room (num / base)).map (digit small (num % base) :: ·)

-- `while (size-- > 0)`: the characters that are stored, and the size behind the loop.
def pad (c : Char) (size : ℤ) : Text × ℤ := (List.replicate size.toNat c, min size 0 - 1)

-- The sign, the number without it and the size that is left. The least number is its own
-- negative.
def takeSign (num : BitVec 64) (size : ℤ) (type : Flags) : Text × BitVec 64 × ℤ :=
  if type.sign then
    if num.toInt < 0 then (['-'], -num, size - 1)
    else if type.plus then (['+'], num, size - 1)
    else if type.space then ([' '], num, size - 1)
    else ([], num, size)
  else ([], num, size)

-- What is stored behind `str`.
def number (num : BitVec 64) (base : ℕ) (size precision : ℤ) (type : Flags) : Option Text :=
  if base < 2 ∨ 16 < base then none
  else
    let zeropad := type.zeropad && !type.left
    let c := if zeropad then '0' else ' '
    let (sign, num, size) := takeSign num size type
    let size :=
      if type.special then
        if base = 16 then size - 2 else if base = 8 then size - 1 else size
      else size
    (if num = 0 then some ['0'] else tmpDigits base type.small 66 num.toNat).map fun tmp =>
      let i : ℤ := tmp.length
      let precision := max precision i
      let size := size - precision
      let (front, size) := if !zeropad && !type.left then pad ' ' size else ([], size)
      let special :=
        if type.special then
          if base = 8 then ['0']
          else if base = 16 then ['0', if type.small then 'x' else 'X']
          else []
        else []
      let (middle, size) := if !type.left then pad c size else ([], size)
      let zeros := List.replicate (precision - i).toNat '0'
      let (back, _) := pad ' ' size
      front ++ sign ++ special ++ middle ++ zeros ++ tmp.reverse ++ back

end Number

section Directive

inductive Qualifier where
  | none
  | h
  | l
  | L
  | q
  deriving DecidableEq

structure Spec where
  flags : Flags
  fieldWidth : ℤ
  precision : ℤ
  qualifier : Qualifier
  deriving DecidableEq

def readFlags : Text → Flags → Flags × Text
  | '-' :: curFormat, flags => readFlags curFormat { flags with left := true }
  | '+' :: curFormat, flags => readFlags curFormat { flags with plus := true }
  | ' ' :: curFormat, flags => readFlags curFormat { flags with space := true }
  | '#' :: curFormat, flags => readFlags curFormat { flags with special := true }
  | '0' :: curFormat, flags => readFlags curFormat { flags with zeropad := true }
  | curFormat, flags => (flags, curFormat)

-- `none` is an `int` that overflows.
def skipAtoi : Text → (i : ℕ) → Option (ℕ × Text)
  | [], i => some (i, [])
  | c :: s, i =>
      if c.isDigit then
        if 2 ^ 31 ≤ 10 * i + (c.toNat - '0'.toNat) then none
        else skipAtoi s (10 * i + (c.toNat - '0'.toNat))
      else some (i, c :: s)

def vaInt : List Arg → Option (BitVec 32 × List Arg)
  | .int value :: args => some (value, args)
  | _ => none

def readFieldWidth (curFormat : Text) (args : List Arg) (flags : Flags) :
    Option (ℤ × Flags × Text × List Arg) :=
  match curFormat with
  | '*' :: curFormat => do
      let (value, args) ← vaInt args
      if value.toInt = -2 ^ 31 then none
      else if value.toInt < 0 then
        some (-value.toInt, { flags with left := true }, curFormat, args)
      else some (value.toInt, flags, curFormat, args)
  | c :: _ =>
      if c.isDigit then
        (skipAtoi curFormat 0).map fun (width, curFormat) => (width, flags, curFormat, args)
      else some (-1, flags, curFormat, args)
  | [] => some (-1, flags, [], args)

def readPrecision (curFormat : Text) (args : List Arg) : Option (ℤ × Text × List Arg) :=
  match curFormat with
  | '.' :: '*' :: curFormat =>
      (vaInt args).map fun (value, args) => (max value.toInt 0, curFormat, args)
  | '.' :: curFormat =>
      (skipAtoi curFormat 0).map fun (precision, curFormat) => (precision, curFormat, args)
  | curFormat => some (-1, curFormat, args)

def readQualifier : Text → Qualifier × Text
  | 'l' :: 'l' :: curFormat => (.q, curFormat)
  | 'h' :: curFormat => (.h, curFormat)
  | 'l' :: curFormat => (.l, curFormat)
  | 'L' :: curFormat => (.L, curFormat)
  | curFormat => (.none, curFormat)

def readSpec (curFormat : Text) (args : List Arg) : Option (Spec × Text × List Arg) := do
  let (flags, curFormat) := readFlags curFormat {}
  let (fieldWidth, flags, curFormat, args) ← readFieldWidth curFormat args flags
  let (precision, curFormat, args) ← readPrecision curFormat args
  let (qualifier, curFormat) := readQualifier curFormat
  return (⟨flags, fieldWidth, precision, qualifier⟩, curFormat, args)

-- `none` is an argument of another type.
def vaNumber (qualifier : Qualifier) (sign : Bool) : List Arg → Option (BitVec 64 × List Arg)
  | .long value :: args => if qualifier = .l then some (value, args) else none
  | .longLong value :: args => if qualifier = .q then some (value, args) else none
  | .int value :: args =>
      match qualifier with
      | .l | .q => none
      | .h =>
          let num := value.setWidth 16
          some (if sign then num.signExtend 64 else num.setWidth 64, args)
      | _ => some (if sign then value.signExtend 64 else value.setWidth 64, args)
  | _ => none

-- The bytes of a wide character in memory.
def wideBytes (wide : BitVec 32) : Text :=
  [0, 8, 16, 24].map fun shift => Char.ofNat ((wide >>> shift).toNat % 256)

-- The string at an address that is an argument, whatever stands there.
def vaString : List Arg → Option (Text × List Arg)
  | .string text _ :: args => some (text, args)
  | .wideString text _ :: args =>
      some ((text.flatMap wideBytes).takeWhile (· ≠ '\x00'), args)
  | _ => none

-- Both loops `while (--field_width > 0)`, around the character.
def putChar (spec : Spec) (c : Char) : Text :=
  let (front, fieldWidth) :=
    if !spec.flags.left then
      (List.replicate (spec.fieldWidth - 1).toNat ' ', min (spec.fieldWidth - 1) 0)
    else ([], spec.fieldWidth)
  front ++ [c] ++ List.replicate (fieldWidth - 1).toNat ' '

-- Both loops `while (len < field_width--)`, around the string.
def putString (spec : Spec) (s : Text) : Text :=
  let s := if spec.precision < 0 then s else s.take spec.precision.toNat
  let (front, fieldWidth) :=
    if !spec.flags.left then
      (List.replicate (spec.fieldWidth - s.length).toNat ' ', min spec.fieldWidth s.length - 1)
    else ([], spec.fieldWidth)
  front ++ s ++ List.replicate (fieldWidth - s.length).toNat ' '

def putNumber (spec : Spec) (base : ℕ) (sign small : Bool) (args : List Arg) :
    Option (Text × List Arg) := do
  let flags := { spec.flags with sign, small }
  let (num, args) ← vaNumber spec.qualifier sign args
  let text ← number num base spec.fieldWidth spec.precision flags
  return (text, args)

def putPointer (spec : Spec) : List Arg → Option (Text × List Arg)
  | .pointer address :: args =>
      let (fieldWidth, flags) :=
        if spec.fieldWidth = -1 then (16, { spec.flags with zeropad := true })
        else (spec.fieldWidth, spec.flags)
      (number address 16 fieldWidth spec.precision flags).map fun text => (text, args)
  | _ => none

-- `%f` and `%n` are left out.
def convert (spec : Spec) (curFormat : Text) (args : List Arg) :
    Option (Text × Text × List Arg) :=
  match curFormat with
  | 'c' :: curFormat => (vaInt args).map fun (value, args) =>
      (putChar spec (Char.ofNat (value.toNat % 256)), curFormat, args)
  | 's' :: curFormat => (vaString args).map fun (s, args) => (putString spec s, curFormat, args)
  | 'f' :: _ => none
  | 'n' :: _ => none
  | 'p' :: curFormat => (putPointer spec args).map fun (text, args) => (text, curFormat, args)
  | '%' :: curFormat => some (['%'], curFormat, args)
  | 'o' :: curFormat => (putNumber spec 8 false false args).map fun (text, args) =>
      (text, curFormat, args)
  | 'x' :: curFormat => (putNumber spec 16 false true args).map fun (text, args) =>
      (text, curFormat, args)
  | 'X' :: curFormat => (putNumber spec 16 false false args).map fun (text, args) =>
      (text, curFormat, args)
  | 'd' :: curFormat => (putNumber spec 10 true false args).map fun (text, args) =>
      (text, curFormat, args)
  | 'i' :: curFormat => (putNumber spec 10 true false args).map fun (text, args) =>
      (text, curFormat, args)
  | 'u' :: curFormat => (putNumber spec 10 false false args).map fun (text, args) =>
      (text, curFormat, args)
  | c :: curFormat => some (['%', c], curFormat, args)
  | [] => some (['%'], [], args)

end Directive

section Fprintf

-- The loop over the format.
def printFormat : (bound : ℕ) → (curFormat : Text) → List Arg → Option Text
  | _, [], _ => some []
  | 0, _, _ => none
  | bound + 1, c :: curFormat, args =>
      if c ≠ '%' then (printFormat bound curFormat args).map (c :: ·)
      else do
        let (spec, curFormat, args) ← readSpec curFormat args
        let (text, curFormat, args) ← convert spec curFormat args
        let rest ← printFormat bound curFormat args
        return text ++ rest

-- What is put into the fifo; `none` is a store behind the array.
def nprobeFprintf (curFormat : Text) (args : List Arg) : Option CharBuffer := do
  let text ← printFormat curFormat.length curFormat args
  if text.length < MAX_DATA_STR_LEN then
    return text ++ List.replicate (MAX_DATA_STR_LEN - text.length) '\x00'
  else none

end Fprintf

end Gopher.Probe.Fprintf
