import Gopher.Lib.Json.Number
import Gopher.Probe.Fprintf

namespace Gopher.Probe.Fprintf

open Gopher.Lib
open Gopher.Lib.Printf (Arg Flag Width Length Conversion Directive Piece Format field signText)
open Gopher.Probe.Extend (MAX_DATA_STR_LEN)

section Digits

variable {base : ℕ} {small : Bool} {f : Char → Char}

-- The loop takes the digits off at the end.
theorem tmpDigits_eq (hbase : 1 < base)
    (hdigit : ∀ res, res < base → digit small res = f (Nat.digitChar res)) {room num : ℕ}
    (hnum : num ≠ 0) (hroom : num < base ^ room) :
    tmpDigits base small room num = some ((Nat.toDigits base num).map f).reverse := by
  induction room generalizing num with
  | zero =>
      rw [Nat.pow_zero] at hroom
      omega
  | succ room ih =>
      have hlast := hdigit (num % base) (Nat.mod_lt num (by omega))
      rw [tmpDigits, if_neg hnum, hlast, Nat.toDigits_eq_if hbase]
      split
      case isTrue hlt =>
        have hnone : tmpDigits base small room 0 = some [] := by
          unfold tmpDigits
          rw [if_pos rfl]
        rw [Nat.div_eq_of_lt hlt, Nat.mod_eq_of_lt hlt, hnone]
        rfl
      case isFalse hle =>
        have hdiv : num / base ≠ 0 := by
          rw [ne_eq, Nat.div_eq_zero_iff]
          omega
        rw [ih hdiv (Nat.div_lt_of_lt_mul (by rwa [← Nat.pow_succ'])), Option.map_some,
          List.map_append, List.reverse_append]
        rfl

theorem digit_decimal {res : ℕ} (h : res < 10) : digit small res = Nat.digitChar res := by
  revert small res
  decide

theorem digit_small {res : ℕ} (h : res < 16) : digit true res = Nat.digitChar res := by
  revert res
  decide

theorem digit_large {res : ℕ} (h : res < 16) :
    digit false res = (Nat.digitChar res).toUpper := by
  revert res
  decide

end Digits

section Number

-- What `__number` is given by the flags of a directive.
def fieldOf (type : Flags) (width : ℕ) (sign text : Text) : Text :=
  let count := width - (sign.length + text.length)
  if type.left then sign ++ text ++ List.replicate count ' '
  else if type.zeropad then sign ++ List.replicate count '0' ++ text
  else List.replicate count ' ' ++ sign ++ text

theorem takeSign_size (num : BitVec 64) (size : ℤ) (type : Flags) :
    (takeSign num size type).2.2 = size - (takeSign num size type).1.length := by
  unfold takeSign
  split_ifs <;> simp

theorem tmp_eq {num : BitVec 64} {base : ℕ} {small : Bool} {f : Char → Char}
    (hbase : base = 8 ∨ base = 10 ∨ base = 16)
    (hdigit : ∀ res, res < base → digit small res = f (Nat.digitChar res)) :
    (if num = 0 then some ['0'] else tmpDigits base small 66 num.toNat) =
      some ((Nat.toDigits base num.toNat).map f).reverse := by
  split
  case isTrue hzero =>
    have hfirst := hdigit 0 (by omega)
    have hdigits : Nat.toDigits base 0 = ['0'] := Nat.toDigits_zero base
    have hchar : digit small 0 = '0' := by cases small <;> decide
    have hnat : num.toNat = 0 := by rw [hzero]; rfl
    have hkept : f '0' = '0' := hfirst.symm.trans hchar
    rw [hnat, hdigits, List.map_singleton, hkept, List.reverse_singleton]
  case isFalse hne =>
    have hlarge : (2 : ℕ) ^ 64 ≤ base ^ 66 := by
      have hpow := Nat.pow_le_pow_left (show 8 ≤ base by omega) 66
      omega
    have hlt := num.isLt
    refine tmpDigits_eq (by omega) hdigit ?_ (by omega)
    intro hnat
    exact hne (BitVec.eq_of_toNat_eq hnat)

theorem number_eq {num : BitVec 64} {base : ℕ} {size : ℤ} {type : Flags} {f : Char → Char}
    (hbase : base = 8 ∨ base = 10 ∨ base = 16) (hspecial : type.special = false)
    (hdigit : ∀ res, res < base → digit type.small res = f (Nat.digitChar res)) :
    number num base size (-1) type = some (fieldOf type size.toNat (takeSign num size type).1
      ((Nat.toDigits base (takeSign num size type).2.1.toNat).map f)) := by
  have hrange : ¬(base < 2 ∨ 16 < base) := by omega
  have hsize := takeSign_size num size type
  generalize htaken : takeSign num size type = taken at *
  obtain ⟨sign, rest, left⟩ := taken
  dsimp only at hsize ⊢
  have htmp := @tmp_eq rest base type.small f hbase hdigit
  rw [number, if_neg hrange, htaken, hspecial]
  dsimp only
  rw [htmp, Option.map_some, fieldOf]
  generalize (Nat.toDigits base rest.toNat).map f = text
  have hmax : max (-1) (text.length : ℤ) = text.length := by omega
  have hcount : (left - (text.length : ℤ)).toNat = size.toNat - (sign.length + text.length) := by
    omega
  simp only [List.length_reverse, hmax, ← hcount, Int.sub_self, Bool.false_eq_true, if_false]
  generalize left - (text.length : ℤ) = count
  cases hleft : type.left with
  | true => simp [pad]
  | false =>
      -- the loops behind the first one find the size below 0
      have hdone : (min count 0 - 1).toNat = 0 ∧ (min (min count 0 - 1) 0 - 1).toNat = 0 := by
        omega
      cases hzeropad : type.zeropad with
      | true => simp [pad, hdone]
      | false => simp [pad, hdone]

end Number

section Reading

-- The characters of flags, behind those that were there.
def withFlags (start : Flags) (flags : List Flag) : Flags :=
  { start with
    zeropad := start.zeropad || decide (.zero ∈ flags)
    plus := start.plus || decide (.plus ∈ flags)
    space := start.space || decide (.space ∈ flags)
    left := start.left || decide (.minus ∈ flags) }

def IsFlag (c : Char) : Prop := c ∈ ['-', '+', ' ', '#', '0']

theorem readFlags_of_head {curFormat : Text} (hhead : ∀ c ∈ curFormat.head?, ¬ IsFlag c)
    (start : Flags) : readFlags curFormat start = (start, curFormat) := by
  unfold readFlags
  split <;> first
    | rfl
    | exact absurd (hhead _ rfl) (by simp [IsFlag])

theorem readFlags_append {flags : List Flag} {rest : Text}
    (hhead : ∀ c ∈ rest.head?, ¬ IsFlag c) (start : Flags) :
    readFlags (flags.map Flag.char ++ rest) start = (withFlags start flags, rest) := by
  induction flags generalizing start with
  | nil => simp [readFlags_of_head hhead, withFlags]
  | cons flag flags ih =>
      rw [List.map_cons, List.cons_append]
      cases flag <;> rw [Flag.char, readFlags, ih] <;> simp [withFlags]

theorem skipAtoi_append {digits rest : Text} (hdigits : ∀ c ∈ digits, c.isDigit = true)
    (hhead : ∀ c ∈ rest.head?, c.isDigit = false) {i : ℕ}
    (hfits : Nat.ofDigitChars 10 digits i < 2 ^ 31) :
    skipAtoi (digits ++ rest) i = some (Nat.ofDigitChars 10 digits i, rest) := by
  induction digits generalizing i with
  | nil =>
      cases rest with
      | nil => rfl
      | cons c rest =>
          rw [List.nil_append, skipAtoi, if_neg (by simp [hhead c rfl]), Nat.ofDigitChars_nil]
  | cons c digits ih =>
      rw [List.forall_mem_cons] at hdigits
      rw [Nat.ofDigitChars_cons] at hfits ⊢
      have hle : 10 * i + (c.toNat - '0'.toNat) ≤
          Nat.ofDigitChars 10 digits (10 * i + (c.toNat - '0'.toNat)) := by
        rw [Nat.ofDigitChars_eq_ofDigitChars_zero]
        have hpos : 1 ≤ 10 ^ digits.length := Nat.one_le_pow _ _ (by decide)
        have hmul := Nat.mul_le_mul_right (10 * i + (c.toNat - '0'.toNat)) hpos
        omega
      rw [List.cons_append, skipAtoi, if_pos hdigits.1, if_neg (by omega), ih hdigits.2 hfits]

-- What stands behind the width.
def tail (length : Length) (conversion : Conversion) (rest : Text) : Text :=
  length.text ++ conversion.char :: rest

theorem head?_tail (length : Length) (conversion : Conversion) (rest : Text) :
    ∃ c more, tail length conversion rest = c :: more ∧ c.isDigit = false ∧ ¬ IsFlag c ∧
      c ≠ '*' ∧ c ≠ '.' := by
  cases length
  case none =>
    cases conversion <;>
      exact ⟨_, rest, rfl, by decide, by unfold IsFlag; decide, by decide, by decide⟩
  all_goals exact ⟨_, _, rfl, by decide, by unfold IsFlag; decide, by decide, by decide⟩

def qualifierOf : Length → Qualifier
  | .none => .none
  | .h => .h
  | .l => .l
  | .ll => .q

theorem readQualifier_tail (length : Length) (conversion : Conversion) (rest : Text) :
    readQualifier (tail length conversion rest) =
      (qualifierOf length, conversion.char :: rest) := by
  cases length <;> cases conversion <;> rfl

theorem exists_digit (n : ℕ) (hpos : 0 < n) : ∃ c more, Nat.toDigits 10 n = c :: more ∧
    c.isDigit = true ∧ ¬ IsFlag c ∧ c ≠ '*' := by
  obtain ⟨c, more, hdigits⟩ := List.exists_cons_of_ne_nil (Nat.toDigits_ne_nil (n := n) (b := 10))
  have hdigit : c.isDigit = true :=
    Nat.isDigit_of_mem_toDigits (n := n) (b := 10) (by decide) (by decide) (by simp [hdigits])
  have hzero := JsonDoc.head?_toDigits (show n ≠ 0 by omega)
  rw [hdigits, List.head?_cons, ne_eq, Option.some.injEq] at hzero
  refine ⟨c, more, hdigits, hdigit, ?_, ?_⟩
  · intro hflag
    simp only [IsFlag, List.mem_cons, List.not_mem_nil, or_false] at hflag
    obtain rfl | rfl | rfl | rfl | rfl := hflag
    case inr.inr.inr.inr => exact hzero rfl
    all_goals revert hdigit; decide
  · rintro rfl
    revert hdigit
    decide

variable {directive : Directive} {args left : List Arg} {flags : List Flag} {width : ℕ}

theorem head?_width (width : Width) (length : Length) (conversion : Conversion) (rest : Text) :
    ∀ c ∈ (width.text ++ tail length conversion rest).head?, ¬ IsFlag c := by
  intro c hc
  cases width with
  | unspecified =>
      obtain ⟨first, more, htail, -, hflag, -⟩ := head?_tail length conversion rest
      rw [Width.text, List.nil_append, htail] at hc
      cases hc
      exact hflag
  | number n hpos =>
      obtain ⟨first, more, hdigits, -, hflag, -⟩ := exists_digit n hpos
      rw [Width.text, hdigits] at hc
      cases hc
      exact hflag
  | star =>
      cases hc
      unfold IsFlag
      decide

-- An `int` that is not the least one can be negated.
theorem readFieldWidth_star {value : BitVec 32} (hvalue : value.toInt.natAbs < 2 ^ 31)
    (curFormat : Text) (args : List Arg) (start : Flags) :
    readFieldWidth ('*' :: curFormat) (.int value :: args) start =
      some ((value.toInt.natAbs : ℤ),
        if value.toInt < 0 then { start with left := true } else start, curFormat, args) := by
  have hleast : value.toInt ≠ -2 ^ 31 := by omega
  unfold readFieldWidth vaInt
  simp only [Option.bind_eq_bind, Option.bind_some, if_neg hleast]
  split
  case isTrue hneg =>
    have habs : -value.toInt = value.toInt.natAbs := by omega
    rw [habs]
  case isFalse hneg =>
    have habs : value.toInt = value.toInt.natAbs := by omega
    rw [← habs]

theorem readFieldWidth_eq (hstarred : directive.starred args = some (flags, width, left))
    (hwidth : width < 2 ^ 31) (rest : Text) :
    ∃ fieldWidth : ℤ, fieldWidth.toNat = width ∧
      readFieldWidth (directive.width.text ++ tail directive.length directive.conversion rest) args
        (withFlags {} directive.flags) =
        some (fieldWidth, withFlags {} flags, tail directive.length directive.conversion rest,
          left) := by
  obtain ⟨c, more, htail, hdigit, -, hstar, -⟩ :=
    head?_tail directive.length directive.conversion rest
  unfold Directive.starred at hstarred
  split at hstarred
  case h_1 hunspecified =>
    cases hstarred
    refine ⟨-1, rfl, ?_⟩
    rw [hunspecified, Width.text, List.nil_append, htail, readFieldWidth]
    · rw [if_neg (by simp [hdigit])]
    · exact hstar
  case h_2 hpos hnumber =>
    cases hstarred
    refine ⟨width, Int.toNat_natCast width, ?_⟩
    obtain ⟨first, digits, hdigits, hfirst, -, hfirstStar⟩ := exists_digit width hpos
    have hall : ∀ c ∈ Nat.toDigits 10 width, c.isDigit = true := fun c hc =>
      Nat.isDigit_of_mem_toDigits (by decide) (by decide) hc
    have hskip := @skipAtoi_append _ (tail directive.length directive.conversion rest) hall
      (by simp [htail, hdigit]) 0 (by simpa using hwidth)
    rw [Nat.ofDigitChars_ten_toDigits] at hskip
    rw [hnumber, Width.text]
    rw [hdigits, List.cons_append] at hskip ⊢
    rw [readFieldWidth]
    · rw [if_pos hfirst, hskip]
      rfl
    · exact hfirstStar
  case h_3 value args hwidthStar =>
    cases hstarred
    refine ⟨(value.toInt.natAbs : ℤ), Int.toNat_natCast _, ?_⟩
    rw [hwidthStar, Width.text, List.singleton_append, readFieldWidth_star hwidth]
    split <;> simp [withFlags]
  case h_4 => cases hstarred

theorem readPrecision_tail (length : Length) (conversion : Conversion) (rest : Text)
    (args : List Arg) :
    readPrecision (tail length conversion rest) args =
      some (-1, tail length conversion rest, args) := by
  obtain ⟨c, more, htail, -, -, -, hdot⟩ := head?_tail length conversion rest
  rw [htail, readPrecision]
  · exact fun _ heq => hdot (List.cons.inj heq).1
  · exact fun _ heq => hdot (List.cons.inj heq).1

-- The directive is read up to its conversion.
theorem readSpec_eq (hstarred : directive.starred args = some (flags, width, left))
    (hwidth : width < 2 ^ 31) (rest : Text) :
    ∃ fieldWidth : ℤ, fieldWidth.toNat = width ∧
      readSpec (directive.text ++ rest) args =
        some (⟨withFlags {} flags, fieldWidth, -1, qualifierOf directive.length⟩,
          directive.conversion.char :: rest, left) := by
  obtain ⟨fieldWidth, hfield, hread⟩ := readFieldWidth_eq hstarred hwidth rest
  refine ⟨fieldWidth, hfield, ?_⟩
  have htext : directive.text ++ rest = directive.flags.map Flag.char ++
      (directive.width.text ++ tail directive.length directive.conversion rest) := by
    simp [Directive.text, tail]
  rw [readSpec, htext, readFlags_append (head?_width _ _ _ _)]
  dsimp only
  rw [hread, Option.bind_eq_bind, Option.bind_some]
  dsimp only
  rw [readPrecision_tail, Option.bind_eq_bind, Option.bind_some]
  dsimp only
  rw [readQualifier_tail]
  rfl

end Reading

section Conversions

variable {flags : List Flag} {width : ℕ} {fieldWidth : ℤ} {arg : Arg} {args : List Arg}
  {length : Length}

-- The bits that `__number` is called with.
def typeOf (flags : List Flag) (sign small : Bool) : Flags :=
  { withFlags {} flags with sign, small }

theorem fieldOf_typeOf (sign small : Bool) (signPart text : Text) :
    fieldOf (typeOf flags sign small) width signPart text = field flags width signPart text := by
  simp [fieldOf, field, typeOf, withFlags]

theorem toNat_neg {num : BitVec 64} (hneg : num.toInt < 0) : (-num).toNat = num.toInt.natAbs := by
  have hlt := num.isLt
  rw [BitVec.toInt_eq_toNat_cond] at hneg ⊢
  rw [BitVec.toNat_neg]
  split at hneg
  case isTrue => omega
  case isFalse hlarge =>
    rw [if_neg hlarge]
    omega

theorem toNat_of_nonneg {num : BitVec 64} (hneg : ¬ num.toInt < 0) :
    num.toNat = num.toInt.natAbs := by
  have hlt := num.isLt
  rw [BitVec.toInt_eq_toNat_cond] at hneg ⊢
  split at hneg
  case isTrue hsmall =>
    rw [if_pos hsmall]
    omega
  case isFalse => omega

theorem takeSign_signed (num : BitVec 64) (size : ℤ) (small : Bool) :
    (takeSign num size (typeOf flags true small)).1 = signText flags num.toInt ∧
      (takeSign num size (typeOf flags true small)).2.1.toNat = num.toInt.natAbs := by
  have hsign : (typeOf flags true small).sign = true := rfl
  rw [takeSign, if_pos hsign, signText]
  by_cases hneg : num.toInt < 0
  · rw [if_pos hneg, if_pos hneg]
    exact ⟨rfl, toNat_neg hneg⟩
  · rw [if_neg hneg, if_neg hneg, ← toNat_of_nonneg hneg]
    by_cases hplus : Flag.plus ∈ flags
    · simp [hplus, typeOf, withFlags]
    · by_cases hspace : Flag.space ∈ flags
      · simp [hplus, hspace, typeOf, withFlags]
      · simp [hplus, hspace, typeOf, withFlags]

theorem vaNumber_signed {value : ℤ} (h : length.signed arg = some value) (args : List Arg) :
    ∃ num, vaNumber (qualifierOf length) true (arg :: args) = some (num, args) ∧
      num.toInt = value := by
  unfold Length.signed at h
  split at h <;> cases h
  case h_1 value => exact ⟨_, rfl, BitVec.toInt_signExtend_of_le (by decide)⟩
  case h_2 value => exact ⟨_, rfl, BitVec.toInt_signExtend_of_le (by decide)⟩
  case h_3 value => exact ⟨value, rfl, rfl⟩
  case h_4 value => exact ⟨value, rfl, rfl⟩

theorem vaNumber_unsigned {value : ℕ} (h : length.unsigned arg = some value) (args : List Arg) :
    ∃ num, vaNumber (qualifierOf length) false (arg :: args) = some (num, args) ∧
      num.toNat = value := by
  unfold Length.unsigned at h
  split at h <;> cases h
  case h_1 value => exact ⟨_, rfl, BitVec.toNat_setWidth_of_le (by decide)⟩
  case h_2 value => exact ⟨_, rfl, BitVec.toNat_setWidth_of_le (by decide)⟩
  case h_3 value => exact ⟨value, rfl, rfl⟩
  case h_4 value => exact ⟨value, rfl, rfl⟩

theorem putNumber_of_number {base : ℕ} {sign small : Bool} {num : BitVec 64} {text : Text}
    {args left : List Arg} (hva : vaNumber (qualifierOf length) sign args = some (num, left))
    (hnumber : number num base fieldWidth (-1) (typeOf flags sign small) = some text) :
    putNumber ⟨withFlags {} flags, fieldWidth, -1, qualifierOf length⟩ base sign small args =
      some (text, left) := by
  rw [typeOf] at hnumber
  rw [putNumber, hva, Option.bind_eq_bind, Option.bind_some]
  dsimp only at hnumber ⊢
  rw [hnumber]
  rfl

theorem putNumber_signed {value : ℤ} (hvalue : length.signed arg = some value)
    (hwidth : fieldWidth.toNat = width) (args : List Arg) :
    putNumber ⟨withFlags {} flags, fieldWidth, -1, qualifierOf length⟩ 10 true false
        (arg :: args) =
      some (field flags width (signText flags value) (Nat.toDigits 10 value.natAbs), args) := by
  obtain ⟨num, hva, rfl⟩ := vaNumber_signed hvalue args
  obtain ⟨hsign, hnat⟩ := @takeSign_signed flags num fieldWidth false
  have hnumber := @number_eq num 10 fieldWidth (typeOf flags true false) id (by omega) rfl
    (fun res hres => digit_decimal hres)
  rw [hsign, hnat, List.map_id, hwidth, fieldOf_typeOf] at hnumber
  exact putNumber_of_number hva hnumber

theorem putNumber_unsigned {value base : ℕ} {small : Bool} {f : Char → Char}
    (hvalue : length.unsigned arg = some value) (hwidth : fieldWidth.toNat = width)
    (hbase : base = 8 ∨ base = 10 ∨ base = 16)
    (hdigit : ∀ res, res < base → digit small res = f (Nat.digitChar res)) (args : List Arg) :
    putNumber ⟨withFlags {} flags, fieldWidth, -1, qualifierOf length⟩ base false small
        (arg :: args) =
      some (field flags width [] ((Nat.toDigits base value).map f), args) := by
  obtain ⟨num, hva, rfl⟩ := vaNumber_unsigned hvalue args
  have hsign : takeSign num fieldWidth (typeOf flags false small) = ([], num, fieldWidth) := rfl
  have hnumber := @number_eq num base fieldWidth (typeOf flags false small) f hbase rfl hdigit
  rw [hsign, hwidth, fieldOf_typeOf] at hnumber
  exact putNumber_of_number hva hnumber

theorem putChar_eq (hzero : Flag.zero ∉ flags) (hwidth : fieldWidth.toNat = width)
    (qualifier : Qualifier) (c : Char) :
    putChar ⟨withFlags {} flags, fieldWidth, -1, qualifier⟩ c = field flags width [] [c] := by
  have hcount : (fieldWidth - 1).toNat = width - 1 := by omega
  have hdone : (min (fieldWidth - 1) 0 - 1).toNat = 0 := by omega
  by_cases hminus : Flag.minus ∈ flags
  · simp [putChar, field, withFlags, hminus, hcount]
  · simp [putChar, field, withFlags, hminus, hzero, hcount, hdone]

theorem putString_eq (hzero : Flag.zero ∉ flags) (hwidth : fieldWidth.toNat = width)
    (qualifier : Qualifier) (s : Text) :
    putString ⟨withFlags {} flags, fieldWidth, -1, qualifier⟩ s = field flags width [] s := by
  have hcount : (fieldWidth - (s.length : ℤ)).toNat = width - s.length := by omega
  have hdone : (min fieldWidth (s.length : ℤ) - 1 - (s.length : ℤ)).toNat = 0 := by omega
  by_cases hminus : Flag.minus ∈ flags
  · simp [putString, field, withFlags, hminus, hcount]
  · simp [putString, field, withFlags, hminus, hzero, hcount, hdone]

theorem length_eq_none {directive : Directive} (hlength : directive.LengthOfInteger)
    (hconversion : directive.conversion ∉ [.d, .i, .u, .x, .X, .o]) :
    directive.length = .none := by
  obtain hnone | hinteger := hlength
  · exact hnone
  · exact absurd hinteger hconversion

theorem character_none {text : Text} (h : Length.none.character arg = some text) :
    ∃ value, arg = .int value ∧ text = [Char.ofNat (value.toNat % 256)] := by
  cases arg with
  | int value =>
      cases h
      exact ⟨value, rfl, rfl⟩
  | _ => cases h

theorem string_none {text : Text} (h : Length.none.string arg = some text) :
    ∃ noNul, arg = .string text noNul := by
  cases arg with
  | string one noNul =>
      cases h
      exact ⟨noNul, rfl⟩
  | _ => cases h

theorem convert_eq {directive : Directive} {text : Text}
    (hlength : directive.LengthOfInteger) (hprint : directive.print flags width arg = some text)
    (hwidth : fieldWidth.toNat = width) (rest : Text) (args : List Arg) :
    convert ⟨withFlags {} flags, fieldWidth, -1, qualifierOf directive.length⟩
      (directive.conversion.char :: rest) (arg :: args) = some (text, rest, args) := by
  have hdecimal : ∀ res, res < 10 → digit false res = id (Nat.digitChar res) :=
    fun res hres => digit_decimal hres
  have hoctal : ∀ res, res < 8 → digit false res = id (Nat.digitChar res) :=
    fun res hres => digit_decimal (by omega)
  have hsmall : ∀ res, res < 16 → digit true res = id (Nat.digitChar res) :=
    fun res hres => digit_small hres
  have hlarge : ∀ res, res < 16 → digit false res = (Nat.digitChar res).toUpper :=
    fun res hres => digit_large hres
  unfold Directive.print at hprint
  split at hprint
  case h_1 hconversion | h_2 hconversion =>
    obtain ⟨value, hvalue, rfl⟩ := Option.map_eq_some_iff.mp hprint
    rw [hconversion, Conversion.char, convert, putNumber_signed hvalue hwidth]
    rfl
  case h_3 hconversion =>
    obtain ⟨value, hvalue, rfl⟩ := Option.map_eq_some_iff.mp hprint
    rw [hconversion, Conversion.char, convert,
      putNumber_unsigned hvalue hwidth (by omega) hdecimal, List.map_id]
    rfl
  case h_4 hconversion =>
    obtain ⟨value, hvalue, rfl⟩ := Option.map_eq_some_iff.mp hprint
    rw [hconversion, Conversion.char, convert,
      putNumber_unsigned hvalue hwidth (by omega) hsmall, List.map_id]
    rfl
  case h_5 hconversion =>
    obtain ⟨value, hvalue, rfl⟩ := Option.map_eq_some_iff.mp hprint
    rw [hconversion, Conversion.char, convert,
      putNumber_unsigned hvalue hwidth (by omega) hlarge]
    rfl
  case h_6 hconversion =>
    obtain ⟨value, hvalue, rfl⟩ := Option.map_eq_some_iff.mp hprint
    rw [hconversion, Conversion.char, convert,
      putNumber_unsigned hvalue hwidth (by omega) hoctal, List.map_id]
    rfl
  case h_7 hconversion =>
    have hnone := length_eq_none hlength (by rw [hconversion]; decide)
    split_ifs at hprint with hzero
    obtain ⟨c, hvalue, rfl⟩ := Option.map_eq_some_iff.mp hprint
    obtain ⟨value, rfl, rfl⟩ := character_none (hnone ▸ hvalue)
    rw [hconversion, Conversion.char, convert, vaInt, Option.map_some]
    dsimp only
    rw [putChar_eq hzero hwidth]
  case h_8 hconversion =>
    have hnone := length_eq_none hlength (by rw [hconversion]; decide)
    split_ifs at hprint with hzero
    obtain ⟨s, hvalue, rfl⟩ := Option.map_eq_some_iff.mp hprint
    obtain ⟨hnul, rfl⟩ := string_none (hnone ▸ hvalue)
    rw [hconversion, Conversion.char, convert, vaString, Option.map_some]
    dsimp only
    rw [putString_eq hzero hwidth]
  case h_9 => cases hprint

end Conversions

section Run

variable {directive : Directive} {args left : List Arg} {text : Text} {format : Format}

-- A directive is read and printed, and the loop goes on behind it.
theorem directive_eq (hlength : directive.LengthOfInteger)
    (hprintf : directive.printf args = some (text, left)) (hfits : text.length < 2 ^ 31)
    (rest : Text) :
    ∃ spec given, readSpec (directive.text ++ rest) args =
        some (spec, directive.conversion.char :: rest, given) ∧
      convert spec (directive.conversion.char :: rest) given = some (text, rest, left) := by
  unfold Directive.printf at hprintf
  split at hprintf
  case isTrue hpercent =>
    split at hprintf
    case isTrue hplain =>
      cases hprintf
      have hstarred : directive.starred args = some ([], 0, args) := by
        rw [hplain]
        rfl
      obtain ⟨fieldWidth, -, hread⟩ := readSpec_eq hstarred (by decide) rest
      refine ⟨_, args, hread, ?_⟩
      rw [hpercent]
      rfl
    case isFalse => cases hprintf
  case isFalse =>
    split at hprintf
    case h_1 flags width arg given hstarred =>
      obtain ⟨one, hprint, heq⟩ := Option.map_eq_some_iff.mp hprintf
      cases heq
      have hwidth := Directive.width_le_length hprint
      obtain ⟨fieldWidth, hfield, hread⟩ := readSpec_eq hstarred (by omega) rest
      exact ⟨_, arg :: left, hread, convert_eq hlength hprint hfield rest left⟩
    case h_2 => cases hprintf

def LengthsOfIntegers (format : Format) : Prop :=
  ∀ directive, Piece.directive directive ∈ format → directive.LengthOfInteger

theorem printFormat_eq (hlengths : LengthsOfIntegers format)
    (hprintf : Printf.printf format args = some text) (hfits : text.length < 2 ^ 31) {bound : ℕ}
    (hbound : (Format.text format).length ≤ bound) :
    printFormat bound (Format.text format) args = some text := by
  induction format generalizing args text bound with
  | nil =>
      cases hprintf
      cases bound <;> rfl
  | cons piece format ih =>
      have hrest : LengthsOfIntegers format := fun one hone =>
        hlengths one (List.mem_cons_of_mem _ hone)
      have htext : Format.text (piece :: format) = piece.text ++ Format.text format :=
        List.flatMap_cons
      rw [htext] at hbound ⊢
      cases piece with
      | literal c hverbatim =>
          obtain ⟨one, hone, rfl⟩ := Option.map_eq_some_iff.mp hprintf
          rw [Piece.text, List.singleton_append, List.length_cons] at hbound
          rw [List.length_cons] at hfits
          obtain ⟨more, rfl⟩ : ∃ more, bound = more + 1 := ⟨bound - 1, by omega⟩
          rw [Piece.text, List.singleton_append, printFormat, if_pos hverbatim.1,
            ih hrest hone (by omega) (by omega)]
          rfl
      | directive directive =>
          obtain ⟨⟨front, left⟩, hfront, hprintf⟩ := Option.bind_eq_some_iff.mp hprintf
          obtain ⟨back, hback, heq⟩ := Option.bind_eq_some_iff.mp hprintf
          cases heq
          rw [List.length_append] at hfits
          rw [Piece.text, List.cons_append, List.length_cons, List.length_append] at hbound
          obtain ⟨more, rfl⟩ : ∃ more, bound = more + 1 := ⟨bound - 1, by omega⟩
          obtain ⟨spec, given, hread, hconvert⟩ := directive_eq (hlengths directive (by simp))
            hfront (by omega) (Format.text format)
          rw [Piece.text, List.cons_append, printFormat, if_neg (by simp), hread,
            Option.bind_eq_bind, Option.bind_some]
          dsimp only
          rw [hconvert, Option.bind_eq_bind, Option.bind_some]
          dsimp only
          rw [ih hrest hback (by omega) (by omega)]
          rfl

-- The text of the fifo is that of `printf`, with the terminator behind it.
theorem nprobeFprintf_printf (hlengths : LengthsOfIntegers format)
    (hprintf : Printf.printf format args = some text) (hfits : text.length < MAX_DATA_STR_LEN) :
    nprobeFprintf (Format.text format) args =
      some (text ++ List.replicate (MAX_DATA_STR_LEN - text.length) '\x00') := by
  have hshort : text.length < 2 ^ 31 := Nat.lt_trans hfits (by decide)
  rw [nprobeFprintf, printFormat_eq hlengths hprintf hshort (Nat.le_refl _), Option.bind_eq_bind,
    Option.bind_some, if_pos hfits]
  rfl

def shownFormat : Format :=
  [.directive ⟨[.minus, .plus], .number 5 (by decide), .none, .d⟩, .literal '|' (by decide),
    .directive ⟨[.zero], .star, .l, .X⟩]

theorem nprobeFprintf_printf_shown :
    nprobeFprintf "%-+5d|%0*lX".toList [.int (-7), .int 4, .long 255] =
      some ("-7   |00FF".toList ++ List.replicate 8182 '\x00') := by
  have hlengths : LengthsOfIntegers shownFormat := by
    intro directive hdirective
    simp only [shownFormat, List.mem_cons, List.not_mem_nil, or_false, Piece.directive.injEq,
      reduceCtorEq, false_or] at hdirective
    obtain rfl | rfl := hdirective <;> decide
  have hprintf : Printf.printf shownFormat [.int (-7), .int 4, .long 255] =
      some "-7   |00FF".toList := by decide
  exact nprobeFprintf_printf hlengths hprintf (by decide)

def wideFormat : Format := [.directive ⟨[], .unspecified, .l, .s⟩]

def wideCharFormat : Format :=
  [.directive ⟨[], .unspecified, .l, .c⟩, .literal 'x' (by decide)]

-- The length is not looked at for characters and strings: a wide string is taken for bytes, and
-- the wide character 0 is stored.
theorem nprobeFprintf_wide :
    Printf.printf wideFormat [.wideString [97, 98] (by decide)] = some "ab".toList ∧
      (nprobeFprintf (Format.text wideFormat) [.wideString [97, 98] (by decide)]).bind
        (·.cString 0) = some "a".toList ∧
      Printf.printf wideCharFormat [.int 0] = some "x".toList ∧
      (nprobeFprintf (Format.text wideCharFormat) [.int 0]).bind (·.cString 0) = some [] :=
  ⟨by decide, by decide +kernel, by decide, by decide +kernel⟩

end Run

end Gopher.Probe.Fprintf
