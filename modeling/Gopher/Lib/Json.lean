import Gopher.Lib.Quoted
import Mathlib.Data.List.DropRight
import Mathlib.Data.List.TakeWhile

namespace Gopher.Lib

-- What a JSON text says: a number by its literal, the members of an object in their order.
inductive JsonDoc where
  | null
  | bool (b : Bool)
  | number (literal : Text)
  | string (text : Text)
  | array (elements : List JsonDoc)
  | object (members : List (Text × JsonDoc))

namespace JsonDoc

section Scalars

def isBlank (char : Char) : Bool := char == ' ' || char == '\t' || char == '\n' || char == '\r'

def skipBlanks (input : Text) : Text := input.dropWhile isBlank

def isScalarChar (char : Char) : Bool :=
  char.isAlphanum || char == '-' || char == '+' || char == '.'

def skipSign : Text → Text
  | '-' :: input => input
  | input => input

def skipDigits (input : Text) : Option Text :=
  if input.takeWhile Char.isDigit = [] then none else some (input.dropWhile Char.isDigit)

-- A zero in front of other digits is no number.
def skipInteger : Text → Option Text
  | '0' :: input => some input
  | input => skipDigits input

def skipFraction : Text → Option Text
  | '.' :: input => skipDigits input
  | input => some input

def skipExponentSign : Text → Text
  | '-' :: input => input
  | '+' :: input => input
  | input => input

def skipExponent : Text → Option Text
  | 'e' :: input => skipDigits (skipExponentSign input)
  | 'E' :: input => skipDigits (skipExponentSign input)
  | input => some input

def isNumber (literal : Text) : Bool :=
  ((skipInteger (skipSign literal)).bind skipFraction).bind skipExponent = some []

def scalar (token : Text) : Option JsonDoc :=
  if token = "null".toList then some .null
  else if token = "true".toList then some (.bool true)
  else if token = "false".toList then some (.bool false)
  else if isNumber token then some (.number token)
  else none

def readScalar (input : Text) : Option (JsonDoc × Text) :=
  (scalar (input.takeWhile isScalarChar)).map (·, input.dropWhile isScalarChar)

end Scalars

section Reader

variable (quoting : Quoting)

-- A name and the colon behind it.
def readName (input : Text) : Option (Text × Text) :=
  match skipBlanks input with
  | '"' :: input => do
      let (name, input) ← quoting.read input
      match skipBlanks input with
      | ':' :: input => some (name, input)
      | _ => none
  | _ => none

mutual

-- A value with the blanks around it.
def readValue : (fuel : ℕ) → Text → Option (JsonDoc × Text)
  | 0, _ => none
  | fuel + 1, input =>
      match skipBlanks input with
      | '"' :: input => do
          let (text, input) ← quoting.read input
          return (.string text, skipBlanks input)
      | '\x7b' :: input =>
          match skipBlanks input with
          | '\x7d' :: input => some (.object [], skipBlanks input)
          | _ => do
              let (members, input) ← readMembers fuel input
              return (.object members, skipBlanks input)
      | '[' :: input =>
          match skipBlanks input with
          | ']' :: input => some (.array [], skipBlanks input)
          | _ => do
              let (elements, input) ← readElements fuel input
              return (.array elements, skipBlanks input)
      | input => do
          let (value, input) ← readScalar input
          return (value, skipBlanks input)

-- One member or more, and the closing brace.
def readMembers : (fuel : ℕ) → Text → Option (List (Text × JsonDoc) × Text)
  | 0, _ => none
  | fuel + 1, input => do
      let (name, input) ← readName quoting input
      let (value, input) ← readValue fuel input
      match input with
      | ',' :: input => do
          let (members, input) ← readMembers fuel input
          return ((name, value) :: members, input)
      | '\x7d' :: input => some ([(name, value)], input)
      | _ => none

-- One element or more, and the closing bracket.
def readElements : (fuel : ℕ) → Text → Option (List JsonDoc × Text)
  | 0, _ => none
  | fuel + 1, input => do
      let (value, input) ← readValue fuel input
      match input with
      | ',' :: input => do
          let (elements, input) ← readElements fuel input
          return (value :: elements, input)
      | ']' :: input => some ([value], input)
      | _ => none

end

-- Every call reads a character, so the length of the text is fuel enough.
def readDocument (text : Text) : Option JsonDoc :=
  match readValue quoting (text.length + 1) text with
  | some (value, []) => some value
  | _ => none

end Reader

section Blanks

@[simp] theorem skipBlanks_skipBlanks (input : Text) :
    skipBlanks (skipBlanks input) = skipBlanks input :=
  List.dropWhile_idempotent isBlank input

theorem skipBlanks_cons {char : Char} (hchar : isBlank char = false) (input : Text) :
    skipBlanks (char :: input) = char :: input :=
  List.dropWhile_cons_of_neg (by simp [hchar])

theorem isBlank_of_mem_nil : ∀ char ∈ ([] : Text), isBlank char = true := by simp

theorem isBlank_of_mem_space : ∀ char ∈ [' '], isBlank char = true := by decide

theorem skipBlanks_append {blanks : Text} (hblanks : ∀ char ∈ blanks, isBlank char = true)
    (input : Text) : skipBlanks (blanks ++ input) = skipBlanks input :=
  List.dropWhile_append_of_pos hblanks

theorem exists_blanks (input : Text) :
    ∃ blanks, input = blanks ++ skipBlanks input ∧ ∀ char ∈ blanks, isBlank char = true :=
  ⟨input.takeWhile isBlank, List.takeWhile_append_dropWhile.symm,
    fun _ => List.mem_takeWhile_imp⟩

end Blanks

section Steps

variable {quoting : Quoting} {fuel : ℕ} {input rest behind left : Text} {value : JsonDoc}

theorem readName_of_quote (h : skipBlanks input = '"' :: rest) {name : Text}
    (hname : quoting.read rest = some (name, behind)) (hcolon : skipBlanks behind = ':' :: left) :
    readName quoting input = some (name, left) := by
  simp [readName, h, hname, hcolon]

theorem readName_eq_some {name : Text} (h : readName quoting input = some (name, left)) :
    ∃ rest behind, skipBlanks input = '"' :: rest ∧ quoting.read rest = some (name, behind) ∧
      skipBlanks behind = ':' :: left := by
  unfold readName at h
  split at h
  · rename_i rest hrest
    obtain ⟨⟨text, behind⟩, htext, h⟩ := Option.bind_eq_some_iff.mp h
    dsimp only at h
    split at h
    · rename_i left' hleft
      cases h
      exact ⟨rest, behind, hrest, htext, hleft⟩
    · cases h
  · cases h

-- What a call that reads a value has found.
inductive ReadsBy (quoting : Quoting) (fuel : ℕ) (input : Text) : JsonDoc → Text → Prop
  | string {text rest behind : Text} : skipBlanks input = '"' :: rest →
      quoting.read rest = some (text, behind) →
      ReadsBy quoting fuel input (.string text) (skipBlanks behind)
  | emptyObject {rest behind : Text} : skipBlanks input = '\x7b' :: rest →
      skipBlanks rest = '\x7d' :: behind →
      ReadsBy quoting fuel input (.object []) (skipBlanks behind)
  | object {members : List (Text × JsonDoc)} {rest behind : Text} :
      skipBlanks input = '\x7b' :: rest → readMembers quoting fuel rest = some (members, behind) →
      ReadsBy quoting fuel input (.object members) (skipBlanks behind)
  | emptyArray {rest behind : Text} : skipBlanks input = '[' :: rest →
      skipBlanks rest = ']' :: behind →
      ReadsBy quoting fuel input (.array []) (skipBlanks behind)
  | array {elements : List JsonDoc} {rest behind : Text} :
      skipBlanks input = '[' :: rest → readElements quoting fuel rest = some (elements, behind) →
      ReadsBy quoting fuel input (.array elements) (skipBlanks behind)
  | scalar {value : JsonDoc} {behind : Text} :
      readScalar (skipBlanks input) = some (value, behind) →
      ReadsBy quoting fuel input value (skipBlanks behind)

theorem readsBy_of_readValue (h : readValue quoting (fuel + 1) input = some (value, left)) :
    ReadsBy quoting fuel input value left := by
  rw [readValue] at h
  split at h
  case h_1 rest hrest =>
    obtain ⟨⟨text, behind⟩, htext, heq⟩ := Option.bind_eq_some_iff.mp h
    cases heq
    exact .string hrest htext
  case h_2 rest hrest =>
    split at h
    case h_1 behind hbehind =>
      cases h
      exact .emptyObject hrest hbehind
    case h_2 =>
      obtain ⟨⟨members, behind⟩, hmembers, heq⟩ := Option.bind_eq_some_iff.mp h
      cases heq
      exact .object hrest hmembers
  case h_3 rest hrest =>
    split at h
    case h_1 behind hbehind =>
      cases h
      exact .emptyArray hrest hbehind
    case h_2 =>
      obtain ⟨⟨elements, behind⟩, helements, heq⟩ := Option.bind_eq_some_iff.mp h
      cases heq
      exact .array hrest helements
  case h_4 =>
    obtain ⟨⟨value, behind⟩, hvalue, heq⟩ := Option.bind_eq_some_iff.mp h
    cases heq
    exact .scalar hvalue

theorem scalar_nil : scalar [] = none := by decide

theorem readScalar_head {char : Char} (hchar : isScalarChar char = false) (input : Text) :
    readScalar (char :: input) = none := by
  rw [readScalar, List.takeWhile_cons_of_neg (by simp [hchar]), scalar_nil]
  rfl

-- What a call that reads members has found.
inductive ReadsMembersBy (quoting : Quoting) (fuel : ℕ) (input left : Text) :
    List (Text × JsonDoc) → Prop
  | last {name afterName : Text} {value : JsonDoc} :
      readName quoting input = some (name, afterName) →
      readValue quoting fuel afterName = some (value, '\x7d' :: left) →
      ReadsMembersBy quoting fuel input left [(name, value)]
  | cons {name afterName rest : Text} {value : JsonDoc} {members : List (Text × JsonDoc)} :
      readName quoting input = some (name, afterName) →
      readValue quoting fuel afterName = some (value, ',' :: rest) →
      readMembers quoting fuel rest = some (members, left) →
      ReadsMembersBy quoting fuel input left ((name, value) :: members)

theorem readsMembersBy_of_readMembers {members : List (Text × JsonDoc)}
    (h : readMembers quoting (fuel + 1) input = some (members, left)) :
    ReadsMembersBy quoting fuel input left members := by
  rw [readMembers] at h
  obtain ⟨⟨name, afterName⟩, hname, hafter⟩ := Option.bind_eq_some_iff.mp h
  obtain ⟨⟨value, afterValue⟩, hvalue, hnext⟩ := Option.bind_eq_some_iff.mp hafter
  dsimp only at hnext
  split at hnext
  · obtain ⟨⟨more, afterMore⟩, hmore, heq⟩ := Option.bind_eq_some_iff.mp hnext
    cases heq
    exact .cons hname hvalue hmore
  · cases hnext
    exact .last hname hvalue
  · cases hnext

-- What a call that reads elements has found.
inductive ReadsElementsBy (quoting : Quoting) (fuel : ℕ) (input left : Text) : List JsonDoc → Prop
  | last {value : JsonDoc} : readValue quoting fuel input = some (value, ']' :: left) →
      ReadsElementsBy quoting fuel input left [value]
  | cons {rest : Text} {value : JsonDoc} {elements : List JsonDoc} :
      readValue quoting fuel input = some (value, ',' :: rest) →
      readElements quoting fuel rest = some (elements, left) →
      ReadsElementsBy quoting fuel input left (value :: elements)

theorem readsElementsBy_of_readElements {elements : List JsonDoc}
    (h : readElements quoting (fuel + 1) input = some (elements, left)) :
    ReadsElementsBy quoting fuel input left elements := by
  rw [readElements] at h
  obtain ⟨⟨value, afterValue⟩, hvalue, hnext⟩ := Option.bind_eq_some_iff.mp h
  dsimp only at hnext
  split at hnext
  · obtain ⟨⟨more, afterMore⟩, hmore, heq⟩ := Option.bind_eq_some_iff.mp hnext
    cases heq
    exact .cons hvalue hmore
  · cases hnext
    exact .last hvalue
  · cases hnext

-- The first character that is no blank tells what is read.
theorem readMembers_head {members : List (Text × JsonDoc)}
    (h : readMembers quoting fuel input = some (members, left)) :
    members ≠ [] ∧ ∃ rest, skipBlanks input = '"' :: rest := by
  cases fuel with
  | zero => simp [readMembers] at h
  | succ fuel =>
      cases readsMembersBy_of_readMembers h with
      | last hname _ =>
          obtain ⟨rest, -, hrest, -⟩ := readName_eq_some hname
          exact ⟨List.cons_ne_nil _ _, rest, hrest⟩
      | cons hname _ _ =>
          obtain ⟨rest, -, hrest, -⟩ := readName_eq_some hname
          exact ⟨List.cons_ne_nil _ _, rest, hrest⟩

theorem readValue_ne_bracket (h : readValue quoting fuel input = some (value, left)) :
    ∀ behind, skipBlanks input ≠ ']' :: behind := by
  intro behind hbehind
  cases fuel with
  | zero => simp [readValue] at h
  | succ fuel =>
      cases readsBy_of_readValue h with
      | scalar hscalar =>
          rw [hbehind, readScalar_head (by decide)] at hscalar
          cases hscalar
      | _ => simp_all

theorem readElements_head {elements : List JsonDoc}
    (h : readElements quoting fuel input = some (elements, left)) :
    ∀ behind, skipBlanks input ≠ ']' :: behind := by
  cases fuel with
  | zero => simp [readElements] at h
  | succ fuel =>
      cases readsElementsBy_of_readElements h with
      | last hvalue => exact readValue_ne_bracket hvalue
      | cons hvalue _ => exact readValue_ne_bracket hvalue

theorem readValue_of_readDocument (h : readDocument quoting input = some value) :
    readValue quoting (input.length + 1) input = some (value, []) := by
  unfold readDocument at h
  split at h
  · rename_i hread
    cases h
    exact hread
  · cases h

end Steps

end JsonDoc

end Gopher.Lib
