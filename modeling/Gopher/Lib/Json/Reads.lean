import Gopher.Lib.Json

-- What a reader makes of a text does not depend on what stands behind it, and a document is
-- read part by part.

namespace Gopher.Lib.JsonDoc

variable (quoting : Quoting)

-- The text ends a number or a word in front of it.
def Ends (behind : Text) : Prop := ∀ char ∈ behind.head?, isScalarChar char = false

-- With fuel enough the text is read as the value, and so are the blanks behind it.
def Takes (text : Text) (value : JsonDoc) : Prop :=
  ∀ fuel, text.length < fuel → ∀ behind, Ends behind →
    readValue quoting fuel (text ++ behind) = some (value, skipBlanks behind)

def TakesName (text name : Text) : Prop :=
  ∀ behind, readName quoting (text ++ behind) = some (name, behind)

-- The text has the closing brace.
def TakesMembers (text : Text) (members : List (Text × JsonDoc)) : Prop :=
  ∀ fuel, text.length < fuel → ∀ behind,
    readMembers quoting fuel (text ++ behind) = some (members, behind)

-- The text has the closing bracket.
def TakesElements (text : Text) (elements : List JsonDoc) : Prop :=
  ∀ fuel, text.length < fuel → ∀ behind,
    readElements quoting fuel (text ++ behind) = some (elements, behind)

variable {quoting} {text rest blanks : Text} {value : JsonDoc}

theorem ends_cons {char : Char} (hchar : isScalarChar char = false) (behind : Text) :
    Ends (char :: behind) := by
  intro one hone
  cases hone
  exact hchar

theorem isScalarChar_of_isBlank {char : Char} (h : isBlank char = true) :
    isScalarChar char = false := by
  simp only [isBlank, Bool.or_eq_true, beq_iff_eq] at h
  obtain ((rfl | rfl) | rfl) | rfl := h <;> decide

theorem isBlank_of_isScalarChar {char : Char} (h : isScalarChar char = true) :
    isBlank char = false := by
  by_contra hblank
  rw [Bool.not_eq_false] at hblank
  rw [isScalarChar_of_isBlank hblank] at h
  cases h

theorem ends_append (hblanks : ∀ char ∈ blanks, isBlank char = true) {behind : Text}
    (hbehind : Ends behind) : Ends (blanks ++ behind) := by
  cases blanks with
  | nil => exact hbehind
  | cons char blanks => exact ends_cons (isScalarChar_of_isBlank (hblanks char (by simp))) _

theorem readValue_of_skipBlanks {fuel : ℕ} {input other : Text}
    (h : skipBlanks input = skipBlanks other) :
    readValue quoting fuel input = readValue quoting fuel other := by
  cases fuel with
  | zero => rfl
  | succ fuel => rw [readValue, readValue, h]

-- Blanks around a value are read with it.
theorem Takes.pad_left (hblanks : ∀ char ∈ blanks, isBlank char = true)
    (h : Takes quoting text value) : Takes quoting (blanks ++ text) value := by
  intro fuel hfuel behind hbehind
  rw [List.length_append] at hfuel
  rw [List.append_assoc, readValue_of_skipBlanks (skipBlanks_append hblanks (text ++ behind))]
  exact h fuel (by omega) behind hbehind

theorem Takes.pad_right (hblanks : ∀ char ∈ blanks, isBlank char = true)
    (h : Takes quoting text value) : Takes quoting (text ++ blanks) value := by
  intro fuel hfuel behind hbehind
  rw [List.length_append] at hfuel
  rw [List.append_assoc, h fuel (by omega) _ (ends_append hblanks hbehind),
    skipBlanks_append hblanks]

theorem takes_string {body text : Text}
    (h : ∀ behind, quoting.read (body ++ behind) = some (text, behind)) :
    Takes quoting ('"' :: body) (.string text) := by
  intro fuel hfuel behind hbehind
  cases fuel with
  | zero => cases hfuel
  | succ fuel => simp [readValue, skipBlanks_cons, isBlank, h]

def quoted (text : Text) : Text := '"' :: (text ++ ['"'])

theorem takes_quoted (hplain : ∀ char ∈ text, quoting.plain char = true) :
    Takes quoting (quoted text) (.string text) := by
  apply takes_string
  intro behind
  rw [List.append_assoc]
  exact Quoting.read_verbatim_iff.mpr ⟨hplain, rfl⟩

theorem takes_emptyObject (hblanks : ∀ char ∈ blanks, isBlank char = true) :
    Takes quoting ('\x7b' :: (blanks ++ ['\x7d'])) (.object []) := by
  intro fuel hfuel behind hbehind
  cases fuel with
  | zero => cases hfuel
  | succ fuel =>
      simp [readValue, skipBlanks_cons, isBlank, skipBlanks_append hblanks]

theorem takes_object {members : List (Text × JsonDoc)} (h : TakesMembers quoting text members) :
    Takes quoting ('\x7b' :: text) (.object members) := by
  intro fuel hfuel behind hbehind
  cases fuel with
  | zero => cases hfuel
  | succ fuel =>
      rw [List.length_cons] at hfuel
      have hmembers := h fuel (by omega) behind
      obtain ⟨-, name, hname⟩ := readMembers_head hmembers
      simp [readValue, skipBlanks_cons, isBlank, hname, hmembers]

theorem takes_emptyArray (hblanks : ∀ char ∈ blanks, isBlank char = true) :
    Takes quoting ('[' :: (blanks ++ [']'])) (.array []) := by
  intro fuel hfuel behind hbehind
  cases fuel with
  | zero => cases hfuel
  | succ fuel =>
      simp [readValue, skipBlanks_cons, isBlank, skipBlanks_append hblanks]

theorem takes_array {elements : List JsonDoc} (h : TakesElements quoting text elements) :
    Takes quoting ('[' :: text) (.array elements) := by
  intro fuel hfuel behind hbehind
  cases fuel with
  | zero => cases hfuel
  | succ fuel =>
      rw [List.length_cons] at hfuel
      have helements := h fuel (by omega) behind
      have hhead := readElements_head helements
      simp [readValue, skipBlanks_cons, isBlank, helements]

section Scalars

variable {token behind : Text} (htoken : ∀ char ∈ token, isScalarChar char = true)

include htoken

theorem takeWhile_scalar_append (hbehind : Ends behind) :
    (token ++ behind).takeWhile isScalarChar = token := by
  rw [List.takeWhile_append_of_pos htoken]
  cases behind with
  | nil => exact List.append_nil token
  | cons char behind =>
      rw [List.takeWhile_cons_of_neg (by simp [hbehind char rfl]), List.append_nil]

theorem dropWhile_scalar_append (hbehind : Ends behind) :
    (token ++ behind).dropWhile isScalarChar = behind := by
  rw [List.dropWhile_append_of_pos htoken]
  cases behind with
  | nil => rfl
  | cons char behind => exact List.dropWhile_cons_of_neg (by simp [hbehind char rfl])

-- A number or a word.
theorem readScalar_append (hvalue : scalar token = some value) (hbehind : Ends behind) :
    readScalar (token ++ behind) = some (value, behind) := by
  rw [readScalar, takeWhile_scalar_append htoken hbehind, dropWhile_scalar_append htoken hbehind,
    hvalue]
  rfl

theorem takes_scalar (hvalue : scalar token = some value) : Takes quoting token value := by
  intro fuel hfuel behind hbehind
  have hscalar := readScalar_append htoken hvalue hbehind
  cases fuel with
  | zero => cases hfuel
  | succ fuel =>
      cases token with
      | nil =>
          rw [scalar_nil] at hvalue
          cases hvalue
      | cons char token =>
          have hchar := htoken char (by simp)
          have hblank := isBlank_of_isScalarChar hchar
          have hne : ∀ other, isScalarChar other = false → char ≠ other := by
            rintro other hother rfl
            rw [hother] at hchar
            cases hchar
          rw [readValue, List.cons_append, skipBlanks_cons hblank]
          split
          case h_1 heq => exact absurd (List.cons.inj heq).1 (hne _ (by decide))
          case h_2 heq => exact absurd (List.cons.inj heq).1 (hne _ (by decide))
          case h_3 heq => exact absurd (List.cons.inj heq).1 (hne _ (by decide))
          case h_4 =>
            rw [← List.cons_append, hscalar]
            rfl

end Scalars

theorem takesName_quote (hblanks : ∀ char ∈ blanks, isBlank char = true) {body name : Text}
    (hbody : ∀ behind, quoting.read (body ++ behind) = some (name, behind))
    {between : Text} (hbetween : ∀ char ∈ between, isBlank char = true) :
    TakesName quoting (blanks ++ '"' :: body ++ between ++ [':']) name := by
  intro behind
  have hquote : skipBlanks (blanks ++ '"' :: body ++ between ++ [':'] ++ behind) =
      '"' :: (body ++ (between ++ ':' :: behind)) := by
    simp [skipBlanks_append hblanks, skipBlanks_cons, isBlank]
  have hcolon : skipBlanks (between ++ ':' :: behind) = ':' :: behind := by
    rw [skipBlanks_append hbetween, skipBlanks_cons (by decide)]
  exact readName_of_quote hquote (hbody _) hcolon

theorem takesName_verbatim (hblanks : ∀ char ∈ blanks, isBlank char = true) {name : Text}
    (hname : ∀ char ∈ name, quoting.plain char = true) :
    TakesName quoting (blanks ++ '"' :: name ++ ['"', ':']) name := by
  have hread : ∀ behind, quoting.read (name ++ ['"'] ++ behind) = some (name, behind) := by
    intro behind
    rw [List.append_assoc]
    exact Quoting.read_verbatim_iff.mpr ⟨hname, rfl⟩
  have h := takesName_quote hblanks hread isBlank_of_mem_nil
  simpa using h

section Members

variable {name nameText : Text} {members : List (Text × JsonDoc)}

theorem takesMembers_last (hname : TakesName quoting nameText name)
    (hvalue : Takes quoting text value) :
    TakesMembers quoting (nameText ++ text ++ ['\x7d']) [(name, value)] := by
  intro fuel hfuel behind
  cases fuel with
  | zero => cases hfuel
  | succ fuel =>
      simp only [List.length_append, List.length_singleton] at hfuel
      have hread := hvalue fuel (by omega) ('\x7d' :: behind) (ends_cons (by decide) behind)
      rw [skipBlanks_cons (by decide)] at hread
      simp [readMembers, hname (text ++ '\x7d' :: behind), hread]

theorem takesMembers_cons (hname : TakesName quoting nameText name)
    (hvalue : Takes quoting text value) (hmembers : TakesMembers quoting rest members) :
    TakesMembers quoting (nameText ++ text ++ ',' :: rest) ((name, value) :: members) := by
  intro fuel hfuel behind
  cases fuel with
  | zero => cases hfuel
  | succ fuel =>
      simp only [List.length_append, List.length_cons] at hfuel
      have hread := hvalue fuel (by omega) (',' :: (rest ++ behind)) (ends_cons (by decide) _)
      rw [skipBlanks_cons (by decide)] at hread
      simp [readMembers, hname (text ++ ',' :: (rest ++ behind)), hread,
        hmembers fuel (by omega) behind]

end Members

section Elements

variable {elements : List JsonDoc}

theorem takesElements_last (hvalue : Takes quoting text value) :
    TakesElements quoting (text ++ [']']) [value] := by
  intro fuel hfuel behind
  cases fuel with
  | zero => cases hfuel
  | succ fuel =>
      simp only [List.length_append, List.length_singleton] at hfuel
      have hread := hvalue fuel (by omega) (']' :: behind) (ends_cons (by decide) behind)
      rw [skipBlanks_cons (by decide)] at hread
      simp [readElements, hread]

theorem takesElements_cons (hvalue : Takes quoting text value)
    (helements : TakesElements quoting rest elements) :
    TakesElements quoting (text ++ ',' :: rest) (value :: elements) := by
  intro fuel hfuel behind
  cases fuel with
  | zero => cases hfuel
  | succ fuel =>
      simp only [List.length_append, List.length_cons] at hfuel
      have hread := hvalue fuel (by omega) (',' :: (rest ++ behind)) (ends_cons (by decide) _)
      rw [skipBlanks_cons (by decide)] at hread
      simp [readElements, hread, helements fuel (by omega) behind]

end Elements

theorem readDocument_of_takes (h : Takes quoting text value) :
    readDocument quoting text = some value := by
  have hread := h _ (Nat.lt_succ_self _) [] (by simp [Ends])
  rw [List.append_nil] at hread
  rw [readDocument, hread]
  rfl

section Locality

variable (hlocal : Local quoting.unescape)

include hlocal

theorem takesName_of_readName {input left name : Text}
    (h : readName quoting input = some (name, left)) :
    ∃ text, input = text ++ left ∧ TakesName quoting text name := by
  obtain ⟨rest, behind, hquote, hread, hcolon⟩ := readName_eq_some h
  obtain ⟨blanks, hinput, hblanks⟩ := exists_blanks input
  obtain ⟨between, hbehind, hbetween⟩ := exists_blanks behind
  obtain ⟨body, hrest, hbody⟩ := Quoting.local_read hlocal hread
  refine ⟨blanks ++ '"' :: body ++ between ++ [':'], ?_, takesName_quote hblanks hbody hbetween⟩
  rw [hinput, hquote, hrest, hbehind, hcolon]
  simp

-- The reader gives a value only for a text that it reads the same in every other place.
theorem takes_of_read (fuel : ℕ) :
    (∀ {input left value}, readValue quoting fuel input = some (value, left) →
      ∃ text, input = text ++ left ∧ Takes quoting text value) ∧
    (∀ {input left members}, readMembers quoting fuel input = some (members, left) →
      ∃ text, input = text ++ left ∧ TakesMembers quoting text members) ∧
    (∀ {input left elements}, readElements quoting fuel input = some (elements, left) →
      ∃ text, input = text ++ left ∧ TakesElements quoting text elements) := by
  induction fuel with
  | zero =>
      refine ⟨fun h => ?_, fun h => ?_, fun h => ?_⟩
      · simp [readValue] at h
      · simp [readMembers] at h
      · simp [readElements] at h
  | succ fuel ih =>
      obtain ⟨ihValue, ihMembers, ihElements⟩ := ih
      refine ⟨fun {input left value} h => ?value, fun {input left members} h => ?members,
        fun {input left elements} h => ?elements⟩
      case value =>
        -- the blanks around the value are all that the cases have in common
        have hpad : ∀ {core behind : Text}, skipBlanks input = core ++ behind →
            Takes quoting core value →
            ∃ text, input = text ++ skipBlanks behind ∧ Takes quoting text value := by
          intro core behind hcore htakes
          obtain ⟨front, hinput, hfront⟩ := exists_blanks input
          obtain ⟨back, hbehind, hback⟩ := exists_blanks behind
          refine ⟨front ++ (core ++ back), ?_, (htakes.pad_right hback).pad_left hfront⟩
          rw [List.append_assoc, List.append_assoc, ← hbehind, ← hcore, ← hinput]
        cases readsBy_of_readValue h with
        | @string text rest behind hquote hread =>
            obtain ⟨body, hrest, hbody⟩ := Quoting.local_read hlocal hread
            exact hpad (by rw [hquote, hrest, List.cons_append]) (takes_string hbody)
        | @emptyObject rest behind hbrace hclose =>
            obtain ⟨blanks, hrest, hblanks⟩ := exists_blanks rest
            refine hpad ?_ (takes_emptyObject hblanks)
            rw [hbrace, hrest, hclose]
            simp
        | @object members rest behind hbrace hmembers =>
            obtain ⟨text, hrest, htakes⟩ := ihMembers hmembers
            exact hpad (by rw [hbrace, hrest, List.cons_append]) (takes_object htakes)
        | @emptyArray rest behind hbracket hclose =>
            obtain ⟨blanks, hrest, hblanks⟩ := exists_blanks rest
            refine hpad ?_ (takes_emptyArray hblanks)
            rw [hbracket, hrest, hclose]
            simp
        | @array elements rest behind hbracket helements =>
            obtain ⟨text, hrest, htakes⟩ := ihElements helements
            exact hpad (by rw [hbracket, hrest, List.cons_append]) (takes_array htakes)
        | @scalar _ behind hscalar =>
            obtain ⟨token, htoken, heq⟩ := Option.map_eq_some_iff.mp hscalar
            cases heq
            exact hpad List.takeWhile_append_dropWhile.symm
              (takes_scalar (fun _ => List.mem_takeWhile_imp) htoken)
      case members =>
        cases readsMembersBy_of_readMembers h with
        | last hname hvalue =>
            obtain ⟨nameText, rfl, hnameText⟩ := takesName_of_readName hlocal hname
            obtain ⟨text, rfl, htext⟩ := ihValue hvalue
            exact ⟨nameText ++ text ++ ['\x7d'], by simp, takesMembers_last hnameText htext⟩
        | cons hname hvalue hmembers =>
            obtain ⟨nameText, rfl, hnameText⟩ := takesName_of_readName hlocal hname
            obtain ⟨text, rfl, htext⟩ := ihValue hvalue
            obtain ⟨rest, rfl, hrest⟩ := ihMembers hmembers
            exact ⟨nameText ++ text ++ ',' :: rest, by simp,
              takesMembers_cons hnameText htext hrest⟩
      case elements =>
        cases readsElementsBy_of_readElements h with
        | last hvalue =>
            obtain ⟨text, rfl, htext⟩ := ihValue hvalue
            exact ⟨text ++ [']'], by simp, takesElements_last htext⟩
        | cons hvalue helements =>
            obtain ⟨text, rfl, htext⟩ := ihValue hvalue
            obtain ⟨rest, rfl, hrest⟩ := ihElements helements
            exact ⟨text ++ ',' :: rest, by simp, takesElements_cons htext hrest⟩

theorem takes_of_readDocument {text : Text} (h : readDocument quoting text = some value) :
    Takes quoting text value := by
  obtain ⟨taken, htext, htakes⟩ := (takes_of_read hlocal _).1 (readValue_of_readDocument h)
  rw [List.append_nil] at htext
  rw [htext]
  exact htakes

end Locality

end Gopher.Lib.JsonDoc
