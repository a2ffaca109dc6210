import Gopher.Lib.Json.Number
import Mathlib.Algebra.GroupWithZero.Nat

-- Documents with texts in them that were written as they stand: the condition on these texts
-- under which the document says what it should.

namespace Gopher.Lib.JsonDoc

variable (quoting : Quoting)

-- The text is read as the value exactly if the condition holds.
structure Reads (text : Text) (value : JsonDoc) (good : Prop) : Prop where
  takes : good → Takes quoting text value
  good_of_read : ∀ {fuel behind left}, text.length < fuel → Ends behind →
    readValue quoting fuel (text ++ behind) = some (value, left) → good

-- The text has the closing brace.
structure ReadsMembers (text : Text) (members : List (Text × JsonDoc)) (good : Prop) : Prop where
  takes : good → TakesMembers quoting text members
  good_of_read : ∀ {fuel behind left}, text.length < fuel →
    readMembers quoting fuel (text ++ behind) = some (members, left) → good

variable {quoting} {text rest name nameText : Text} {value : JsonDoc} {good goodRest : Prop}
  {members more : List (Text × JsonDoc)}

theorem Reads.of_takes (h : Takes quoting text value) : Reads quoting text value True :=
  ⟨fun _ => h, fun _ _ _ => trivial⟩

theorem Reads.document (h : Reads quoting text value good) :
    readDocument quoting text = some value ↔ good := by
  constructor
  · intro hread
    have hvalue := readValue_of_readDocument hread
    rw [← List.append_nil text] at hvalue
    exact h.good_of_read (by simp) (by simp [Ends]) hvalue
  · intro hgood
    exact readDocument_of_takes (h.takes hgood)

theorem reads_quoted (text : Text) :
    Reads quoting (quoted text) (.string text) (∀ char ∈ text, quoting.plain char = true) := by
  constructor
  · exact takes_quoted
  · intro fuel behind left hfuel _ hread
    cases fuel with
    | zero => cases hfuel
    | succ fuel =>
        rw [quoted, List.cons_append, List.append_assoc] at hread
        have hskip := skipBlanks_cons (show isBlank '"' = false by decide)
          (text ++ (['"'] ++ behind))
        generalize hvalue : JsonDoc.string text = value at hread
        cases readsBy_of_readValue hread with
        | string hquote htext =>
            cases hvalue
            rw [hskip, List.cons.injEq] at hquote
            rw [← hquote.2] at htext
            exact (Quoting.read_verbatim_iff.mp htext).1
        | scalar hscalar =>
            rw [hskip, readScalar_head (by decide)] at hscalar
            cases hscalar
        | _ => cases hvalue

theorem reads_number (literal : Text) :
    Reads quoting literal (.number literal) (isNumber literal = true) := by
  constructor
  · exact takes_number
  · intro fuel behind left hfuel _ hread
    cases fuel with
    | zero => cases hfuel
    | succ fuel =>
        generalize hvalue : JsonDoc.number literal = value at hread
        cases readsBy_of_readValue hread with
        | scalar hscalar =>
            subst hvalue
            obtain ⟨token, htoken, heq⟩ := Option.map_eq_some_iff.mp hscalar
            cases heq
            exact (isNumber_of_scalar htoken).2
        | _ => cases hvalue

-- A text of digits in the place of a number is read as a number with that literal.
theorem reads_token (hne : text ≠ []) (htext : ∀ char ∈ text, isScalarChar char = true)
    (literal : Text) :
    Reads quoting text (.number literal) (text = literal ∧ isNumber literal = true) := by
  constructor
  · rintro ⟨rfl, hnumber⟩
    exact takes_number hnumber
  · intro fuel behind left hfuel hbehind hread
    have hskip : skipBlanks (text ++ behind) = text ++ behind := by
      cases text with
      | nil => exact absurd rfl hne
      | cons char text => exact skipBlanks_cons (isBlank_of_isScalarChar (htext char (by simp))) _
    cases fuel with
    | zero => cases hfuel
    | succ fuel =>
        generalize hvalue : JsonDoc.number literal = value at hread
        cases readsBy_of_readValue hread with
        | scalar hscalar =>
            subst hvalue
            rw [hskip] at hscalar
            obtain ⟨token, htoken, heq⟩ := Option.map_eq_some_iff.mp hscalar
            cases heq
            rw [takeWhile_scalar_append htext hbehind] at htoken
            exact isNumber_of_scalar htoken
        | _ => cases hvalue

theorem Reads.object (hne : members ≠ []) (h : ReadsMembers quoting text members good) :
    Reads quoting ('\x7b' :: text) (.object members) good := by
  constructor
  · intro hgood
    exact takes_object (h.takes hgood)
  · intro fuel behind left hfuel _ hread
    cases fuel with
    | zero => cases hfuel
    | succ fuel =>
        rw [List.length_cons] at hfuel
        have hskip := skipBlanks_cons (show isBlank '\x7b' = false by decide) (text ++ behind)
        generalize hvalue : JsonDoc.object members = value at hread
        cases readsBy_of_readValue hread with
        | emptyObject =>
            cases hvalue
            exact absurd rfl hne
        | object hbrace hmembers =>
            cases hvalue
            rw [List.cons_append, hskip, List.cons.injEq] at hbrace
            rw [← hbrace.2] at hmembers
            exact h.good_of_read (by omega) hmembers
        | scalar hscalar =>
            rw [List.cons_append, hskip, readScalar_head (by decide)] at hscalar
            cases hscalar
        | _ => cases hvalue

theorem readsMembers_last (hname : TakesName quoting nameText name)
    (h : Reads quoting text value good) :
    ReadsMembers quoting (nameText ++ text ++ ['\x7d']) [(name, value)] good := by
  constructor
  · intro hgood
    exact takesMembers_last hname (h.takes hgood)
  · intro fuel behind left hfuel hread
    cases fuel with
    | zero => cases hfuel
    | succ fuel =>
        simp only [List.length_append, List.length_singleton] at hfuel
        rw [List.append_assoc, List.append_assoc] at hread
        cases readsMembersBy_of_readMembers hread with
        | last hafter hvalue =>
            cases (hname _).symm.trans hafter
            exact h.good_of_read (by omega) (ends_cons (by decide) _) hvalue
        | cons hafter hvalue _ =>
            cases (hname _).symm.trans hafter
            exact h.good_of_read (by omega) (ends_cons (by decide) _) hvalue

theorem readsMembers_cons (hname : TakesName quoting nameText name)
    (h : Reads quoting text value good) (hne : more ≠ [])
    (hrest : ReadsMembers quoting rest more goodRest) :
    ReadsMembers quoting (nameText ++ text ++ ',' :: rest) ((name, value) :: more)
      (good ∧ goodRest) := by
  constructor
  · rintro ⟨hgood, hgoodRest⟩
    exact takesMembers_cons hname (h.takes hgood) (hrest.takes hgoodRest)
  · intro fuel behind left hfuel hread
    cases fuel with
    | zero => cases hfuel
    | succ fuel =>
        simp only [List.length_append, List.length_cons] at hfuel
        rw [List.append_assoc, List.append_assoc] at hread
        cases readsMembersBy_of_readMembers hread with
        | last => exact absurd rfl hne
        | cons hafter hvalue hmembers =>
            cases (hname _).symm.trans hafter
            have hgood := h.good_of_read (by omega) (ends_cons (by decide) _) hvalue
            -- the value ends where it was written to, so the members stand behind it
            have htakes := h.takes hgood fuel (by omega) (',' :: (rest ++ behind))
              (ends_cons (by decide) _)
            rw [skipBlanks_cons (by decide)] at htakes
            cases htakes.symm.trans hvalue
            exact ⟨hgood, hrest.good_of_read (by omega) hmembers⟩

section Slots

-- A member into which a text is written.
structure Slot (quoting : Quoting) where
  name : Text
  text : Text
  value : JsonDoc
  good : Prop
  name_plain : ∀ char ∈ name, quoting.plain char = true
  reads : Reads quoting text value good

def memberText (name text : Text) : Text := '"' :: (name ++ '"' :: ':' :: text)

-- Members with commas between them, and the closing brace.
def membersText : List (Text × Text) → Text
  | [] => ['\x7d']
  | [(name, text)] => memberText name text ++ ['\x7d']
  | (name, text) :: members => memberText name text ++ ',' :: membersText members

def objectText (members : List (Text × Text)) : Text := '\x7b' :: membersText members

theorem membersText_cons (name text : Text) (members : List (Text × Text)) :
    membersText ((name, text) :: members) = memberText name text ++
      (members.map fun (name, text) => ',' :: memberText name text).flatten ++ ['\x7d'] := by
  induction members generalizing name text with
  | nil => simp [membersText]
  | cons next members ih =>
      obtain ⟨nextName, nextText⟩ := next
      rw [membersText, ih]
      · simp
      · simp

theorem readsMembers_slots_cons (slot : Slot quoting) (slots : List (Slot quoting)) :
    ReadsMembers quoting (membersText ((slot :: slots).map fun slot => (slot.name, slot.text)))
      ((slot :: slots).map fun slot => (slot.name, slot.value))
      (∀ one ∈ slot :: slots, one.good) := by
  have hname := takesName_verbatim isBlank_of_mem_nil slot.name_plain
  induction slots generalizing slot with
  | nil =>
      have h := readsMembers_last hname slot.reads
      simpa [membersText, memberText] using h
  | cons next slots ih =>
      have hrest := ih next (takesName_verbatim isBlank_of_mem_nil next.name_plain)
      have h := readsMembers_cons hname slot.reads (by simp) hrest
      rw [List.forall_mem_cons]
      simpa [membersText, memberText] using h

theorem readsMembers_slots {slots : List (Slot quoting)} (hne : slots ≠ []) :
    ReadsMembers quoting (membersText (slots.map fun slot => (slot.name, slot.text)))
      (slots.map fun slot => (slot.name, slot.value)) (∀ slot ∈ slots, slot.good) := by
  cases slots with
  | nil => exact absurd rfl hne
  | cons slot slots => exact readsMembers_slots_cons slot slots

theorem reads_slots {slots : List (Slot quoting)} (hne : slots ≠ []) :
    Reads quoting (objectText (slots.map fun slot => (slot.name, slot.text)))
      (.object (slots.map fun slot => (slot.name, slot.value))) (∀ slot ∈ slots, slot.good) :=
  Reads.object (by simpa using hne) (readsMembers_slots hne)

-- A member is counted with its quotes, its colon and what stands behind it.
def memberLength (member : Text × Text) : ℕ := member.1.length + member.2.length + 4

theorem length_membersText (first : Text × Text) (members : List (Text × Text)) :
    (membersText (first :: members)).length = ((first :: members).map memberLength).sum := by
  induction members generalizing first with
  | nil =>
      simp only [membersText, memberText, memberLength, List.length_append, List.length_cons,
        List.length_nil, List.map_cons, List.map_nil, List.sum_cons, List.sum_nil]
      omega
  | cons next members ih =>
      have hsplit : membersText (first :: next :: members) =
          memberText first.1 first.2 ++ ',' :: membersText (next :: members) := by
        rw [membersText]
        simp
      have hmember : (memberText first.1 first.2).length + 1 = memberLength first := by
        simp only [memberText, memberLength, List.length_append, List.length_cons]
        omega
      have hsum : ((first :: next :: members).map memberLength).sum =
          memberLength first + ((next :: members).map memberLength).sum := by
        rw [List.map_cons, List.sum_cons]
      rw [hsplit, List.length_append, List.length_cons, ih next, hsum]
      omega

theorem length_objectText {members : List (Text × Text)} (hne : members ≠ []) :
    (objectText members).length = (members.map memberLength).sum + 1 := by
  cases members with
  | nil => exact absurd rfl hne
  | cons first members => rw [objectText, List.length_cons, length_membersText]

theorem length_quoted (text : Text) : (quoted text).length = text.length + 2 := by
  simp [quoted]

def Slot.quoted (quoting : Quoting) (name text : Text)
    (hname : ∀ char ∈ name, quoting.plain char = true) : Slot quoting where
  name := name
  text := JsonDoc.quoted text
  value := .string text
  good := ∀ char ∈ text, quoting.plain char = true
  name_plain := hname
  reads := reads_quoted text

def Slot.object (name : Text) (slots : List (Slot quoting)) (hne : slots ≠ [])
    (hname : ∀ char ∈ name, quoting.plain char = true) : Slot quoting where
  name := name
  text := objectText (slots.map fun slot => (slot.name, slot.text))
  value := .object (slots.map fun slot => (slot.name, slot.value))
  good := ∀ slot ∈ slots, slot.good
  name_plain := hname
  reads := reads_slots hne

end Slots

section Extended

variable {front : Text} (hlocal : Local quoting.unescape)

include hlocal

-- In front of the last brace the text can go on.
theorem readsMembers_append {fuel : ℕ}
    (hread : readMembers quoting fuel (front ++ ['\x7d']) = some (members, []))
    (hne : more ≠ []) (hrest : ReadsMembers quoting rest more good) :
    ReadsMembers quoting (front ++ ',' :: rest) (members ++ more) good := by
  induction fuel generalizing front members with
  | zero => simp [readMembers] at hread
  | succ fuel ih =>
      cases readsMembersBy_of_readMembers hread with
      | last hname hvalue =>
          obtain ⟨nameText, hfront, hnameText⟩ := takesName_of_readName hlocal hname
          obtain ⟨text, rfl, htext⟩ := (takes_of_read hlocal fuel).1 hvalue
          rw [← List.append_assoc, List.append_left_inj] at hfront
          have h := readsMembers_cons hnameText (.of_takes htext) hne hrest
          rw [true_and] at h
          rw [hfront, List.singleton_append]
          exact h
      | @cons _ afterName tail _ _ hname hvalue hmembers =>
          obtain ⟨nameText, hfront, hnameText⟩ := takesName_of_readName hlocal hname
          obtain ⟨text, rfl, htext⟩ := (takes_of_read hlocal fuel).1 hvalue
          obtain rfl | ⟨tail, last, rfl⟩ := tail.eq_nil_or_concat'
          · obtain ⟨-, rest, hhead⟩ := readMembers_head hmembers
            cases hhead
          · have hsplit : front ++ ['\x7d'] = nameText ++ text ++ ',' :: tail ++ [last] := by
              rw [hfront]
              simp
            obtain ⟨hfront, hlast⟩ := List.append_inj' hsplit rfl
            rw [← hlast] at hmembers
            have h := readsMembers_cons hnameText (.of_takes htext) (by simp [hne])
              (ih hmembers)
            rw [true_and] at h
            rw [hfront, List.append_assoc, List.cons_append]
            exact h

-- An object is extended in front of its closing brace, unless it is empty: there the comma
-- stands behind nothing.
theorem reads_extended
    (hread : readDocument quoting ('\x7b' :: (front ++ ['\x7d'])) = some (.object members))
    (hne : more ≠ []) (hrest : ReadsMembers quoting rest more good) :
    Reads quoting ('\x7b' :: (front ++ ',' :: rest)) (.object (members ++ more))
      (members ≠ [] ∧ good) := by
  have hskip : ∀ text, skipBlanks ('\x7b' :: text) = '\x7b' :: text :=
    skipBlanks_cons (by decide)
  have hclosed : ∀ {text behind : Text}, front ++ ['\x7d'] = text ++ behind →
      skipBlanks behind = [] → behind = [] := by
    intro text behind heq hblank
    obtain rfl | ⟨init, last, rfl⟩ := behind.eq_nil_or_concat'
    · rfl
    · rw [← List.append_assoc] at heq
      obtain ⟨-, hlast⟩ := List.append_inj' heq rfl
      cases hlast
      have hall := List.dropWhile_eq_nil_iff.mp hblank '\x7d' (by simp)
      exact absurd hall (by decide)
  obtain ⟨value, left, hobject, hleft, hvalue⟩ : ∃ value left, JsonDoc.object members = value ∧
      left = [] ∧ readValue quoting _ ('\x7b' :: (front ++ ['\x7d'])) = some (value, left) :=
    ⟨_, _, rfl, rfl, readValue_of_readDocument hread⟩
  cases readsBy_of_readValue hvalue with
  | @emptyObject tail behind hbrace hclose =>
      cases hobject
      rw [hskip, List.cons.injEq] at hbrace
      obtain ⟨blanks, htail, hblanks⟩ := exists_blanks tail
      rw [hclose] at htail
      have hsplit : front ++ ['\x7d'] = blanks ++ ['\x7d'] ++ behind := by
        rw [hbrace.2, htail, List.append_assoc, List.singleton_append]
      have hbehind := hclosed hsplit hleft
      subst hbehind
      obtain ⟨hfront, -⟩ := List.append_inj' (hbrace.2.trans htail) rfl
      refine ⟨fun h => absurd rfl h.1, fun {fuel behind left} hfuel _ hread => ?_⟩
      exfalso
      cases fuel with
      | zero => cases hfuel
      | succ fuel =>
          have hcomma : ∀ tail, skipBlanks ('\x7b' :: (front ++ ',' :: rest) ++ behind) =
              '\x7b' :: tail → skipBlanks tail = ',' :: (rest ++ behind) := by
            intro tail htail
            rw [List.cons_append, hskip, List.cons.injEq] at htail
            rw [← htail.2, List.append_assoc, List.cons_append, hfront,
              skipBlanks_append hblanks, skipBlanks_cons (by decide)]
          generalize hobject : JsonDoc.object ([] ++ more) = value at hread
          cases readsBy_of_readValue hread with
          | emptyObject hbrace hclose =>
              rw [hcomma _ hbrace] at hclose
              cases hclose
          | object hbrace hmembers =>
              obtain ⟨-, name, hname⟩ := readMembers_head hmembers
              rw [hcomma _ hbrace] at hname
              cases hname
          | scalar hscalar =>
              rw [List.cons_append, hskip, readScalar_head (by decide)] at hscalar
              cases hscalar
          | _ => cases hobject
  | @object _ tail behind hbrace hmembers =>
      cases hobject
      rw [hskip, List.cons.injEq] at hbrace
      obtain ⟨text, htail, -⟩ := (takes_of_read hlocal _).2.1 hmembers
      have hbehind := hclosed (hbrace.2.trans htail) hleft
      subst hbehind
      rw [← hbrace.2] at hmembers
      have h := Reads.object (by simp [hne]) (readsMembers_append hlocal hmembers hne hrest)
      have hmembersNe := (readMembers_head hmembers).1
      simp only [ne_eq, hmembersNe, not_false_eq_true, true_and]
      exact h
  | scalar hscalar =>
      rw [hskip, readScalar_head (by decide)] at hscalar
      cases hscalar
  | _ => cases hobject

end Extended

end Gopher.Lib.JsonDoc
