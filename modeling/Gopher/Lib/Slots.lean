import Mathlib.Data.Fintype.Card
import Mathlib.Data.List.FinRange
import Mathlib.Tactic.SplitIfs
import Mathlib.Tactic.Tauto

namespace Gopher.Lib

-- A fixed array of pointers to entries, NULL where a slot is idle.
abbrev Slots (n : ℕ) (ε : Type*) := Fin n → Option ε

namespace Slots

variable {n : ℕ} {ε κ : Type*}

def empty : Slots n ε := fun _ => none

-- The first idle slot.
def idle (slots : Slots n ε) : Option (Fin n) :=
  (List.finRange n).find? fun pos => (slots pos).isNone

def idleCount (slots : Slots n ε) : ℕ := (Finset.univ.filter fun pos => (slots pos).isNone).card

-- Every slot whose entry is chosen becomes idle.
def release (chosen : ε → Bool) (slots : Slots n ε) : Slots n ε :=
  fun pos => (slots pos).filter fun entry => !chosen entry

-- The slots while entries are added, and how often memory was asked for.
structure Filling (n : ℕ) (ε : Type*) where
  slots : Slots n ε
  asked : ℕ

-- Memory is only asked for when a slot is idle. The second part is whether the entry
-- was added.
def add (malloc : ℕ → Bool) (entry : ε) (filling : Filling n ε) : Filling n ε × Bool :=
  match idle filling.slots with
  | none => (filling, false)
  | some pos =>
      if malloc filling.asked then
        (⟨Function.update filling.slots pos (some entry), filling.asked + 1⟩, true)
      else (⟨filling.slots, filling.asked + 1⟩, false)

-- An entry to be added, and whether its failure ends the sequence.
structure Request (ε : Type*) where
  entry : ε
  vital : Bool

def addAll (malloc : ℕ → Bool) : List (Request ε) → Filling n ε → Filling n ε × Bool
  | [], filling => (filling, true)
  | request :: requests, filling =>
      match add malloc request.entry filling with
      | (filling, true) => addAll malloc requests filling
      | (filling, false) => if request.vital then (filling, false) else addAll malloc requests filling

-- The entries that get both a slot and memory, from the number of idle slots alone.
def granted (malloc : ℕ → Bool) : ℕ → ℕ → List (Request ε) → List ε
  | _, _, [] => []
  | asked, idle, request :: requests =>
      if idle = 0 then []
      else if malloc asked then request.entry :: granted malloc (asked + 1) (idle - 1) requests
      else if request.vital then []
      else granted malloc (asked + 1) idle requests

-- Some entries have a key. The slots hold a key if one of their entries has it.
def Holds (key : ε → Option κ) (slots : Slots n ε) (k : κ) : Prop :=
  ∃ pos entry, slots pos = some entry ∧ key entry = some k

-- No key is held twice.
def Unique (key : ε → Option κ) (slots : Slots n ε) : Prop :=
  ∀ k pos pos' entry entry', slots pos = some entry → key entry = some k →
    slots pos' = some entry' → key entry' = some k → pos = pos'

-- The keys of the entries are new to the slots and to each other.
def Fresh (key : ε → Option κ) (slots : Slots n ε) (entries : List ε) : Prop :=
  (entries.filterMap key).Nodup ∧ ∀ k ∈ entries.filterMap key, ¬Holds key slots k

variable {slots : Slots n ε} {filling : Filling n ε} {malloc : ℕ → Bool} {entry : ε}
  {key : ε → Option κ} {pos : Fin n} {k : κ}

theorem idle_eq_none : idle slots = none ↔ idleCount slots = 0 := by
  simp [idle, idleCount, Finset.card_eq_zero, Finset.filter_eq_empty_iff]

theorem slot_of_idle (h : idle slots = some pos) : slots pos = none := by
  simpa using List.find?_some h

theorem idleCount_update (h : slots pos = none) :
    idleCount (Function.update slots pos (some entry)) = idleCount slots - 1 := by
  have hset : (Finset.univ.filter fun other => (Function.update slots pos (some entry) other).isNone)
      = (Finset.univ.filter fun other => (slots other).isNone).erase pos := by
    ext other
    by_cases heq : other = pos
    · subst heq
      simp
    · simp [heq]
  unfold idleCount
  rw [hset, Finset.card_erase_of_mem (by simp [h])]

theorem idleCount_empty : idleCount (empty : Slots n ε) = n := by
  simp [idleCount, empty]

theorem add_full (h : idleCount filling.slots = 0) :
    add malloc entry filling = (filling, false) := by
  unfold add
  rw [idle_eq_none.mpr h]

theorem add_idle (malloc : ℕ → Bool) (entry : ε) (h : idleCount filling.slots ≠ 0) :
    ∃ pos, filling.slots pos = none ∧ add malloc entry filling =
      if malloc filling.asked then
        (⟨Function.update filling.slots pos (some entry), filling.asked + 1⟩, true)
      else (⟨filling.slots, filling.asked + 1⟩, false) := by
  cases hidle : idle filling.slots with
  | none => exact absurd (idle_eq_none.mp hidle) h
  | some pos =>
      refine ⟨pos, slot_of_idle hidle, ?_⟩
      unfold add
      rw [hidle]

theorem holds_update (h : slots pos = none) :
    Holds key (Function.update slots pos (some entry)) k ↔ key entry = some k ∨ Holds key slots k := by
  constructor
  · rintro ⟨other, found, hfound, hkey⟩
    by_cases heq : other = pos
    · subst heq
      rw [Function.update_self] at hfound
      cases hfound
      exact .inl hkey
    · rw [Function.update_of_ne heq] at hfound
      exact .inr ⟨other, found, hfound, hkey⟩
  · rintro (hkey | ⟨other, found, hfound, hkey⟩)
    · exact ⟨pos, entry, Function.update_self .., hkey⟩
    · have hne : other ≠ pos := by
        rintro rfl
        simp [h] at hfound
      exact ⟨other, found, by rwa [Function.update_of_ne hne], hkey⟩

theorem unique_update (h : slots pos = none) :
    Unique key (Function.update slots pos (some entry)) ↔
      Unique key slots ∧ ∀ k, key entry = some k → ¬Holds key slots k := by
  have hkept {other : Fin n} {found : ε} (hfound : slots other = some found) :
      other ≠ pos ∧ Function.update slots pos (some entry) other = some found := by
    have hne : other ≠ pos := by
      rintro rfl
      simp [h] at hfound
    exact ⟨hne, by rwa [Function.update_of_ne hne]⟩
  constructor
  · intro hunique
    refine ⟨fun k first second found found' hfirst hkey hsecond hkey' => ?_, fun k hkey => ?_⟩
    · exact hunique k first second found found' (hkept hfirst).2 hkey (hkept hsecond).2 hkey'
    · rintro ⟨other, found, hfound, hkey'⟩
      exact (hkept hfound).1 (hunique k other pos found entry (hkept hfound).2 hkey'
        (Function.update_self ..) hkey)
  · rintro ⟨hunique, hnew⟩ k first second found found' hfirst hkey hsecond hkey'
    by_cases heq : first = pos
    · by_cases heq' : second = pos
      · rw [heq, heq']
      · subst heq
        rw [Function.update_self] at hfirst
        cases hfirst
        rw [Function.update_of_ne heq'] at hsecond
        exact absurd ⟨second, found', hsecond, hkey'⟩ (hnew k hkey)
    · by_cases heq' : second = pos
      · subst heq'
        rw [Function.update_self] at hsecond
        cases hsecond
        rw [Function.update_of_ne heq] at hfirst
        exact absurd ⟨first, found, hfirst, hkey⟩ (hnew k hkey')
      · rw [Function.update_of_ne heq] at hfirst
        rw [Function.update_of_ne heq'] at hsecond
        exact hunique k first second found found' hfirst hkey hsecond hkey'

theorem fresh_nil : Fresh key slots [] := ⟨List.nodup_nil, by simp⟩

-- One entry after the other: the first is new, and the rest is once it is there.
theorem fresh_cons (h : slots pos = none) {entries : List ε} :
    Fresh key slots (entry :: entries) ↔ (∀ k, key entry = some k → ¬Holds key slots k) ∧
      Fresh key (Function.update slots pos (some entry)) entries := by
  unfold Fresh
  simp only [holds_update h]
  cases hkey : key entry with
  | none => simp [hkey]
  | some k =>
      simp only [List.filterMap_cons_some hkey, List.nodup_cons, List.forall_mem_cons,
        Option.some.injEq, forall_eq', not_or]
      constructor
      · rintro ⟨⟨hnot, hnodup⟩, hfirst, hrest⟩
        refine ⟨hfirst, hnodup, fun other hother => ⟨?_, hrest other hother⟩⟩
        rintro rfl
        exact hnot hother
      · rintro ⟨hfirst, hnodup, hrest⟩
        exact ⟨⟨fun hmem => (hrest k hmem).1 rfl, hnodup⟩, hfirst,
          fun other hother => (hrest other hother).2⟩

theorem addAll_full (requests : List (Request ε)) (h : idleCount filling.slots = 0) :
    (addAll malloc requests filling).1 = filling := by
  induction requests with
  | nil => rfl
  | cons request requests ih =>
      rw [addAll, add_full h]
      dsimp only
      split_ifs
      · rfl
      · exact ih

theorem addAll_append (first second : List (Request ε)) (filling : Filling n ε) :
    addAll malloc (first ++ second) filling =
      match addAll malloc first filling with
      | (filling, true) => addAll malloc second filling
      | (filling, false) => (filling, false) := by
  induction first generalizing filling with
  | nil => rfl
  | cons request first ih =>
      rw [List.cons_append, addAll, addAll]
      rcases add malloc request.entry filling with ⟨next, added⟩
      cases added with
      | true => exact ih next
      | false =>
          dsimp only
          split_ifs
          · rfl
          · exact ih next

-- A sequence in which no failure matters.
theorem addAll_optional (requests : List (Request ε)) (h : ∀ request ∈ requests, request.vital = false)
    (filling : Filling n ε) :
    addAll malloc requests filling =
      (requests.foldl (fun filling request => (add malloc request.entry filling).1) filling, true) := by
  induction requests generalizing filling with
  | nil => rfl
  | cons request requests ih =>
      obtain ⟨hvital, hrest⟩ := List.forall_mem_cons.mp h
      rw [addAll, List.foldl_cons]
      rcases add malloc request.entry filling with ⟨next, added⟩
      cases added with
      | true => exact ih hrest next
      | false =>
          simp only [hvital, Bool.false_eq_true, if_false]
          exact ih hrest next

theorem granted_sublist (requests : List (Request ε)) (asked idle : ℕ) :
    (granted malloc asked idle requests).Sublist (requests.map Request.entry) := by
  induction requests generalizing asked idle with
  | nil => exact List.Sublist.slnil
  | cons request requests ih =>
      rw [granted, List.map_cons]
      split_ifs
      · exact List.nil_sublist _
      · exact (ih _ _).cons_cons _
      · exact List.nil_sublist _
      · exact (ih _ _).cons _

theorem fresh_of_no_key {entries : List ε} (h : ∀ entry ∈ entries, key entry = none) :
    Fresh key slots entries := by
  have hnone : entries.filterMap key = [] := List.filterMap_eq_nil_iff.mpr h
  rw [Fresh, hnone]
  simp

-- What is added all in all is what is granted, and no key is doubled if it is fresh.
theorem unique_addAll (requests : List (Request ε)) (filling : Filling n ε) :
    Unique key (addAll malloc requests filling).1.slots ↔ Unique key filling.slots ∧
      Fresh key filling.slots
        (granted malloc filling.asked (idleCount filling.slots) requests) := by
  induction requests generalizing filling with
  | nil => simp [addAll, granted, fresh_nil]
  | cons request requests ih =>
      by_cases hfull : idleCount filling.slots = 0
      · rw [addAll_full _ hfull, granted, if_pos hfull]
        simp [fresh_nil]
      · obtain ⟨pos, hpos, hadd⟩ := add_idle malloc request.entry hfull
        rw [addAll, hadd, granted, if_neg hfull]
        by_cases hmalloc : malloc filling.asked = true
        · simp only [if_pos hmalloc]
          rw [ih, unique_update hpos, fresh_cons hpos, idleCount_update hpos]
          tauto
        · simp only [if_neg hmalloc]
          split_ifs with hvital
          · simp [fresh_nil]
          · exact ih ⟨filling.slots, filling.asked + 1⟩

theorem idleCount_ne_zero : idleCount slots ≠ 0 ↔ ∃ pos, slots pos = none := by
  simp [idleCount, Finset.card_eq_zero, Finset.filter_eq_empty_iff]

-- A request takes one slot at most.
theorem idleCount_addAll (malloc : ℕ → Bool) (requests : List (Request ε)) (filling : Filling n ε) :
    idleCount filling.slots ≤
      idleCount (addAll malloc requests filling).1.slots + requests.length := by
  induction requests generalizing filling with
  | nil => exact Nat.le_refl _
  | cons request requests ih =>
      by_cases hfull : idleCount filling.slots = 0
      · omega
      · obtain ⟨pos, hpos, hadd⟩ := add_idle malloc request.entry hfull
        rw [addAll, hadd, List.length_cons]
        by_cases hmalloc : malloc filling.asked = true
        · have hrest := ih
            ⟨Function.update filling.slots pos (some request.entry), filling.asked + 1⟩
          rw [idleCount_update hpos] at hrest
          simp only [if_pos hmalloc]
          omega
        · have hrest := ih ⟨filling.slots, filling.asked + 1⟩
          simp only [if_neg hmalloc]
          split_ifs
          · exact Nat.le_add_right _ _
          · exact hrest.trans (by omega)

-- With memory for everything and a slot to spare, all that is requested is held.
theorem holds_addAll (requests : List (Request ε)) (filling : Filling n ε)
    (hidle : idleCount (addAll (fun _ => true) requests filling).1.slots ≠ 0) :
    Holds key (addAll (fun _ => true) requests filling).1.slots k ↔
      Holds key filling.slots k ∨ ∃ request ∈ requests, key request.entry = some k := by
  induction requests generalizing filling with
  | nil => simp [addAll]
  | cons request requests ih =>
      by_cases hfull : idleCount filling.slots = 0
      · rw [addAll_full _ hfull] at hidle
        exact absurd hfull hidle
      · obtain ⟨pos, hpos, hadd⟩ := add_idle (fun _ => true) request.entry hfull
        rw [addAll, hadd] at hidle ⊢
        rw [if_pos rfl] at hidle ⊢
        rw [ih _ hidle, holds_update hpos, List.exists_mem_cons_iff]
        tauto

-- Whatever fails, nothing else is.
theorem requested_of_holds_addAll {requests : List (Request ε)} {filling : Filling n ε}
    (h : Holds key (addAll malloc requests filling).1.slots k) :
    Holds key filling.slots k ∨ ∃ request ∈ requests, key request.entry = some k := by
  induction requests generalizing filling with
  | nil => exact .inl h
  | cons request requests ih =>
      rw [List.exists_mem_cons_iff]
      by_cases hfull : idleCount filling.slots = 0
      · rw [addAll_full _ hfull] at h
        exact .inl h
      · obtain ⟨pos, hpos, hadd⟩ := add_idle malloc request.entry hfull
        rw [addAll, hadd] at h
        by_cases hmalloc : malloc filling.asked = true
        · rw [if_pos hmalloc] at h
          rcases ih h with hold | hrest
          · rcases (holds_update hpos).mp hold with hkey | hold
            · exact .inr (.inl hkey)
            · exact .inl hold
          · exact .inr (.inr hrest)
        · rw [if_neg hmalloc] at h
          dsimp only at h
          split_ifs at h
          · exact .inl h
          · rcases ih h with hold | hrest
            · exact .inl hold
            · exact .inr (.inr hrest)

theorem unique_empty : Unique key (empty : Slots n ε) := by
  intro k pos pos' entry entry' hentry
  simp [empty] at hentry

theorem of_release {chosen : ε → Bool} (h : release chosen slots pos = some entry) :
    slots pos = some entry ∧ chosen entry = false := by
  simpa [release, Option.filter_eq_some_iff] using h

theorem Unique.release {chosen : ε → Bool} (h : Unique key slots) :
    Unique key (release chosen slots) :=
  fun k pos pos' entry entry' hentry hkey hentry' hkey' =>
    h k pos pos' entry entry' (of_release hentry).1 hkey (of_release hentry').1 hkey'

theorem release_of_none {chosen : ε → Bool} (h : ∀ pos, (slots pos).any chosen = false) :
    release chosen slots = slots := by
  funext pos
  have hpos := h pos
  unfold release
  cases hslot : slots pos with
  | none => rfl
  | some entry =>
      rw [hslot] at hpos
      simpa [Option.filter] using hpos

theorem not_holds_release {chosen : ε → Bool} (h : ∀ entry, key entry = some k → chosen entry = true) :
    ¬Holds key (release chosen slots) k := by
  rintro ⟨pos, entry, hentry, hkey⟩
  have hnot := (of_release hentry).2
  rw [h entry hkey] at hnot
  exact Bool.noConfusion hnot

end Slots

end Gopher.Lib
