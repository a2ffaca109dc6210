import Gopher.Lib.Text
import Mathlib.Tactic.SplitIfs

namespace Gopher.Lib

-- The lines `fgets` gives until the end of the input.
def fgetsLoop (size : Nat) : (fuel : Nat) → Text → List Text
  | 0, _ => []
  | fuel + 1, input =>
      match fgets size input with
      | none => []
      | some (line, rest) => line :: fgetsLoop size fuel rest

def fgetsAll (size : Nat) (input : Text) : List Text := fgetsLoop size input.length input

-- A line that more input would not lengthen.
def CompleteLine (size : Nat) (line : Text) : Prop :=
  line.getLast? = some '\n' ∨ line.length = size - 1

instance (size : Nat) (line : Text) : Decidable (CompleteLine size line) :=
  inferInstanceAs (Decidable (_ ∨ _))

def EndsComplete (size : Nat) (input : Text) : Prop :=
  ∀ line ∈ (fgetsAll size input).getLast?, CompleteLine size line

instance (size : Nat) (input : Text) : Decidable (EndsComplete size input) :=
  inferInstanceAs (Decidable (∀ line ∈ (fgetsAll size input).getLast?, CompleteLine size line))

variable {size room : Nat} {input first second : Text}

theorem lineLength_pos {c : Char} : 0 < lineLength (room + 1) (c :: input) := by
  rw [lineLength]
  split <;> omega

theorem lineLength_le (room : Nat) (input : Text) : lineLength room input ≤ input.length := by
  induction input generalizing room with
  | nil => cases room <;> exact Nat.le_refl 0
  | cons c input ih =>
      cases room with
      | zero => exact Nat.zero_le _
      | succ room =>
          have hle := ih room
          rw [lineLength, List.length_cons]
          split <;> omega

theorem lineLength_append (h : lineLength room first < first.length ∨
      (first.take (lineLength room first)).getLast? = some '\n' ∨ lineLength room first = room) :
    lineLength room (first ++ second) = lineLength room first := by
  induction first generalizing room with
  | nil =>
      cases room with
      | zero => cases second <;> rfl
      | succ room => simp [lineLength] at h
  | cons c first ih =>
      cases room with
      | zero => rfl
      | succ room =>
          rw [List.cons_append, lineLength, lineLength]
          rw [lineLength] at h
          split_ifs at h ⊢ with hc
          · rfl
          · rw [ih]
            rw [List.length_cons, List.take_succ_cons] at h
            rcases h with hlt | hlast | hroom
            · exact .inl (by omega)
            · refine .inr (.inl ?_)
              cases htake : first.take (lineLength room first) with
              | nil =>
                  rw [htake] at hlast
                  exact absurd (Option.some.inj hlast) hc
              | cons d rest =>
                  rw [htake] at hlast
                  rwa [List.getLast?_cons_cons] at hlast
            · exact .inr (.inr (by omega))

theorem fgets_of_ne_nil (size : Nat) (h : input ≠ []) : fgets size input =
    some (input.take (lineLength (size - 1) input), input.drop (lineLength (size - 1) input)) := by
  rw [fgets, if_neg h]

theorem length_drop_lt (hsize : 2 ≤ size) (h : input ≠ []) :
    (input.drop (lineLength (size - 1) input)).length < input.length := by
  obtain ⟨room, hroom⟩ := Nat.exists_eq_succ_of_ne_zero (show size - 1 ≠ 0 by omega)
  cases input with
  | nil => exact absurd rfl h
  | cons c input =>
      have hpos : 0 < lineLength (size - 1) (c :: input) := by
        rw [hroom]
        exact lineLength_pos
      rw [List.length_drop]
      simp only [List.length_cons]
      omega

-- More fuel than characters is not needed, as each line has at least one.
theorem fgetsLoop_eq (hsize : 2 ≤ size) {fuel : Nat} (hfuel : input.length ≤ fuel) :
    fgetsLoop size fuel input = fgetsAll size input := by
  suffices hstep : ∀ (fuel other : Nat) (input : Text), input.length ≤ fuel →
      input.length ≤ other → fgetsLoop size fuel input = fgetsLoop size other input from
    hstep fuel _ input hfuel (Nat.le_refl _)
  intro fuel
  induction fuel with
  | zero =>
      intro other input hfuel _
      have hnil : input = [] := List.length_eq_zero_iff.mp (by omega)
      subst hnil
      cases other <;> rfl
  | succ fuel ih =>
      intro other input hfuel hother
      by_cases hnil : input = []
      · subst hnil
        cases other <;> rfl
      · have hlt := length_drop_lt hsize hnil
        have hpos := List.length_pos_iff.mpr hnil
        cases other with
        | zero => omega
        | succ other =>
            simp only [fgetsLoop, fgets_of_ne_nil size hnil]
            rw [ih other _ (by omega) (by omega)]

theorem fgetsAll_of_ne_nil (hsize : 2 ≤ size) (h : input ≠ []) : fgetsAll size input =
    input.take (lineLength (size - 1) input) ::
      fgetsAll size (input.drop (lineLength (size - 1) input)) := by
  have hlt := length_drop_lt hsize h
  obtain ⟨fuel, hfuel⟩ := Nat.exists_eq_succ_of_ne_zero (show input.length ≠ 0 by omega)
  rw [fgetsAll, hfuel, Nat.succ_eq_add_one, fgetsLoop, fgets_of_ne_nil size h]
  simp only
  rw [fgetsLoop_eq hsize (by omega)]

-- Lines are read the same whether what follows the last one is there or not.
theorem fgetsAll_append (hsize : 2 ≤ size) (h : EndsComplete size first) :
    fgetsAll size (first ++ second) = fgetsAll size first ++ fgetsAll size second := by
  generalize hlen : first.length = length
  induction length using Nat.strongRecOn generalizing first with
  | ind length ih =>
      by_cases hnil : first = []
      · subst hnil
        rfl
      · have hlt := length_drop_lt hsize hnil
        have hle := lineLength_le (size - 1) first
        have hall := fgetsAll_of_ne_nil hsize hnil
        have hsame : lineLength (size - 1) (first ++ second) = lineLength (size - 1) first := by
          apply lineLength_append
          by_cases hend : lineLength (size - 1) first < first.length
          · exact .inl hend
          · have hdrop : first.drop (lineLength (size - 1) first) = [] :=
              List.drop_eq_nil_of_le (by omega)
            have hcomplete : CompleteLine size (first.take (lineLength (size - 1) first)) := by
              apply h
              rw [hall, hdrop]
              rfl
            rcases hcomplete with hlast | hlength
            · exact .inr (.inl hlast)
            · rw [List.length_take] at hlength
              exact .inr (.inr (by omega))
        have hrest : EndsComplete size (first.drop (lineLength (size - 1) first)) := by
          intro line hline
          apply h
          rw [hall]
          cases htail : fgetsAll size (first.drop (lineLength (size - 1) first)) with
          | nil =>
              rw [htail] at hline
              cases hline
          | cons head tail =>
              rw [htail] at hline
              rwa [List.getLast?_cons_cons]
        rw [fgetsAll_of_ne_nil hsize (by simp [hnil]), hsame, List.take_append_of_le_length hle,
          List.drop_append_of_le_length hle, ih _ (hlen ▸ hlt) hrest rfl, hall, List.cons_append]

end Gopher.Lib
