import Gopher.Lib.Fgets
import Mathlib.Data.List.Perm.Subperm

namespace Gopher.Lib

-- The lines of a text that are closed by a newline.
def completeLines (text : List Char) : List (List Char) :=
  (text.splitOn '\n').dropLast

def printed (lines : List (List Char)) : List Char :=
  lines.flatMap (· ++ ['\n'])

@[simp] theorem printed_nil : printed [] = [] := rfl

@[simp] theorem printed_cons (line : List Char) (lines : List (List Char)) :
    printed (line :: lines) = line ++ '\n' :: printed lines := by
  simp [printed]

@[simp] theorem printed_append (lines rest : List (List Char)) :
    printed (lines ++ rest) = printed lines ++ printed rest :=
  List.flatMap_append

theorem printed_eq_nil_iff (lines : List (List Char)) : (printed lines).length = 0 ↔ lines = [] := by
  cases lines <;> simp

-- Reading the lines back.
theorem completeLines_printed {lines : List (List Char)} (hlines : ∀ line ∈ lines, '\n' ∉ line) :
    completeLines (printed lines) = lines := by
  have hsplit : (printed lines).splitOn '\n' = lines ++ [[]] := by
    induction lines with
    | nil => rfl
    | cons line lines ih =>
        have hline := hlines line (by simp)
        rw [printed_cons, List.splitOn_append_cons_self_of_not_mem hline,
          ih fun line hmem => hlines line (by simp [hmem])]
        rfl
  rw [completeLines, hsplit, List.dropLast_concat]

theorem not_mem_splitOn (text : List Char) {line : List Char} (hline : line ∈ text.splitOn '\n') :
    '\n' ∉ line := by
  induction text generalizing line with
  | nil => simp_all
  | cons head text ih =>
      rw [List.splitOn_cons_eq_if_modifyHead] at hline
      split_ifs at hline with hhead
      · obtain rfl | hmem := List.mem_cons.mp hline
        · simp
        · exact ih hmem
      · cases hsplit : text.splitOn '\n' with
        | nil => simp [hsplit] at hline
        | cons first others =>
            rw [hsplit, List.modifyHead_cons, List.mem_cons] at hline
            obtain rfl | hmem := hline
            · have hfirst : '\n' ∉ first := ih (by simp [hsplit])
              have hne : head ≠ '\n' := by simpa using hhead
              simp [hfirst, hne.symm]
            · exact ih (by simp [hsplit, hmem])

theorem not_mem_completeLines {text line : List Char} (hline : line ∈ completeLines text) :
    '\n' ∉ line :=
  not_mem_splitOn text (List.dropLast_subset _ hline)

theorem flatMap_sublist {α β : Type*} {f g : α → List β} {items : List α}
    (hbegins : ∀ item ∈ items, f item <+: g item) : (items.flatMap f).Sublist (items.flatMap g) := by
  induction items with
  | nil => simp
  | cons item items ih =>
      rw [List.flatMap_cons, List.flatMap_cons]
      exact (hbegins item (by simp)).sublist.append
        (ih fun other hother => hbegins other (by simp [hother]))

theorem flatMap_eq_iff_of_prefix {α β : Type*} {f g : α → List β} {items : List α}
    (hbegins : ∀ item ∈ items, f item <+: g item) :
    items.flatMap f = items.flatMap g ↔ ∀ item ∈ items, f item = g item := by
  induction items with
  | nil => simp
  | cons item items ih =>
      have hitem := hbegins item (by simp)
      have hothers := fun other hother => hbegins other (List.mem_cons_of_mem item hother)
      rw [List.flatMap_cons, List.flatMap_cons, List.forall_mem_cons, ← ih hothers]
      constructor
      · intro he
        have hsum := congrArg List.length he
        have hle := hitem.length_le
        have hrest := (flatMap_sublist hothers).length_le
        simp only [List.length_append] at hsum
        have hfirst : f item = g item := hitem.eq_of_length (by omega)
        rw [hfirst] at he
        exact ⟨hfirst, List.append_cancel_left he⟩
      · rintro ⟨hfirst, hrest⟩
        rw [hfirst, hrest]

-- Printed lines are found again as complete lines exactly when none is left out
-- and none is broken by a newline of its own.
theorem subperm_completeLines_iff {all out lines : List (List Char)} (hne : ∀ line ∈ all, line ≠ [])
    (hsub : out.Sublist all) (hfilter : lines.filter (· ≠ []) = out.filter (· ≠ [])) :
    all.Subperm (completeLines (printed lines)) ↔ out = all ∧ ∀ line ∈ all, '\n' ∉ line := by
  have hall : all.filter (· ≠ []) = all := List.filter_eq_self.mpr (by simpa using hne)
  have hout : out.filter (· ≠ []) = out :=
    List.filter_eq_self.mpr (by simpa using fun line hline => hne line (hsub.subset hline))
  have hclean : (∀ line ∈ all, '\n' ∉ line) → completeLines (printed lines) = lines := by
    intro hnewline
    apply completeLines_printed
    intro line hline
    by_cases hnil : line = []
    · simp [hnil]
    · have hmem : line ∈ lines.filter (· ≠ []) := by simp [hline, hnil]
      rw [hfilter, hout] at hmem
      exact hnewline line (hsub.subset hmem)
  constructor
  · intro hperm
    have hnewline : ∀ line ∈ all, '\n' ∉ line :=
      fun line hline => not_mem_completeLines (hperm.subset hline)
    rw [hclean hnewline] at hperm
    have hlength := (hperm.filter (· ≠ [])).length_le
    rw [hall, hfilter, hout] at hlength
    exact ⟨hsub.eq_of_length_le hlength, hnewline⟩
  · rintro ⟨rfl, hnewline⟩
    rw [hclean hnewline, ← hout, ← hfilter]
    exact List.filter_sublist.subperm

variable {size : ℕ} {line text rest : Text}

theorem intercalate_concat (lines : List Text) (last : Text) :
    ['\n'].intercalate (lines ++ [last]) = printed lines ++ last := by
  induction lines with
  | nil => simp
  | cons line lines ih =>
      rw [List.cons_append, List.intercalate_cons_of_ne_nil (by simp), ih, printed_cons]
      simp

-- A text is its lines and what follows the last newline.
theorem exists_printed_completeLines (text : Text) :
    ∃ last, text = printed (completeLines text) ++ last ∧ '\n' ∉ last := by
  have hne : text.splitOn '\n' ≠ [] := List.splitOn_ne_nil '\n' text
  refine ⟨(text.splitOn '\n').getLast hne, ?_, not_mem_splitOn text (List.getLast_mem hne)⟩
  rw [completeLines, ← intercalate_concat, List.dropLast_concat_getLast,
    List.intercalate_splitOn]

theorem completeLines_of_not_mem (htext : '\n' ∉ text) : completeLines text = [] := by
  rw [completeLines, List.splitOn_eq_singleton htext]
  rfl

theorem completeLines_cons (hline : '\n' ∉ line) (rest : Text) :
    completeLines (line ++ '\n' :: rest) = line :: completeLines rest := by
  rw [completeLines, List.splitOn_append_cons_self_of_not_mem hline,
    List.dropLast_cons_of_ne_nil (List.splitOn_ne_nil '\n' rest)]
  rfl

theorem lineLength_le_room (room : ℕ) (text : Text) : lineLength room text ≤ room := by
  induction text generalizing room with
  | nil => cases room <;> simp [lineLength]
  | cons c text ih =>
      cases room with
      | zero => simp [lineLength]
      | succ room =>
          have hle := ih room
          rw [lineLength]
          split <;> omega

theorem lineLength_line (room : ℕ) (hline : '\n' ∉ line) :
    lineLength room (line ++ ['\n']) = min room (line.length + 1) := by
  induction line generalizing room with
  | nil => cases room <;> simp [lineLength]
  | cons c line ih =>
      rw [List.mem_cons, not_or] at hline
      cases room with
      | zero => simp [lineLength]
      | succ room =>
          rw [List.cons_append, lineLength, if_neg (Ne.symm hline.1), ih room hline.2,
            List.length_cons]
          omega

-- The first piece of a text lies in its first line.
theorem fgets_line (size : ℕ) (hline : '\n' ∉ line) (rest : Text) :
    ∃ left, fgets size (line ++ '\n' :: rest) = some ((line ++ ['\n']).take (size - 1), left) := by
  have hlength : (line ++ ['\n']).length = line.length + 1 := List.length_append
  have hfirst := lineLength_line (size - 1) hline
  have hpiece : lineLength (size - 1) (line ++ '\n' :: rest) = min (size - 1) (line.length + 1) := by
    rw [List.append_cons, lineLength_append, hfirst]
    rw [hfirst, hlength]
    by_cases hroom : line.length + 1 ≤ size - 1
    · rw [Nat.min_eq_right hroom, List.take_of_length_le (Nat.le_of_eq hlength),
        List.getLast?_concat]
      exact .inr (.inl rfl)
    · exact .inr (.inr (Nat.min_eq_left (by omega)))
  have htake : (line ++ '\n' :: rest).take (min (size - 1) (line.length + 1)) =
      (line ++ ['\n']).take (size - 1) := by
    rw [List.append_cons, List.take_append_of_le_length (by rw [hlength]; exact Nat.min_le_right _ _),
      ← hlength, ← List.take_take, List.take_length]
  exact ⟨_, by rw [fgets_of_ne_nil size (by simp), hpiece, htake]⟩

-- A line that has room is read whole.
theorem fgetsAll_line_of_lt (hsize : 2 ≤ size) (hline : '\n' ∉ line)
    (hroom : line.length < size - 1) : fgetsAll size (line ++ ['\n']) = [line ++ ['\n']] := by
  have hlength : lineLength (size - 1) (line ++ ['\n']) = (line ++ ['\n']).length := by
    rw [lineLength_line _ hline, List.length_append, List.length_singleton]
    omega
  rw [fgetsAll_of_ne_nil hsize (by simp), hlength, List.take_length, List.drop_length]
  rfl

-- A longer one loses its first piece, and what remains is read like a line of its own.
theorem fgetsAll_line_of_le (hsize : 2 ≤ size) (hline : '\n' ∉ line)
    (hlong : size - 1 ≤ line.length) :
    fgetsAll size (line ++ ['\n']) =
      line.take (size - 1) :: fgetsAll size (line.drop (size - 1) ++ ['\n']) := by
  have hlength : lineLength (size - 1) (line ++ ['\n']) = size - 1 := by
    rw [lineLength_line _ hline]
    omega
  rw [fgetsAll_of_ne_nil hsize (by simp), hlength, List.take_append_of_le_length hlong,
    List.drop_append_of_le_length hlong]

theorem endsComplete_line (hsize : 2 ≤ size) (hline : '\n' ∉ line) :
    EndsComplete size (line ++ ['\n']) := by
  generalize hlength : line.length = length
  induction length using Nat.strongRecOn generalizing line with
  | ind length ih =>
      by_cases hroom : line.length < size - 1
      · rw [EndsComplete, fgetsAll_line_of_lt hsize hline hroom]
        simp [CompleteLine]
      · have hdrop : '\n' ∉ line.drop (size - 1) := fun h => hline (List.mem_of_mem_drop h)
        have hrest := ih (length - (size - 1)) (by omega) hdrop (by simp [hlength])
        rw [EndsComplete, fgetsAll_line_of_le hsize hline (by omega)]
        intro piece hpiece
        apply hrest piece
        rwa [List.getLast?_cons_of_ne_nil] at hpiece
        rw [fgetsAll_of_ne_nil hsize (by simp)]
        exact List.cons_ne_nil _ _

-- The pieces of a text are those of its lines, one line after the other.
theorem fgetsAll_printed (hsize : 2 ≤ size) {lines : List Text}
    (hlines : ∀ line ∈ lines, '\n' ∉ line) (last : Text) :
    fgetsAll size (printed lines ++ last) =
      lines.flatMap (fun line => fgetsAll size (line ++ ['\n'])) ++ fgetsAll size last := by
  induction lines with
  | nil => rfl
  | cons line lines ih =>
      have hline := hlines line List.mem_cons_self
      have hfirst : printed (line :: lines) ++ last =
          (line ++ ['\n']) ++ (printed lines ++ last) := by simp
      rw [hfirst, fgetsAll_append hsize (endsComplete_line hsize hline),
        ih fun other hother => hlines other (List.mem_cons_of_mem line hother),
        List.flatMap_cons, List.append_assoc]

-- Lines that all have room.
theorem fgetsAll_append_of_lt (hsize : 2 ≤ size) {lines : List Text}
    (hlines : ∀ line ∈ lines, '\n' ∉ line ∧ line.length < size - 1) (last : Text) :
    fgetsAll size (printed lines ++ last) =
      (lines.map fun line => line ++ ['\n']) ++ fgetsAll size last := by
  rw [fgetsAll_printed hsize (fun line hline => (hlines line hline).1), List.map_eq_flatMap,
    List.flatMap_congr fun line hline =>
      fgetsAll_line_of_lt hsize (hlines line hline).1 (hlines line hline).2]

theorem fgetsAll_printed_of_lt (hsize : 2 ≤ size) {lines : List Text}
    (hlines : ∀ line ∈ lines, '\n' ∉ line ∧ line.length < size - 1) :
    fgetsAll size (printed lines) = lines.map fun line => line ++ ['\n'] := by
  rw [← List.append_nil (printed lines), fgetsAll_append_of_lt hsize hlines]
  exact List.append_nil _

-- A piece is the first line of what was left of the text.
theorem exists_suffix_of_mem_fgetsAll (hsize : 2 ≤ size) {piece : Text}
    (hpiece : piece ∈ fgetsAll size text) :
    ∃ rest, rest <:+ text ∧ piece = rest.take (lineLength (size - 1) rest) := by
  generalize hlength : text.length = length
  induction length using Nat.strongRecOn generalizing text with
  | ind length ih =>
      by_cases hnil : text = []
      · subst hnil
        cases hpiece
      · rw [fgetsAll_of_ne_nil hsize hnil, List.mem_cons] at hpiece
        rcases hpiece with rfl | hpiece
        · exact ⟨text, List.suffix_refl text, rfl⟩
        · have hlt := length_drop_lt hsize hnil
          obtain ⟨rest, hrest, heq⟩ := ih _ (hlength ▸ hlt) hpiece rfl
          exact ⟨rest, hrest.trans (List.drop_suffix _ _), heq⟩

theorem mem_of_mem_fgetsAll (hsize : 2 ≤ size) {piece : Text} {c : Char}
    (hpiece : piece ∈ fgetsAll size text) (hc : c ∈ piece) : c ∈ text := by
  obtain ⟨rest, hrest, rfl⟩ := exists_suffix_of_mem_fgetsAll hsize hpiece
  exact hrest.subset (List.mem_of_mem_take hc)

theorem length_le_of_mem_fgetsAll (hsize : 2 ≤ size) {piece : Text}
    (hpiece : piece ∈ fgetsAll size text) : piece.length ≤ size - 1 := by
  obtain ⟨rest, -, rfl⟩ := exists_suffix_of_mem_fgetsAll hsize hpiece
  exact Nat.le_trans (List.length_take_le _ _) (lineLength_le_room _ _)

end Gopher.Lib
