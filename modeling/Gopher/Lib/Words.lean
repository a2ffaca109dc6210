import Gopher.Lib.Text
import Mathlib.Algebra.Group.Int.Defs
import Mathlib.Algebra.Group.Nat.Defs
import Mathlib.Data.List.TakeWhile

-- Texts as the words between their separators, and the numbers at the front of a word.

namespace Gopher.Lib

section Words

variable {isSep : Char → Bool} {word text : Text} {sep : Char}

-- What `strtok` gives, one call after the other, until it gives NULL.
def words (isSep : Char → Bool) (text : Text) : List Text :=
  (text.splitOnP isSep).filter fun piece => !piece.isEmpty

@[simp] theorem words_nil : words isSep [] = [] := rfl

theorem words_append_cons (first : Text) (hsep : isSep sep = true) (rest : Text) :
    words isSep (first ++ sep :: rest) = words isSep first ++ words isSep rest := by
  rw [words, List.splitOnP_append_cons first rest hsep, List.filter_append]
  rfl

theorem words_cons_of_sep (hsep : isSep sep = true) (rest : Text) :
    words isSep (sep :: rest) = words isSep rest :=
  words_append_cons [] hsep rest

theorem words_of_no_sep (hword : ∀ char ∈ word, isSep char = false) (hne : word ≠ []) :
    words isSep word = [word] := by
  rw [words, List.splitOnP_eq_singleton hword]
  simp [hne]

theorem words_append_of_seps {seps : Text} (hseps : ∀ char ∈ seps, isSep char = true)
    (rest : Text) : words isSep (seps ++ rest) = words isSep rest := by
  induction seps with
  | nil => rfl
  | cons sep seps ih =>
      rw [List.cons_append, words_cons_of_sep (hseps sep List.mem_cons_self),
        ih fun char hchar => hseps char (List.mem_cons_of_mem sep hchar)]

theorem words_dropWhile (isSep : Char → Bool) (text : Text) :
    words isSep (text.dropWhile isSep) = words isSep text := by
  have hseps : ∀ char ∈ text.takeWhile isSep, isSep char = true :=
    fun char hchar => List.mem_takeWhile_imp hchar
  rw [← words_append_of_seps hseps (text.dropWhile isSep), List.takeWhile_append_dropWhile]

-- The first word and the text behind it.
theorem words_cons_of_not_sep {char : Char} (hchar : isSep char = false) (rest : Text) :
    words isSep (char :: rest) =
      (char :: rest).takeWhile (fun one => !isSep one) ::
        words isSep ((char :: rest).dropWhile fun one => !isSep one) := by
  have hword : ∀ one ∈ (char :: rest).takeWhile (fun one => !isSep one), isSep one = false :=
    fun one hone => by simpa using List.mem_takeWhile_imp hone
  have hne : (char :: rest).takeWhile (fun one => !isSep one) ≠ [] := by simp [hchar]
  have hsplit := List.takeWhile_append_dropWhile (p := fun one => !isSep one) (l := char :: rest)
  have hhead := List.head?_dropWhile_not (fun one => !isSep one) (char :: rest)
  generalize (char :: rest).takeWhile (fun one => !isSep one) = word at hword hne hsplit ⊢
  generalize (char :: rest).dropWhile (fun one => !isSep one) = back at hsplit hhead ⊢
  rw [← hsplit]
  cases back with
  | nil => rw [List.append_nil, words_of_no_sep hword hne, words_nil]
  | cons sep back =>
      have hsep : isSep sep = true := by simpa using hhead
      rw [words_append_cons _ hsep, words_of_no_sep hword hne, words_cons_of_sep hsep]
      rfl

-- What follows a word: nothing, or a separator.
def Behind (isSep : Char → Bool) (back : Text) : Prop := ∀ char ∈ back.head?, isSep char = true

theorem words_append_behind {back : Text} (hword : ∀ char ∈ word, isSep char = false)
    (hne : word ≠ []) (hback : Behind isSep back) :
    words isSep (word ++ back) = word :: words isSep back := by
  cases back with
  | nil => rw [List.append_nil, words_of_no_sep hword hne, words_nil]
  | cons char back =>
      have hchar : isSep char = true := hback char rfl
      rw [words_append_cons word hchar, words_of_no_sep hword hne, words_cons_of_sep hchar]
      rfl

theorem behind_columns {back : Text} (hsep : isSep sep = true) (columns : List Text)
    (hback : Behind isSep back) :
    Behind isSep (columns.flatMap (fun column => sep :: column) ++ back) := by
  cases columns with
  | nil => exact hback
  | cons column columns =>
      rintro char hchar
      cases hchar
      exact hsep

theorem Behind.take {back : Text} (hback : Behind isSep back) (size : ℕ) :
    Behind isSep (back.take size) := by
  cases size with
  | zero => rintro char hchar; cases hchar
  | succ size =>
      cases back with
      | nil => exact hback
      | cons char back => exact hback

-- Words with a separator in front of each.
theorem words_columns {columns : List Text} {back : Text} (hsep : isSep sep = true)
    (hcolumns : ∀ column ∈ columns, (∀ char ∈ column, isSep char = false) ∧ column ≠ [])
    (hback : Behind isSep back) :
    words isSep (columns.flatMap (fun column => sep :: column) ++ back) =
      columns ++ words isSep back := by
  induction columns with
  | nil => rfl
  | cons column columns ih =>
      obtain ⟨⟨hword, hne⟩, hrest⟩ := List.forall_mem_cons.mp hcolumns
      rw [List.flatMap_cons, List.cons_append, List.cons_append, words_cons_of_sep hsep,
        List.append_assoc, words_append_behind hword hne (behind_columns hsep columns hback),
        ih hrest]
      rfl

-- Nothing but separators gets lost.
theorem exists_mem_words {char : Char} (hmem : char ∈ text) (hchar : isSep char = false) :
    ∃ word ∈ words isSep text, char ∈ word := by
  have hpiece : ∃ piece ∈ text.splitOnP isSep, char ∈ piece := by
    induction text with
    | nil => cases hmem
    | cons first text ih =>
        obtain ⟨head, pieces, hsplit⟩ := List.exists_cons_of_ne_nil
          (List.splitOnP_ne_nil isSep text)
        rw [List.splitOnP_cons_eq_if_modifyHead, hsplit]
        rw [hsplit] at ih
        rcases List.mem_cons.mp hmem with rfl | hmem
        · rw [if_neg (by simp [hchar])]
          exact ⟨char :: head, List.mem_cons_self, List.mem_cons_self⟩
        · obtain ⟨piece, hpiece, hin⟩ := ih hmem
          split_ifs
          · exact ⟨piece, List.mem_cons_of_mem _ hpiece, hin⟩
          · rcases List.mem_cons.mp hpiece with rfl | hpiece
            · exact ⟨first :: piece, List.mem_cons_self, List.mem_cons_of_mem _ hin⟩
            · exact ⟨piece, List.mem_cons_of_mem _ hpiece, hin⟩
  obtain ⟨piece, hpiece, hin⟩ := hpiece
  refine ⟨piece, List.mem_filter.mpr ⟨hpiece, ?_⟩, hin⟩
  cases piece with
  | nil => cases hin
  | cons first piece => rfl

-- And nothing is made up.
theorem mem_of_mem_words {char : Char} (hword : word ∈ words isSep text) (hchar : char ∈ word) :
    char ∈ text := by
  have hpiece : word ∈ text.splitOnP isSep := (List.mem_filter.mp hword).1
  clear hword
  induction text generalizing word with
  | nil =>
      rw [List.splitOnP_nil, List.mem_singleton] at hpiece
      rwa [hpiece] at hchar
  | cons first text ih =>
      obtain ⟨head, pieces, hsplit⟩ := List.exists_cons_of_ne_nil (List.splitOnP_ne_nil isSep text)
      rw [List.splitOnP_cons_eq_if_modifyHead, hsplit] at hpiece
      rw [hsplit] at ih
      split_ifs at hpiece
      · rcases List.mem_cons.mp hpiece with rfl | hpiece
        · cases hchar
        · exact List.mem_cons_of_mem _ (ih hchar hpiece)
      · rcases List.mem_cons.mp hpiece with rfl | hpiece
        · rcases List.mem_cons.mp hchar with rfl | hchar
          · exact List.mem_cons_self
          · exact List.mem_cons_of_mem _ (ih hchar List.mem_cons_self)
        · exact List.mem_cons_of_mem _ (ih hchar (List.mem_cons_of_mem _ hpiece))

end Words

section Numbers

-- `isspace` in the locale a program starts in.
def isBlank (char : Char) : Bool := [' ', '\t', '\n', '\x0b', '\x0c', '\r'].contains char

-- "%lld"
def decimalText (n : ℤ) : Text :=
  if n < 0 then '-' :: Nat.toDigits 10 n.natAbs else Nat.toDigits 10 n.natAbs

-- A sign, when there is one, and what follows it.
def splitSign : Text → ℤ × Text
  | [] => (1, [])
  | char :: text =>
      if char = '-' then (-1, text) else if char = '+' then (1, text) else (1, char :: text)

-- The number at the front of a text and what stands behind it; `none` without a digit.
def scanNumber (text : Text) : Option (ℤ × Text) :=
  let signed := splitSign text
  let digits := signed.2.takeWhile Char.isDigit
  if digits = [] then none
  else some (signed.1 * Nat.ofDigitChars 10 digits 0, signed.2.dropWhile Char.isDigit)

-- The `long long` that `strtoll` makes of a number.
def clampS64 (n : ℤ) : ℤ := max (-2 ^ 63) (min n (2 ^ 63 - 1))

-- The `unsigned long long` that `strtoull` makes of it, with the sign applied last.
def clampU64 (n : ℤ) : UInt64 :=
  if n.natAbs < 2 ^ 64 then UInt64.ofInt n else UInt64.ofNat (2 ^ 64 - 1)

def atoll (text : Text) : ℤ :=
  match scanNumber (text.dropWhile isBlank) with
  | none => 0
  | some (n, _) => clampS64 n

variable {n : ℤ} {text rest : Text}

theorem isDigit_of_mem_toDigits {n : ℕ} {char : Char} (hchar : char ∈ Nat.toDigits 10 n) :
    char.isDigit = true :=
  Nat.isDigit_of_mem_toDigits (by decide) (by decide) hchar

theorem mem_decimalText {char : Char} (hchar : char ∈ decimalText n) :
    char = '-' ∨ char.isDigit = true := by
  rw [decimalText] at hchar
  split at hchar
  · exact (List.mem_cons.mp hchar).imp_right isDigit_of_mem_toDigits
  · exact .inr (isDigit_of_mem_toDigits hchar)

theorem decimalText_ne_nil (n : ℤ) : decimalText n ≠ [] := by
  rw [decimalText]
  split
  · exact List.cons_ne_nil _ _
  · exact Nat.toDigits_ne_nil

theorem isBlank_of_isDigit {char : Char} (hchar : char.isDigit = true) : isBlank char = false := by
  rw [Bool.eq_false_iff]
  intro hblank
  simp only [isBlank, List.contains_eq_mem, decide_eq_true_eq, List.mem_cons, List.not_mem_nil,
    or_false] at hblank
  rcases hblank with rfl | rfl | rfl | rfl | rfl | rfl <;> exact absurd hchar (by decide)

theorem isBlank_of_mem_decimalText {char : Char} (hchar : char ∈ decimalText n) :
    isBlank char = false := by
  rcases mem_decimalText hchar with rfl | hdigit
  · rfl
  · exact isBlank_of_isDigit hdigit

-- The digits a number is printed with, in front of something else.
theorem takeWhile_toDigits (n : ℕ) (hrest : ∀ char ∈ rest.head?, char.isDigit = false) :
    (Nat.toDigits 10 n ++ rest).takeWhile Char.isDigit = Nat.toDigits 10 n ∧
      (Nat.toDigits 10 n ++ rest).dropWhile Char.isDigit = rest := by
  have hdigits : ∀ char ∈ Nat.toDigits 10 n, char.isDigit = true :=
    fun char hchar => isDigit_of_mem_toDigits hchar
  rw [List.takeWhile_append_of_pos hdigits, List.dropWhile_append_of_pos hdigits]
  cases rest with
  | nil => simp
  | cons char rest =>
      have hchar : char.isDigit = false := hrest char rfl
      simp [hchar]

theorem splitSign_toDigits (n : ℕ) :
    splitSign (Nat.toDigits 10 n ++ rest) = (1, Nat.toDigits 10 n ++ rest) := by
  cases htext : Nat.toDigits 10 n with
  | nil => exact absurd htext Nat.toDigits_ne_nil
  | cons char digits =>
      have hchar : char.isDigit = true :=
        isDigit_of_mem_toDigits (by rw [htext]; exact List.mem_cons_self)
      have hminus : char ≠ '-' := by rintro rfl; exact absurd hchar (by decide)
      have hplus : char ≠ '+' := by rintro rfl; exact absurd hchar (by decide)
      rw [List.cons_append, splitSign, if_neg hminus, if_neg hplus]

-- What is printed is read back.
theorem scanNumber_decimalText (n : ℤ) (hrest : ∀ char ∈ rest.head?, char.isDigit = false) :
    scanNumber (decimalText n ++ rest) = some (n, rest) := by
  obtain ⟨htake, hdrop⟩ := takeWhile_toDigits n.natAbs hrest
  have hne : Nat.toDigits 10 n.natAbs ≠ [] := Nat.toDigits_ne_nil
  by_cases hneg : n < 0
  · have hsign : splitSign (decimalText n ++ rest) = (-1, Nat.toDigits 10 n.natAbs ++ rest) := by
      rw [decimalText, if_pos hneg, List.cons_append, splitSign, if_pos rfl]
    rw [scanNumber, hsign]
    simp only [htake, hdrop, if_neg hne, Nat.ofDigitChars_ten_toDigits]
    congr 2
    omega
  · have hsign : splitSign (decimalText n ++ rest) = (1, Nat.toDigits 10 n.natAbs ++ rest) := by
      rw [decimalText, if_neg hneg, splitSign_toDigits]
    rw [scanNumber, hsign]
    simp only [htake, hdrop, if_neg hne, Nat.ofDigitChars_ten_toDigits]
    congr 2
    omega

theorem dropWhile_blank_decimalText (n : ℤ) (rest : Text) :
    (decimalText n ++ rest).dropWhile isBlank = decimalText n ++ rest := by
  cases htext : decimalText n with
  | nil => exact absurd htext (decimalText_ne_nil n)
  | cons char text =>
      have hchar : isBlank char = false :=
        isBlank_of_mem_decimalText (n := n) (by rw [htext]; exact List.mem_cons_self)
      rw [List.cons_append, List.dropWhile_cons_of_neg (by simp [hchar])]

theorem atoll_decimalText (n : ℤ) (hrest : ∀ char ∈ rest.head?, char.isDigit = false) :
    atoll (decimalText n ++ rest) = clampS64 n := by
  rw [atoll, dropWhile_blank_decimalText, scanNumber_decimalText n hrest]

theorem clampS64_of_mem (hlow : -2 ^ 63 ≤ n) (hhigh : n < 2 ^ 63) : clampS64 n = n := by
  rw [clampS64]
  omega

theorem clampU64_ofNat {n : ℕ} (hn : n < 2 ^ 64) : clampU64 n = UInt64.ofNat n := by
  rw [clampU64, if_pos (by simpa using hn)]
  apply UInt64.toNat_inj.mp
  simp only [UInt64.ofInt, UInt64.toNat_ofNat']
  omega

end Numbers

end Gopher.Lib
