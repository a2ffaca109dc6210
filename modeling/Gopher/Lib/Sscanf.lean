import Gopher.Lib.Words

-- `sscanf` for formats of strings and decimal numbers without field widths. Each of these
-- conversions skips the blanks in front of it, so the blanks of the format change nothing.

namespace Gopher.Lib

inductive ScanConversion where
  | string
  | number
  deriving DecidableEq

-- A conversion with `*` is matched and not stored.
structure ScanDirective where
  conversion : ScanConversion
  stored : Bool
  deriving DecidableEq

inductive Scanned where
  | text (text : Text)
  | number (n : ℤ)
  deriving DecidableEq

-- "%s" and "%*s"
def ScanDirective.s : ScanDirective := ⟨.string, true⟩
def ScanDirective.skipS : ScanDirective := ⟨.string, false⟩

-- "%lld" or "%llu", whatever the size and the sign, and "%*lld"
def ScanDirective.d : ScanDirective := ⟨.number, true⟩
def ScanDirective.skipD : ScanDirective := ⟨.number, false⟩

-- What a conversion matches of a text without blanks in front, and what remains.
def ScanConversion.scan : ScanConversion → Text → Option (Scanned × Text)
  | .string, text =>
      let word := text.takeWhile fun char => !isBlank char
      if word = [] then none else some (.text word, text.dropWhile fun char => !isBlank char)
  | .number, text => (scanNumber text).map fun found => (.number found.1, found.2)

-- The values stored until a conversion fails or the format ends. Their number is what
-- `sscanf` returns, but for EOF in front of the first one.
def sscanf : List ScanDirective → Text → List Scanned
  | [], _ => []
  | directive :: format, text =>
      match directive.conversion.scan (text.dropWhile isBlank) with
      | none => []
      | some (value, rest) =>
          if directive.stored then value :: sscanf format rest else sscanf format rest

-- The same on the words of the text.
def scanWords : List ScanDirective → List Text → List Scanned
  | [], _ => []
  | _ :: _, [] => []
  | directive :: format, word :: rest =>
      match directive.conversion.scan word with
      | none => []
      | some (value, []) =>
          if directive.stored then value :: scanWords format rest else scanWords format rest
      | some (value, char :: behind) =>
          if directive.stored then value :: scanWords format ((char :: behind) :: rest)
          else scanWords format ((char :: behind) :: rest)

section Words

variable {word back text : Text}

theorem not_isDigit_of_behind (hback : Behind isBlank back) : ∀ char ∈ back.head?, char.isDigit = false := by
  intro char hchar
  cases hdigit : char.isDigit with
  | false => rfl
  | true =>
      have hblank := hback char hchar
      rw [isBlank_of_isDigit hdigit] at hblank
      cases hblank

theorem takeWhile_append_behind {next : Char → Bool} (hback : ∀ char ∈ back.head?, next char = false)
    (word : Text) : (word ++ back).takeWhile next = word.takeWhile next ∧
      (word ++ back).dropWhile next = word.dropWhile next ++ back := by
  induction word with
  | nil =>
      cases back with
      | nil => exact ⟨rfl, rfl⟩
      | cons char back =>
          have hchar := hback char rfl
          simp [hchar]
  | cons char word ih =>
      by_cases hchar : next char = true
      · simp [hchar, ih]
      · simp [hchar]

theorem splitSign_append (hne : word ≠ []) (back : Text) :
    splitSign (word ++ back) = ((splitSign word).1, (splitSign word).2 ++ back) := by
  cases word with
  | nil => exact absurd rfl hne
  | cons char word =>
      rw [List.cons_append, splitSign, splitSign]
      split_ifs <;> rfl

theorem scanNumber_append (hne : word ≠ []) (hback : Behind isBlank back) :
    scanNumber (word ++ back) = (scanNumber word).map fun found => (found.1, found.2 ++ back) := by
  obtain ⟨htake, hdrop⟩ := takeWhile_append_behind (not_isDigit_of_behind hback) (splitSign word).2
  rw [scanNumber, scanNumber, splitSign_append hne]
  simp only [htake, hdrop]
  split_ifs <;> rfl

theorem splitSign_suffix (word : Text) : (splitSign word).2 <:+ word := by
  cases word with
  | nil => exact List.suffix_refl _
  | cons char word =>
      rw [splitSign]
      split_ifs
      · exact List.suffix_cons char word
      · exact List.suffix_cons char word
      · exact List.suffix_refl _

theorem scanNumber_suffix {n : ℤ} {rest : Text} (h : scanNumber word = some (n, rest)) :
    rest <:+ word := by
  rw [scanNumber] at h
  split_ifs at h
  cases h
  exact (List.dropWhile_suffix _).trans (splitSign_suffix word)

theorem takeWhile_not_blank (hword : ∀ char ∈ word, isBlank char = false) :
    word.takeWhile (fun char => !isBlank char) = word ∧
      word.dropWhile (fun char => !isBlank char) = [] := by
  have hall : ∀ char ∈ word, (!isBlank char) = true := fun char hchar => by simp [hword char hchar]
  exact ⟨List.takeWhile_eq_self_iff.mpr hall, List.dropWhile_eq_nil_iff.mpr hall⟩

theorem ScanConversion.scan_append (conversion : ScanConversion)
    (hword : ∀ char ∈ word, isBlank char = false) (hne : word ≠ []) (hback : Behind isBlank back) :
    conversion.scan (word ++ back) =
      (conversion.scan word).map fun found => (found.1, found.2 ++ back) := by
  cases conversion with
  | string =>
      have hnext : ∀ char ∈ back.head?, (!isBlank char) = false :=
        fun char hchar => by simp [hback char hchar]
      obtain ⟨htake, hdrop⟩ := takeWhile_append_behind hnext word
      obtain ⟨hall, hnil⟩ := takeWhile_not_blank hword
      simp only [ScanConversion.scan, htake, hdrop, hall, hnil, if_neg hne]
      rfl
  | number =>
      rw [ScanConversion.scan, ScanConversion.scan, scanNumber_append hne hback, Option.map_map,
        Option.map_map]
      rfl

theorem ScanConversion.scan_suffix {conversion : ScanConversion} {value : Scanned} {rest : Text}
    (h : conversion.scan word = some (value, rest)) : rest <:+ word := by
  cases conversion with
  | string =>
      rw [ScanConversion.scan] at h
      split_ifs at h
      cases h
      exact List.dropWhile_suffix _
  | number =>
      rw [ScanConversion.scan] at h
      obtain ⟨found, hfound, heq⟩ := Option.map_eq_some_iff.mp h
      cases heq
      exact scanNumber_suffix hfound

-- Only the words of the text count.
theorem sscanf_eq (format : List ScanDirective) (text : Text) :
    sscanf format text = scanWords format (words isBlank text) := by
  induction format generalizing text with
  | nil => rfl
  | cons directive format ih =>
      rw [sscanf, ← words_dropWhile]
      have hhead := List.head?_dropWhile_not isBlank text
      generalize text.dropWhile isBlank = text at hhead ⊢
      cases text with
      | nil => cases hconv : directive.conversion <;> rfl
      | cons char rest =>
          have hchar : isBlank char = false := by simpa using hhead
          have hword : ∀ one ∈ (char :: rest).takeWhile (fun one => !isBlank one),
              isBlank one = false := fun one hone => by simpa using List.mem_takeWhile_imp hone
          have hne : (char :: rest).takeWhile (fun one => !isBlank one) ≠ [] := by simp [hchar]
          have hback : Behind isBlank ((char :: rest).dropWhile fun one => !isBlank one) := by
            intro one hone
            have hnot := List.head?_dropWhile_not (fun one => !isBlank one) (char :: rest)
            rw [Option.mem_def.mp hone] at hnot
            simpa using hnot
          rw [words_cons_of_not_sep hchar]
          have hsplit :=
            List.takeWhile_append_dropWhile (p := fun one => !isBlank one) (l := char :: rest)
          generalize (char :: rest).takeWhile (fun one => !isBlank one) = word at hword hne hsplit ⊢
          generalize (char :: rest).dropWhile (fun one => !isBlank one) = back at hback hsplit ⊢
          rw [← hsplit, directive.conversion.scan_append hword hne hback, scanWords]
          cases hscan : directive.conversion.scan word with
          | none => rfl
          | some found =>
              obtain ⟨value, behind⟩ := found
              cases behind with
              | nil => simp only [Option.map_some, List.nil_append, ih]
              | cons one behind =>
                  have hrest : ∀ char ∈ one :: behind, isBlank char = false := fun char hone =>
                    hword char ((ScanConversion.scan_suffix hscan).subset hone)
                  simp only [Option.map_some, ih,
                    words_append_behind hrest (List.cons_ne_nil _ _) hback]

theorem ScanConversion.scan_word (hword : ∀ char ∈ word, isBlank char = false) (hne : word ≠ []) :
    ScanConversion.string.scan word = some (.text word, []) := by
  obtain ⟨hall, hnil⟩ := takeWhile_not_blank hword
  simp only [ScanConversion.scan, hall, hnil, if_neg hne]

theorem ScanConversion.scan_decimalText (n : ℤ) :
    ScanConversion.number.scan (decimalText n) = some (.number n, []) := by
  have hscan : scanNumber (decimalText n ++ []) = some (n, []) :=
    scanNumber_decimalText n (by simp)
  rw [List.append_nil] at hscan
  rw [ScanConversion.scan, hscan, Option.map_some]

variable {directive : ScanDirective} {value : Scanned}

theorem scanWords_cons (hscan : directive.conversion.scan word = some (value, []))
    (format : List ScanDirective) (rest : List Text) :
    scanWords (directive :: format) (word :: rest) =
      if directive.stored then value :: scanWords format rest else scanWords format rest := by
  rw [scanWords, hscan]

@[simp] theorem scanWords_nil (rest : List Text) : scanWords [] rest = [] := rfl

@[simp] theorem scanWords_d (format : List ScanDirective) (n : ℤ) (rest : List Text) :
    scanWords (.d :: format) (decimalText n :: rest) = .number n :: scanWords format rest :=
  scanWords_cons (ScanConversion.scan_decimalText n) format rest

@[simp] theorem scanWords_skipD (format : List ScanDirective) (n : ℤ) (rest : List Text) :
    scanWords (.skipD :: format) (decimalText n :: rest) = scanWords format rest :=
  scanWords_cons (ScanConversion.scan_decimalText n) format rest

theorem scanWords_s (hword : ∀ char ∈ word, isBlank char = false) (hne : word ≠ [])
    (format : List ScanDirective) (rest : List Text) :
    scanWords (.s :: format) (word :: rest) = .text word :: scanWords format rest :=
  scanWords_cons (ScanConversion.scan_word hword hne) format rest

theorem scanWords_skipS (hword : ∀ char ∈ word, isBlank char = false) (hne : word ≠ [])
    (format : List ScanDirective) (rest : List Text) :
    scanWords (.skipS :: format) (word :: rest) = scanWords format rest :=
  scanWords_cons (ScanConversion.scan_word hword hne) format rest

-- What is skipped at the end stores nothing.
theorem scanWords_of_not_stored {format : List ScanDirective}
    (hformat : ∀ directive ∈ format, directive.stored = false) (rest : List Text) :
    scanWords format rest = [] := by
  induction format generalizing rest with
  | nil => rfl
  | cons directive format ih =>
      obtain ⟨hfirst, hbehind⟩ := List.forall_mem_cons.mp hformat
      cases rest with
      | nil => rfl
      | cons word rest =>
          rw [scanWords]
          cases directive.conversion.scan word with
          | none => rfl
          | some found =>
              obtain ⟨value, behind⟩ := found
              cases behind <;> simp only [hfirst, Bool.false_eq_true, if_false, ih hbehind]

end Words

end Gopher.Lib
