import Gopher.Lib.Fgets
import Mathlib.Algebra.Group.Nat.Defs
import Mathlib.Data.Int.Notation
import Mathlib.Data.List.Induction
import Mathlib.Data.Nat.Notation
import Mathlib.Tactic.SplitIfs

namespace Gopher.Elf

open Gopher.Lib

def LINE_BUF_LEN : ℕ := 512
def JAVASYMB_NAME_LEN : ℕ := 128
def SYMBS_MAX_COUNT : ℕ := 1000000
def SYMBS_STEP_COUNT : ℕ := 1000

def isSpace (char : Char) : Bool :=
  [' ', '\t', '\n', '\x0b', '\x0c', '\r'].contains char

def hexValue (char : Char) : Option ℕ :=
  if '0' ≤ char ∧ char ≤ '9' then some (char.toNat - '0'.toNat)
  else if 'a' ≤ char ∧ char ≤ 'f' then some (char.toNat - 'a'.toNat + 10)
  else if 'A' ≤ char ∧ char ≤ 'F' then some (char.toNat - 'A'.toNat + 10)
  else none

def isHexDigit (char : Char) : Bool := (hexValue char).isSome

def splitSign (s : Text) : Bool × Text :=
  if s.head? = some '-' then (true, s.tail)
  else if s.head? = some '+' then (false, s.tail)
  else (false, s)

-- `0x` counts only with a digit behind it.
def dropHexPrefix (s : Text) : Text :=
  if s[0]? = some '0' ∧ (s[1]? = some 'x' ∨ s[1]? = some 'X') ∧ s[2]?.any isHexDigit then s.drop 2
  else s

def ULLONG_MAX : ℕ := 2 ^ 64 - 1

def hexNumber (negative : Bool) (digits : Text) : UInt64 :=
  let value := digits.foldl (fun value digit => 16 * value + (hexValue digit).getD 0) 0
  if value > ULLONG_MAX then UInt64.ofNat ULLONG_MAX
  else if negative then -UInt64.ofNat value else UInt64.ofNat value

-- `strtoull(s, &end, 16)` with what stands at `end`.
def strtoull (s : Text) : UInt64 × Text :=
  let (negative, number) := splitSign (s.dropWhile isSpace)
  let digits := (dropHexPrefix number).takeWhile isHexDigit
  if digits = [] then (0, s)
  else (hexNumber negative digits, (dropHexPrefix number).dropWhile isHexDigit)

structure Symb where
  symbName : Text
  start : UInt64
  size : UInt64
  deriving DecidableEq, Repr

def inName (char : Char) : Bool := char ≠ ' ' && char ≠ '\n'

-- The memory from the line on. The name is read up to a blank or a newline, behind
-- the end of the line if need be.
def resolveJavaSymbs (s : Text) : Option Symb :=
  let (start, codeSize) := strtoull s
  let (size, methodName) := strtoull codeSize.tail
  let symb := (methodName.tail.takeWhile inName).take (JAVASYMB_NAME_LEN - 1)
  if symb = [] then none
  else some ⟨symb.takeWhile (· ≠ '\x00'), start, size⟩

-- The fields of `struct elf_symbo_s` that loading a Java symbol file reads and writes.
structure JavaSymbs where
  elfOffset : ℕ
  symbsCapability : ℕ
  symbs : List Symb
  deriving DecidableEq, Repr

def noSymbs : JavaSymbs := ⟨0, 0, []⟩

def incSymbsCapability (symbo : JavaSymbs) : Option JavaSymbs :=
  let newCapa := symbo.symbsCapability + SYMBS_STEP_COUNT
  if newCapa ≥ SYMBS_MAX_COUNT then none else some { symbo with symbsCapability := newCapa }

def makeRoom (symbo : JavaSymbs) : Option JavaSymbs :=
  if symbo.symbs.length ≥ symbo.symbsCapability then incSymbsCapability symbo else some symbo

-- The array after `fgets`: the bytes behind the new NUL stay as they were.
def fillLine (array line : Text) : Text := line ++ '\x00' :: array.drop (line.length + 1)

-- `stack` is what lies behind the array.
def readJavaSymbs (stack : Text) : List Text → Text → JavaSymbs → JavaSymbs × ℤ
  | [], _, symbo => (symbo, 0)
  | line :: lines, array, symbo =>
      match makeRoom symbo with
      | none => (symbo, -1)
      | some symbo =>
          let array := fillLine array line
          let newSymb := resolveJavaSymbs (array ++ stack)
          readJavaSymbs stack lines array { symbo with symbs := symbo.symbs ++ newSymb.toList }

def getJavaSymbFromFile (stack file : Text) (symbo : JavaSymbs) : JavaSymbs × ℤ :=
  let input := file.drop symbo.elfOffset
  match readJavaSymbs stack (fgetsAll LINE_BUF_LEN input) (List.replicate LINE_BUF_LEN '\x00')
    symbo with
  | (symbo, 0) => ({ symbo with elfOffset := symbo.elfOffset + input.length }, 0)
  | (symbo, ret) => (symbo, ret)

-- The address and the size both end before the line does.
def SelfContained (line : Text) : Prop :=
  (strtoull line).2 ≠ [] ∧ (strtoull (strtoull line).2.tail).2 ≠ []

instance (line : Text) : Decidable (SelfContained line) := inferInstanceAs (Decidable (_ ∧ _))

variable {p : Char → Bool}

theorem dropWhile_nul (hnul : p '\x00' = false) (line rest : Text) :
    (line ++ '\x00' :: rest).dropWhile p = line.dropWhile p ++ '\x00' :: rest := by
  induction line with
  | nil => simp [hnul]
  | cons c line ih =>
      rw [List.cons_append, List.dropWhile_cons, List.dropWhile_cons]
      split
      · exact ih
      · rfl

theorem takeWhile_nul (hnul : p '\x00' = false) (line rest : Text) :
    (line ++ '\x00' :: rest).takeWhile p = line.takeWhile p := by
  induction line with
  | nil => simp [hnul]
  | cons c line ih =>
      rw [List.cons_append, List.takeWhile_cons, List.takeWhile_cons]
      split
      · rw [ih]
      · rfl

theorem splitSign_nul (line rest : Text) : splitSign (line ++ '\x00' :: rest) =
    ((splitSign line).1, (splitSign line).2 ++ '\x00' :: rest) := by
  cases line with
  | nil => rfl
  | cons c line =>
      simp only [splitSign, List.cons_append, List.head?_cons, List.tail_cons, Option.some.injEq]
      by_cases hminus : c = '-'
      · simp only [if_pos hminus]
      · by_cases hplus : c = '+'
        · simp only [if_neg hminus, if_pos hplus]
        · simp only [if_neg hminus, if_neg hplus, List.cons_append]

theorem dropHexPrefix_nul (line rest : Text) :
    dropHexPrefix (line ++ '\x00' :: rest) = dropHexPrefix line ++ '\x00' :: rest := by
  have hdigit : isHexDigit '\x00' = false := by decide
  match line with
  | [] => simp [dropHexPrefix]
  | [c] => simp [dropHexPrefix]
  | [c, d] => simp [dropHexPrefix, hdigit]
  | c :: d :: e :: line =>
      simp only [dropHexPrefix, List.cons_append, List.getElem?_cons_zero, List.getElem?_cons_succ,
        List.drop_succ_cons, List.drop_zero]
      split <;> rfl

-- A number ends at the end of the line at the latest.
theorem strtoull_nul (line rest : Text) : strtoull (line ++ '\x00' :: rest) =
    ((strtoull line).1, (strtoull line).2 ++ '\x00' :: rest) := by
  have hspace : isSpace '\x00' = false := by decide
  have hdigit : isHexDigit '\x00' = false := by decide
  simp only [strtoull, dropWhile_nul hspace, splitSign_nul, dropHexPrefix_nul, takeWhile_nul hdigit,
    dropWhile_nul hdigit]
  split <;> rfl

-- The name of a symbol, as the string that the bytes of the array hold.
theorem name_nul (line rest other : Text) (count : ℕ) (hnul : p '\x00' = true) :
    (((line ++ '\x00' :: rest).takeWhile p).take count).takeWhile (· ≠ '\x00') =
      (((line ++ '\x00' :: other).takeWhile p).take count).takeWhile (· ≠ '\x00') := by
  induction line generalizing count with
  | nil => cases count <;> simp [hnul]
  | cons c line ih =>
      cases count with
      | zero => simp
      | succ count =>
          rw [List.cons_append, List.cons_append, List.takeWhile_cons, List.takeWhile_cons]
          split_ifs
          · rw [List.take_succ_cons, List.take_succ_cons, List.takeWhile_cons, List.takeWhile_cons,
              ih]
          · rfl

theorem name_eq_nil_iff (line rest : Text) {count : ℕ} (hcount : 0 < count) (hnul : p '\x00' = true) :
    ((line ++ '\x00' :: rest).takeWhile p).take count = [] ↔ line.head?.any (!p ·) = true := by
  obtain ⟨count, rfl⟩ := Nat.exists_eq_succ_of_ne_zero (Nat.ne_of_gt hcount)
  cases line with
  | nil => simp [hnul]
  | cons c line => simp [List.takeWhile_cons]

-- What is behind a self-contained line does not matter.
theorem resolveJavaSymbs_nul {line : Text} (h : SelfContained line) (rest other : Text) :
    resolveJavaSymbs (line ++ '\x00' :: rest) = resolveJavaSymbs (line ++ '\x00' :: other) := by
  obtain ⟨hsize, hname⟩ := h
  have hnul : inName '\x00' = true := by decide
  simp only [resolveJavaSymbs, strtoull_nul, List.tail_append_of_ne_nil hsize,
    List.tail_append_of_ne_nil hname]
  simp only [name_eq_nil_iff _ _ (by decide : 0 < JAVASYMB_NAME_LEN - 1) hnul]
  rw [name_nul _ rest other _ hnul]

variable {stack : Text}

-- Self-contained lines give the same symbols whatever the array held.
theorem readJavaSymbs_array {lines : List Text} (h : ∀ line ∈ lines, SelfContained line)
    (array other : Text) (symbo : JavaSymbs) :
    readJavaSymbs stack lines array symbo = readJavaSymbs stack lines other symbo := by
  induction lines generalizing array other symbo with
  | nil => rfl
  | cons line lines ih =>
      obtain ⟨hline, hlines⟩ := List.forall_mem_cons.mp h
      rw [readJavaSymbs, readJavaSymbs]
      cases makeRoom symbo with
      | none => rfl
      | some symbo =>
          have hsame : resolveJavaSymbs (fillLine array line ++ stack) =
              resolveJavaSymbs (fillLine other line ++ stack) := by
            simp only [fillLine, List.append_assoc, List.cons_append]
            exact resolveJavaSymbs_nul hline _ _
          simp only [hsame]
          exact ih hlines _ _ _

theorem readJavaSymbs_append (first second : List Text) (array : Text) (symbo : JavaSymbs) :
    readJavaSymbs stack (first ++ second) array symbo =
      match readJavaSymbs stack first array symbo with
      | (symbo, 0) => readJavaSymbs stack second (first.foldl fillLine array) symbo
      | (symbo, ret) => (symbo, ret) := by
  induction first generalizing array symbo with
  | nil => rfl
  | cons line first ih =>
      rw [List.cons_append, readJavaSymbs, readJavaSymbs, List.foldl_cons]
      cases makeRoom symbo with
      | none => rfl
      | some symbo =>
          exact ih _ _

def JavaSymbs.setOffset (elfOffset : ℕ) (symbo : JavaSymbs) : JavaSymbs :=
  { symbo with elfOffset := elfOffset }

theorem makeRoom_setOffset (elfOffset : ℕ) (symbo : JavaSymbs) :
    makeRoom (symbo.setOffset elfOffset) = (makeRoom symbo).map (JavaSymbs.setOffset elfOffset) := by
  unfold makeRoom incSymbsCapability
  rw [apply_ite (Option.map (JavaSymbs.setOffset elfOffset)),
    apply_ite (Option.map (JavaSymbs.setOffset elfOffset))]
  rfl

-- The position in the file does not matter for the lines.
theorem readJavaSymbs_setOffset (elfOffset : ℕ) (lines : List Text) (array : Text)
    (symbo : JavaSymbs) :
    readJavaSymbs stack lines array (symbo.setOffset elfOffset) =
      ((readJavaSymbs stack lines array symbo).1.setOffset elfOffset,
        (readJavaSymbs stack lines array symbo).2) := by
  induction lines generalizing array symbo with
  | nil => rfl
  | cons line lines ih =>
      rw [readJavaSymbs, readJavaSymbs, makeRoom_setOffset]
      cases makeRoom symbo with
      | none => rfl
      | some symbo =>
          exact ih _ { symbo with
            symbs := symbo.symbs ++ (resolveJavaSymbs (fillLine array line ++ stack)).toList }

-- The file grows step by step, and is read after each. A failing read ends it, as the
-- symbols are then freed.
def readGrowth (stack file : Text) : List Text → JavaSymbs → Option JavaSymbs
  | [], symbo => some symbo
  | step :: steps, symbo =>
      match getJavaSymbFromFile stack (file ++ step) symbo with
      | (symbo, 0) => readGrowth stack (file ++ step) steps symbo
      | _ => none

theorem readGrowth_concat (stack file : Text) (steps : List Text) (step : Text) (symbo : JavaSymbs) :
    readGrowth stack file (steps ++ [step]) symbo =
      (readGrowth stack file steps symbo).bind
        (readGrowth stack (file ++ steps.flatten) [step]) := by
  induction steps generalizing file symbo with
  | nil => simp [readGrowth]
  | cons head steps ih =>
      rw [List.cons_append, readGrowth, readGrowth]
      split
      · rw [ih, List.flatten_cons, List.append_assoc]
      · rfl

-- What one read of the whole file gives.
def readWhole (stack file : Text) : Option JavaSymbs :=
  match readJavaSymbs stack (fgetsAll LINE_BUF_LEN file) (List.replicate LINE_BUF_LEN '\x00')
    noSymbs with
  | (symbo, 0) => some (symbo.setOffset file.length)
  | _ => none

theorem readGrowth_eq_readWhole {steps : List Text}
    (hcut : ∀ count < steps.length, EndsComplete LINE_BUF_LEN (steps.take count).flatten)
    (hself : ∀ step ∈ steps.tail, ∀ line ∈ fgetsAll LINE_BUF_LEN step, SelfContained line) :
    readGrowth stack [] steps noSymbs = readWhole stack steps.flatten := by
  induction steps using List.reverseRecOn with
  | nil => rfl
  | append_singleton steps step ih =>
      have hends : EndsComplete LINE_BUF_LEN steps.flatten := by
        simpa using hcut steps.length (by simp)
      have hearlier : readGrowth stack [] steps noSymbs = readWhole stack steps.flatten := by
        apply ih
        · intro count hcount
          have hprefix := hcut count (by rw [List.length_append]; omega)
          rwa [List.take_append_of_le_length (by omega)] at hprefix
        · intro other hother
          apply hself other
          cases steps with
          | nil => cases hother
          | cons first steps => exact List.mem_append_left _ hother
      rw [readGrowth_concat, hearlier, List.nil_append, List.flatten_append, List.flatten_singleton]
      unfold readWhole
      rw [fgetsAll_append (by decide) hends, readJavaSymbs_append]
      cases hfirst : readJavaSymbs stack (fgetsAll LINE_BUF_LEN steps.flatten)
        (List.replicate LINE_BUF_LEN '\x00') noSymbs with
      | mk symbo ret =>
          by_cases hret : ret = 0
          · subst hret
            have harray : readJavaSymbs stack (fgetsAll LINE_BUF_LEN step)
                (List.replicate LINE_BUF_LEN '\x00') symbo =
                  readJavaSymbs stack (fgetsAll LINE_BUF_LEN step)
                    ((fgetsAll LINE_BUF_LEN steps.flatten).foldl fillLine
                      (List.replicate LINE_BUF_LEN '\x00')) symbo := by
              cases steps with
              | nil => rfl
              | cons first steps =>
                  exact readJavaSymbs_array (hself step (List.mem_append_right _ (.head _))) _ _ _
            have hinput : (steps.flatten ++ step).drop (symbo.setOffset steps.flatten.length).elfOffset
                = step := List.drop_left
            simp only [Option.bind_some, readGrowth, getJavaSymbFromFile, hinput,
              readJavaSymbs_setOffset, harray]
            cases hsecond : readJavaSymbs stack (fgetsAll LINE_BUF_LEN step)
              ((fgetsAll LINE_BUF_LEN steps.flatten).foldl fillLine
                (List.replicate LINE_BUF_LEN '\x00')) symbo with
            | mk after ret =>
                by_cases hret : ret = 0
                · subst hret
                  simp [JavaSymbs.setOffset]
                · simp [hret]
          · simp [hret]

-- When every step but the last ends where a line does, and the lines of all steps but
-- the first hold their address and size, the reads give what one read of the final
-- file gives, be it symbols or a failure.
theorem readGrowth_eq_once (stack : Text) (steps : List Text)
    (hcut : ∀ count < steps.length, EndsComplete LINE_BUF_LEN (steps.take count).flatten)
    (hself : ∀ step ∈ steps.tail, ∀ line ∈ fgetsAll LINE_BUF_LEN step, SelfContained line) :
    (readGrowth stack [] steps noSymbs).map JavaSymbs.symbs =
      (readGrowth stack [] [steps.flatten] noSymbs).map JavaSymbs.symbs := by
  have honce : readGrowth stack [] [steps.flatten] noSymbs =
      readWhole stack [steps.flatten].flatten := by
    apply readGrowth_eq_readWhole
    · intro count hcount
      rw [List.length_singleton, Nat.lt_one_iff] at hcount
      subst hcount
      intro line hline
      cases hline
    · intro step hstep
      cases hstep
  rw [readGrowth_eq_readWhole hcut hself, honce, List.flatten_singleton]

theorem readGrowth_eq_once_lines :
    (readGrowth [] [] ["1000 10 A::f\n".toList, "2000 20 g\n3000 30 h".toList] noSymbs).map
      JavaSymbs.symbs = (readGrowth [] [] ["1000 10 A::f\n2000 20 g\n3000 30 h".toList] noSymbs).map
        JavaSymbs.symbs :=
  readGrowth_eq_once [] ["1000 10 A::f\n".toList, "2000 20 g\n3000 30 h".toList] (by decide +kernel)
    (by decide +kernel)

-- A line that is read in two pieces gives two symbols, none of them the right one.
theorem readGrowth_cut_in_line :
    (readGrowth [] [] ["1000 10 na".toList, "me\n".toList] noSymbs).map JavaSymbs.symbs =
      some [⟨"na".toList, 0x1000, 0x10⟩, ⟨[], 0, 0xe⟩] ∧
    (readGrowth [] [] ["1000 10 name\n".toList] noSymbs).map JavaSymbs.symbs =
      some [⟨"name".toList, 0x1000, 0x10⟩] := by
  decide +kernel

end Gopher.Elf
