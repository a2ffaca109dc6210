import Gopher.Lib.Text
import Mathlib.Data.List.TakeWhile

namespace Gopher.Lib

-- What `snprintf` prints for a format that is given no arguments. A '%' has to stand in
-- a pair, any other conversion reads an argument that is not there.
def printedFormat : Text → Option Text
  | [] => some []
  | ['%'] => none
  | '%' :: second :: format =>
      if second = '%' then (printedFormat format).map ('%' :: ·) else none
  | first :: format => (printedFormat format).map (first :: ·)

-- The first `count` characters are printed as they stand: there is no '%', or all of them
-- stand in pairs and the first pairs fill the places up to `count` on both sides.
def Verbatim (count : ℕ) (format : Text) : Prop :=
  '%' ∉ format ∨ (printedFormat format).isSome = true ∧
    count ≤ (format.takeWhile (· ≠ '%')).length +
      ((format.dropWhile (· ≠ '%')).takeWhile (· = '%')).length / 2

instance (count : ℕ) (format : Text) : Decidable (Verbatim count format) :=
  inferInstanceAs (Decidable (_ ∨ _))

section Printed

variable {front rest : Text}

theorem printedFormat_cons {first : Char} (hfirst : first ≠ '%') (format : Text) :
    printedFormat (first :: format) = (printedFormat format).map (first :: ·) := by
  rw [printedFormat]
  · rintro rfl
    exact absurd rfl hfirst
  · rintro second rest rfl
    exact absurd rfl hfirst

theorem printedFormat_append (hfront : '%' ∉ front) (format : Text) :
    printedFormat (front ++ format) = (printedFormat format).map (front ++ ·) := by
  induction front with
  | nil => simp
  | cons first front ih =>
      rw [List.mem_cons, not_or] at hfront
      rw [List.cons_append, printedFormat_cons (Ne.symm hfront.1), ih hfront.2, Option.map_map]
      rfl

-- A run of pairs is printed as half as many characters, an odd run is not printed.
theorem printedFormat_replicate (count : ℕ) (hrest : rest.head? ≠ some '%') :
    printedFormat (List.replicate count '%' ++ rest) =
      if count % 2 = 0 then (printedFormat rest).map (List.replicate (count / 2) '%' ++ ·)
      else none := by
  induction count using Nat.strongRecOn with
  | ind count ih =>
      match count with
      | 0 => simp
      | 1 =>
          cases rest with
          | nil => rfl
          | cons second rest =>
              have hsecond : second ≠ '%' := by simpa using hrest
              simp [printedFormat, hsecond]
      | count + 2 =>
          rw [List.replicate_succ, List.replicate_succ, List.cons_append, List.cons_append,
            printedFormat, if_pos rfl, ih count (by omega)]
          simp only [Nat.add_mod_right, Nat.add_div_right count (by omega : 0 < 2),
            List.replicate_succ]
          split_ifs
          · rw [Option.map_map]
            rfl
          · rfl

theorem head?_of_printedFormat {out : Text} (hrest : rest.head? ≠ some '%')
    (h : printedFormat rest = some out) : out.head? = rest.head? := by
  cases rest with
  | nil =>
      cases h
      rfl
  | cons first rest =>
      have hfirst : first ≠ '%' := by simpa using hrest
      rw [printedFormat_cons hfirst, Option.map_eq_some_iff] at h
      obtain ⟨tail, -, rfl⟩ := h
      rfl

end Printed

-- A format up to its first '%', the run that starts there, and what follows the run.
theorem exists_run {format : Text} (hformat : '%' ∈ format) : ∃ front run rest, '%' ∉ front ∧
    0 < run ∧ rest.head? ≠ some '%' ∧ format = front ++ (List.replicate run '%' ++ rest) ∧
    front = format.takeWhile (· ≠ '%') ∧
    run = ((format.dropWhile (· ≠ '%')).takeWhile (· = '%')).length := by
  have hfront : '%' ∉ format.takeWhile (· ≠ '%') := by
    intro hmem
    have hne := List.mem_takeWhile_imp (p := (· ≠ '%')) hmem
    simp at hne
  refine ⟨format.takeWhile (· ≠ '%'), _,
    (format.dropWhile (· ≠ '%')).dropWhile (· = '%'), hfront, ?_, ?_, ?_, rfl, rfl⟩
  · have hfirst := List.head?_dropWhile_not (· ≠ '%') format
    cases hdrop : format.dropWhile (· ≠ '%') with
    | nil =>
        have hsplit := List.takeWhile_append_dropWhile (p := (· ≠ '%')) (l := format)
        rw [hdrop, List.append_nil] at hsplit
        rw [hsplit] at hfront
        exact absurd hformat hfront
    | cons first rest =>
        rw [hdrop] at hfirst
        have hpercent : first = '%' := by simpa using hfirst
        rw [hpercent, List.takeWhile_cons_of_pos (by simp), List.length_cons]
        exact Nat.succ_pos _
  · intro hhead
    have hfirst := List.head?_dropWhile_not (fun char => decide (char = '%'))
      (format.dropWhile (· ≠ '%'))
    rw [hhead] at hfirst
    simp at hfirst
  · have hrun : List.replicate ((format.dropWhile (· ≠ '%')).takeWhile (· = '%')).length '%' =
        (format.dropWhile (· ≠ '%')).takeWhile (· = '%') := by
      symm
      rw [List.eq_replicate_iff]
      refine ⟨rfl, fun char hchar => ?_⟩
      simpa using List.mem_takeWhile_imp hchar
    rw [hrun, List.takeWhile_append_dropWhile, List.takeWhile_append_dropWhile]

-- Half as many '%' agree with all of them only up to the place where they end.
theorem take_replicate_append_eq_iff {half count : ℕ} {out rest : Text} (hpos : 0 < half)
    (hout : out.head? ≠ some '%') :
    (List.replicate half '%' ++ out).take count =
        (List.replicate (half + half) '%' ++ rest).take count ↔ count ≤ half := by
  constructor
  · intro h
    by_contra hlt
    have hplace := congrArg (·[half]?) h
    simp only [List.getElem?_take_of_lt (show half < count by omega)] at hplace
    rw [List.getElem?_append_right (by simp), List.getElem?_append_left (by simp; omega),
      List.length_replicate, Nat.sub_self, ← List.head?_eq_getElem?,
      List.getElem?_replicate_of_lt (by omega)] at hplace
    exact hout hplace
  · intro hcount
    rw [List.take_append_of_le_length (by simpa using hcount),
      List.take_append_of_le_length (by simp; omega), List.take_replicate, List.take_replicate]
    congr 1
    omega

theorem printedFormat_of_not_mem {format : Text} (hformat : '%' ∉ format) :
    printedFormat format = some format := by
  have happend := printedFormat_append hformat []
  rw [List.append_nil] at happend
  rw [happend, printedFormat, Option.map_some, List.append_nil]

theorem take_eq_take_iff_verbatim {count : ℕ} {format out : Text}
    (h : printedFormat format = some out) :
    out.take count = format.take count ↔ Verbatim count format := by
  by_cases hpercent : '%' ∈ format
  · obtain ⟨front, run, rest, hfront, hpos, hrest, hformat, hlen, hrun⟩ := exists_run hpercent
    rw [Verbatim, ← hlen, ← hrun, h]
    rw [hformat, printedFormat_append hfront, printedFormat_replicate run hrest] at h
    split_ifs at h with heven
    · obtain ⟨middle, hmiddle, rfl⟩ := Option.map_eq_some_iff.mp h
      obtain ⟨printed, hprinted, rfl⟩ := Option.map_eq_some_iff.mp hmiddle
      have hout : printed.head? ≠ some '%' := by
        rw [head?_of_printedFormat hrest hprinted]
        exact hrest
      have hhalf : run = run / 2 + run / 2 := by omega
      have hbehind : (front ++ (List.replicate (run / 2) '%' ++ printed)).take count =
            format.take count ↔
          (List.replicate (run / 2) '%' ++ printed).take (count - front.length) =
            (List.replicate (run / 2 + run / 2) '%' ++ rest).take (count - front.length) := by
        have htake : ∀ tail, (front ++ tail).take count =
            front.take count ++ tail.take (count - front.length) := fun tail => List.take_append
        rw [← hhalf, hformat, htake, htake, List.append_cancel_left_eq]
      rw [hbehind, take_replicate_append_eq_iff (by omega) hout]
      simp only [hpercent, not_true_eq_false, false_or, Option.isSome_some, true_and]
      omega
    · cases h
  · rw [printedFormat_of_not_mem hpercent, Option.some.injEq] at h
    rw [← h]
    exact iff_of_true rfl (.inl hpercent)

-- Whatever is printed for a format that reads missing arguments, here nothing, the
-- result is the format itself only for a format that is verbatim.
theorem take_getD_eq_iff_verbatim {count : ℕ} (hcount : 0 < count) {format : Text}
    (hne : format ≠ []) :
    ((printedFormat format).getD []).take count = format.take count ↔ Verbatim count format := by
  cases h : printedFormat format with
  | some out => exact take_eq_take_iff_verbatim h
  | none =>
      have hpercent : '%' ∈ format := by
        by_contra hnot
        rw [printedFormat_of_not_mem hnot] at h
        cases h
      constructor
      · intro hnil
        rw [Option.getD_none, List.take_nil] at hnil
        obtain hzero | hempty := List.take_eq_nil_iff.mp hnil.symm
        · omega
        · exact absurd hempty hne
      · rintro (hnot | ⟨hsome, -⟩)
        · exact absurd hpercent hnot
        · rw [h] at hsome
          cases hsome

theorem Verbatim.exists_printed {count : ℕ} {format : Text} (h : Verbatim count format) :
    ∃ out, printedFormat format = some out ∧ out.take count = format.take count := by
  have hsome : (printedFormat format).isSome = true := by
    obtain hnot | ⟨hsome, -⟩ := h
    · rw [printedFormat_of_not_mem hnot, Option.isSome_some]
    · exact hsome
  obtain ⟨out, hout⟩ := Option.isSome_iff_exists.mp hsome
  exact ⟨out, hout, (take_eq_take_iff_verbatim hout).mpr h⟩

end Gopher.Lib
