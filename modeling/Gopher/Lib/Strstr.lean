import Gopher.Lib.Text
import Mathlib.Data.List.Infix
import Mathlib.Tactic.ByContra

namespace Gopher.Lib

-- The text from the first occurrence of a needle on.
def strstr (needle : Text) : Text → Option Text
  | [] => if needle = [] then some [] else none
  | char :: text =>
      if needle.isPrefixOf (char :: text) then some (char :: text) else strstr needle text

-- The text behind the first occurrence.
def behind (needle text : Text) : Option Text :=
  (strstr needle text).map fun found => found.drop needle.length

theorem strstr_mark {needle : Text} (text : Text) :
    strstr needle (needle ++ text) = some (needle ++ text) := by
  cases hneedle : needle ++ text with
  | nil =>
      have hempty : needle = [] := (List.append_eq_nil_iff.mp hneedle).1
      simp [strstr, hempty]
  | cons char rest =>
      have hstarts : needle.isPrefixOf (char :: rest) = true := by
        rw [← hneedle]
        exact List.isPrefixOf_iff_prefix.mpr (List.prefix_append needle text)
      rw [strstr, if_pos hstarts]

-- The first occurrence is no later than any that is known.
theorem strstr_of_append (before needle after : Text) :
    ∃ rest, strstr needle (before ++ (needle ++ after)) = some (needle ++ rest) ∧
      after <:+ rest := by
  induction before with
  | nil => exact ⟨after, strstr_mark after, List.suffix_refl after⟩
  | cons char before ih =>
      rw [List.cons_append, strstr]
      split_ifs with hstarts
      · obtain ⟨rest, hrest⟩ := List.isPrefixOf_iff_prefix.mp hstarts
        refine ⟨rest, by rw [hrest], ?_⟩
        have hlong : needle ++ after <:+ needle ++ rest :=
          ⟨char :: before, by rw [hrest, List.cons_append]⟩
        have hlength := hlong.length_le
        rw [List.length_append, List.length_append] at hlength
        exact List.suffix_of_suffix_length_le ((List.suffix_append needle after).trans hlong)
          (List.suffix_append needle rest) (by omega)
      · exact ih

theorem behind_of_append (before needle after : Text) :
    ∃ rest, behind needle (before ++ (needle ++ after)) = some rest ∧ after <:+ rest := by
  obtain ⟨rest, hfound, hsuffix⟩ := strstr_of_append before needle after
  refine ⟨rest, ?_, hsuffix⟩
  rw [behind, hfound, Option.map_some, List.drop_left]

theorem strstr_suffix {needle text found : Text} (h : strstr needle text = some found) :
    found <:+ text := by
  induction text with
  | nil =>
      rw [strstr] at h
      split_ifs at h
      cases h
      exact List.suffix_refl []
  | cons char text ih =>
      rw [strstr] at h
      split_ifs at h
      · cases h
        exact List.suffix_refl _
      · exact (ih h).trans (List.suffix_cons char text)

theorem behind_suffix {needle text rest : Text} (h : behind needle text = some rest) :
    rest <:+ text := by
  obtain ⟨found, hfound, rfl⟩ := Option.map_eq_some_iff.mp h
  exact (List.drop_suffix _ _).trans (strstr_suffix hfound)

theorem strstr_eq_none_iff {needle text : Text} : strstr needle text = none ↔ ¬needle <:+: text := by
  induction text with
  | nil => by_cases h : needle = [] <;> simp [strstr, h]
  | cons char text ih =>
      rw [strstr, List.infix_cons_iff, not_or]
      split_ifs with hstarts
      · exact iff_of_false (by simp) fun h => h.1 (List.isPrefixOf_iff_prefix.mp hstarts)
      · rw [ih]
        exact (and_iff_right fun h => hstarts (List.isPrefixOf_iff_prefix.mpr h)).symm

theorem behind_eq_none_iff {needle text : Text} : behind needle text = none ↔ ¬needle <:+: text := by
  rw [behind, Option.map_eq_none_iff, strstr_eq_none_iff]

theorem infix_of_strstr {needle text found : Text} (h : strstr needle text = some found) :
    needle <:+: text := by
  by_contra hnot
  rw [strstr_eq_none_iff.mpr hnot] at h
  cases h

theorem infix_of_behind {needle text rest : Text} (h : behind needle text = some rest) :
    needle <:+: text := by
  by_contra hnot
  rw [behind_eq_none_iff.mpr hnot] at h
  cases h

theorem strstr_eq_append {needle text found : Text} (h : strstr needle text = some found) :
    ∃ rest, found = needle ++ rest := by
  induction text with
  | nil =>
      rw [strstr] at h
      split_ifs at h with hnil
      cases h
      exact ⟨[], by rw [hnil, List.append_nil]⟩
  | cons char text ih =>
      rw [strstr] at h
      split_ifs at h with hstarts
      · cases h
        obtain ⟨rest, hrest⟩ := List.isPrefixOf_iff_prefix.mp hstarts
        exact ⟨rest, hrest.symm⟩
      · exact ih h

-- A needle without a character does not reach over it.
theorem prefix_append_cons_iff {needle front rest : Text} {char : Char} (h : char ∉ needle) :
    needle <+: front ++ char :: rest ↔ needle <+: front := by
  constructor
  · intro hstarts
    induction needle generalizing front with
    | nil => exact List.nil_prefix
    | cons first needle ih =>
        rw [List.mem_cons, not_or] at h
        cases front with
        | nil =>
            rw [List.nil_append, List.cons_prefix_cons] at hstarts
            exact absurd hstarts.1.symm h.1
        | cons other front =>
            rw [List.cons_append, List.cons_prefix_cons] at hstarts
            rw [List.cons_prefix_cons]
            exact ⟨hstarts.1, ih h.2 hstarts.2⟩
  · exact fun hstarts => hstarts.trans (List.prefix_append _ _)

-- So it is found in front of it or behind it.
theorem strstr_append_cons {needle : Text} {char : Char} (hchar : char ∉ needle)
    (hne : needle ≠ []) (front rest : Text) : strstr needle (front ++ char :: rest) =
      match strstr needle front with
      | some found => some (found ++ char :: rest)
      | none => strstr needle rest := by
  have hstarts (front : Text) : needle.isPrefixOf (front ++ char :: rest) = needle.isPrefixOf front := by
    rw [Bool.eq_iff_iff, List.isPrefixOf_iff_prefix, List.isPrefixOf_iff_prefix,
      prefix_append_cons_iff hchar]
  induction front with
  | nil =>
      have hempty := hstarts []
      rw [List.nil_append] at hempty
      have hfront : strstr needle [] = none := if_neg hne
      rw [hfront, List.nil_append, strstr, hempty]
      cases needle with
      | nil => exact absurd rfl hne
      | cons first needle => rfl
  | cons other front ih =>
      have hfull := hstarts (other :: front)
      rw [List.cons_append] at hfull
      rw [List.cons_append, strstr, hfull, strstr]
      split_ifs with hfound
      · rfl
      · exact ih

theorem behind_append_cons {needle : Text} {char : Char} (hchar : char ∉ needle)
    (hne : needle ≠ []) (front rest : Text) : behind needle (front ++ char :: rest) =
      match behind needle front with
      | some found => some (found ++ char :: rest)
      | none => behind needle rest := by
  rw [behind, behind, strstr_append_cons hchar hne]
  cases hfound : strstr needle front with
  | none => rfl
  | some found =>
      obtain ⟨after, rfl⟩ := strstr_eq_append hfound
      simp

-- What holds no first character of the needle is passed over.
theorem strstr_skip {first : Char} {needle front : Text} (h : first ∉ front) (rest : Text) :
    strstr (first :: needle) (front ++ rest) = strstr (first :: needle) rest := by
  induction front with
  | nil => rfl
  | cons char front ih =>
      rw [List.mem_cons, not_or] at h
      have hstarts : (first :: needle).isPrefixOf (char :: (front ++ rest)) = false := by
        rw [List.isPrefixOf_cons_cons, beq_eq_false_iff_ne.mpr h.1, Bool.false_and]
      rw [List.cons_append, strstr, hstarts]
      exact ih h.2

theorem behind_skip {first : Char} {needle front : Text} (h : first ∉ front) (rest : Text) :
    behind (first :: needle) (front ++ rest) = behind (first :: needle) rest := by
  rw [behind, behind, strstr_skip h]

theorem behind_mark {needle : Text} (text : Text) : behind needle (needle ++ text) = some text := by
  rw [behind, strstr_mark, Option.map_some, List.drop_left]

end Gopher.Lib
