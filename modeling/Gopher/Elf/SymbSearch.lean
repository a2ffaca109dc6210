import Gopher.Elf.JavaSymbs
import Gopher.Lib.Qsort
import Mathlib.Algebra.Group.Int.Defs
import Mathlib.Data.List.TakeWhile

namespace Gopher.Elf

open Gopher.Lib

-- The difference of two unsigned numbers, cut to an `int`.
def symbCmp (symb1 symb2 : Symb) : ℤ := Int.bmod (symb1.start - symb2.start).toNat (2 ^ 32)

-- `none` is `__ERR_INDEX`.
def symbAt (symbs : List Symb) (index : ℤ) : Option Symb :=
  if index < 0 then none else symbs[index.toNat]?

-- The loop of `__search_addr_upper_bound` with the value of `right` behind it. `none` is
-- the return from inside. There are less than SYMBS_MAX_COUNT symbols, so that no sum of
-- two indices overflows.
def upperBoundLoop (symbs : List Symb) (targetAddr : UInt64) (left right : ℤ) : Option ℤ :=
  if left < right then
    let mid := (left + right) / 2
    match symbs[mid.toNat]? with
    | none => none
    | some symb =>
        if symb.start ≤ targetAddr then upperBoundLoop symbs targetAddr (mid + 1) right
        else upperBoundLoop symbs targetAddr left (mid - 1)
  else some right
termination_by (right - left).toNat
decreasing_by all_goals omega

def searchAddrUpperBound (symbs : List Symb) (bgn last : ℤ) (targetAddr : UInt64) : ℤ :=
  if bgn ≥ last ∨ bgn < 0 ∨ last < 0 then -1
  else
    match upperBoundLoop symbs targetAddr bgn last with
    | none => -1
    | some right =>
        match symbAt symbs right with
        | none => -1
        | some symb => if symb.start ≤ targetAddr then right + 1 else right

-- The loop of `__do_search_addr` over the symbols at the index and before it. `range` is
-- where the first of them starts.
def stepBack (range targetAddr : UInt64) : List Symb → Option Symb
  | [] => none
  | symb :: before =>
      if targetAddr < symb.start then none
      else if targetAddr < symb.start + symb.size then some symb
      else if symb.start + symb.size < range then none
      else stepBack range targetAddr before

structure AddrSymb where
  sym : Text
  offset : UInt64
  orignAddr : UInt64
  mod : Text
  deriving DecidableEq, Repr

-- `none` is the return value -1, with which `addr_symb` is left as it is.
def doSearchAddr (symbs : List Symb) (orignAddr targetAddr : UInt64) (comm : Text) :
    Option AddrSymb :=
  let searchIndex := searchAddrUpperBound symbs 0 symbs.length targetAddr - 1
  match symbAt symbs searchIndex with
  | none => none
  | some first =>
      let candidates := (symbs.take (searchIndex.toNat + 1)).reverse
      (stepBack first.start targetAddr candidates).map fun symb =>
        ⟨symb.symbName, targetAddr - symb.start, orignAddr, comm⟩

def searchElfSymb (elfSymb : Option (List Symb)) (orignAddr targetAddr : UInt64) (comm : Text) :
    Option AddrSymb :=
  elfSymb.bind fun symbs => doSearchAddr symbs orignAddr targetAddr comm

-- `__sort_symbol`. The array is handed to `qsort` unless it is empty.
def SortSymbol (symbs sorted : List Symb) : Prop :=
  if symbs.length = 0 then sorted = symbs else Qsorted symbCmp symbs sorted

variable {symbs sorted low high : List Symb} {targetAddr range : UInt64} {left right : ℤ}

-- The range of a symbol, as numbers.
def Symb.Holds (symb : Symb) (addr : UInt64) : Prop :=
  symb.start.toNat ≤ addr.toNat ∧ addr.toNat < symb.start.toNat + symb.size.toNat

-- Where the code sees the end of a symbol.
def Symb.stop (symb : Symb) : UInt64 := symb.start + symb.size

theorem Symb.holds_of_stop {symb : Symb} {addr : UInt64} (hstart : symb.start ≤ addr)
    (hstop : addr < symb.stop) : symb.Holds addr := by
  rw [UInt64.le_iff_toNat_le] at hstart
  rw [UInt64.lt_iff_toNat_lt, Symb.stop, UInt64.toNat_add] at hstop
  exact ⟨hstart, Nat.lt_of_lt_of_le hstop (Nat.mod_le _ _)⟩

-- The symbols that start at or before the address and those that start behind it.
structure Parted (targetAddr : UInt64) (low high : List Symb) : Prop where
  low : ∀ symb ∈ low, symb.start ≤ targetAddr
  high : ∀ symb ∈ high, targetAddr < symb.start

section UpperBound

theorem symbAt_of_lt (hleft : 0 ≤ left) : symbAt symbs left = symbs[left.toNat]? := by
  rw [symbAt, if_neg (by omega)]

theorem symbAt_low (hleft : 0 ≤ left) (hlt : left < low.length) :
    ∃ symb ∈ low, symbAt (low ++ high) left = some symb := by
  have hbound : left.toNat < low.length := by omega
  refine ⟨low[left.toNat], List.getElem_mem hbound, ?_⟩
  rw [symbAt_of_lt hleft, List.getElem?_append_left hbound, List.getElem?_eq_getElem hbound]

theorem symbAt_high (hle : low.length ≤ left) (hlt : left < low.length + high.length) :
    ∃ symb ∈ high, symbAt (low ++ high) left = some symb := by
  have hbound : left.toNat - low.length < high.length := by omega
  refine ⟨high[left.toNat - low.length], List.getElem_mem hbound, ?_⟩
  rw [symbAt_of_lt (by omega), List.getElem?_append_right (by omega),
    List.getElem?_eq_getElem hbound]

theorem symbAt_none (h : symbs.length ≤ left) : symbAt symbs left = none := by
  rw [symbAt_of_lt (by omega), List.getElem?_eq_none (by omega)]

-- One round, with the symbol in the middle.
theorem upperBoundLoop_of_lt (hlt : left < right) (hleft : 0 ≤ left) :
    upperBoundLoop symbs targetAddr left right =
      match symbAt symbs ((left + right) / 2) with
      | none => none
      | some symb =>
          if symb.start ≤ targetAddr then
            upperBoundLoop symbs targetAddr ((left + right) / 2 + 1) right
          else upperBoundLoop symbs targetAddr left ((left + right) / 2 - 1) := by
  have hat : symbAt symbs ((left + right) / 2) = symbs[((left + right) / 2).toNat]? :=
    symbAt_of_lt (by omega)
  rw [upperBoundLoop, if_pos hlt]
  cases hsymb : symbs[((left + right) / 2).toNat]? with
  | none => simp only [hat, hsymb]
  | some symb => simp only [hat, hsymb]

theorem upperBoundLoop_of_ge (hge : ¬left < right) :
    upperBoundLoop symbs targetAddr left right = some right := by
  rw [upperBoundLoop, if_neg hge]

-- The loop leaves `right` at the boundary or just before it. It never leaves the end of
-- the array when no symbol starts behind the address.
theorem upperBoundLoop_parted (h : Parted targetAddr low high) (hleft : 0 ≤ left)
    (hlow : left ≤ low.length) (hright : low.length - 1 ≤ right)
    (hlast : right ≤ low.length + high.length) (hhigh : high = [] → right = low.length) :
    ∃ bound, upperBoundLoop (low ++ high) targetAddr left right = some bound ∧
      low.length - 1 ≤ bound ∧ bound ≤ low.length ∧ (high = [] → bound = low.length) := by
  induction hn : (right - left).toNat using Nat.strong_induction_on generalizing left right with
  | _ n ih =>
      by_cases hlt : left < right
      · rw [upperBoundLoop_of_lt hlt hleft]
        by_cases hmid : (left + right) / 2 < low.length
        · obtain ⟨symb, hmem, hat⟩ := @symbAt_low low high _ (by omega) hmid
          simp only [hat, h.low symb hmem, ite_true]
          exact ih _ (by omega) (by omega) (by omega) hright hlast hhigh rfl
        · obtain ⟨symb, hmem, hat⟩ :=
            @symbAt_high low high ((left + right) / 2) (by omega) (by omega)
          have hbehind : ¬symb.start ≤ targetAddr := UInt64.not_le.mpr (h.high symb hmem)
          simp only [hat, hbehind, ite_false]
          refine ih _ (by omega) hleft hlow (by omega) (by omega) ?_ rfl
          rintro rfl
          exact absurd hmem List.not_mem_nil
      · rw [upperBoundLoop_of_ge hlt]
        exact ⟨right, rfl, hright, by omega, hhigh⟩

-- The index before the upper bound. There is none when every symbol starts at or before
-- the address, as the search then stands behind the array.
theorem searchIndex_parted (h : Parted targetAddr low high) :
    (high ≠ [] ∧ searchAddrUpperBound (low ++ high) 0 ↑(low ++ high).length targetAddr - 1 =
      (low.length : ℤ) - 1) ∨
    searchAddrUpperBound (low ++ high) 0 ↑(low ++ high).length targetAddr - 1 < 0 ∧
      (low = [] ∨ high = []) := by
  rw [List.length_append]
  by_cases hempty : low.length + high.length = 0
  · right
    have hlow : low = [] := List.length_eq_zero_iff.mp (by omega)
    refine ⟨?_, .inl hlow⟩
    simp only [searchAddrUpperBound, hempty]
    simp
  · obtain ⟨bound, hloop, hfirst, hlast, hend⟩ := upperBoundLoop_parted h (Int.le_refl 0)
      (Int.natCast_nonneg _) (by omega) (Int.le_refl (low.length + high.length : ℤ))
      (by rintro rfl; simp)
    have hrange : ¬((0 : ℤ) ≥ ((low.length + high.length : ℕ) : ℤ) ∨ (0 : ℤ) < 0 ∨
        ((low.length + high.length : ℕ) : ℤ) < 0) := by omega
    rw [searchAddrUpperBound, if_neg hrange, Int.natCast_add, hloop]
    dsimp only
    by_cases hhigh : high = []
    · have hbound := hend hhigh
      rw [symbAt_none (by rw [hhigh, hbound]; simp)]
      exact .inr ⟨by simp, .inr hhigh⟩
    · have hpos := List.length_pos_iff.mpr hhigh
      by_cases hat : bound = low.length
      · obtain ⟨symb, hmem, hsymb⟩ := @symbAt_high low high bound (by omega) (by omega)
        have hbehind : ¬symb.start ≤ targetAddr := UInt64.not_le.mpr (h.high symb hmem)
        left
        simp only [hsymb, hbehind, ite_false]
        exact ⟨hhigh, by omega⟩
      · by_cases hzero : low.length = 0
        · have hnone : symbAt (low ++ high) bound = none := by simp [symbAt]; omega
          simp only [hnone]
          exact .inr ⟨by decide, .inl (List.length_eq_zero_iff.mp hzero)⟩
        · obtain ⟨symb, hmem, hsymb⟩ := @symbAt_low low high bound (by omega) (by omega)
          left
          simp only [hsymb, h.low symb hmem, ite_true]
          exact ⟨hhigh, by omega⟩

end UpperBound

section StepBack

-- The walk finds a symbol exactly if one of the candidates holds the address and all
-- the candidates before it end at the start of the first one or later.
theorem stepBack_isSome_iff (h : ∀ symb ∈ low, symb.start ≤ targetAddr) :
    (stepBack range targetAddr low).isSome ↔
      ∃ passed symb rest, low = passed ++ symb :: rest ∧ targetAddr < symb.stop ∧
        ∀ other ∈ passed, range ≤ other.stop := by
  induction low with
  | nil => simp [stepBack]
  | cons head before ih =>
      obtain ⟨hhead, hbefore⟩ := List.forall_mem_cons.mp h
      rw [stepBack, if_neg (UInt64.not_lt.mpr hhead)]
      by_cases hstop : targetAddr < head.start + head.size
      · rw [if_pos hstop]
        refine iff_of_true rfl ⟨[], head, before, rfl, hstop, ?_⟩
        exact List.forall_mem_nil _
      · rw [if_neg hstop]
        by_cases hrange : head.start + head.size < range
        · rw [if_pos hrange]
          refine iff_of_false (by simp) ?_
          rintro ⟨passed, symb, rest, heq, hsymb, hpassed⟩
          cases passed with
          | nil =>
              cases heq
              exact hstop hsymb
          | cons other passed =>
              cases heq
              exact UInt64.not_lt.mpr (hpassed head List.mem_cons_self) hrange
        · rw [if_neg hrange, ih hbefore]
          constructor
          · rintro ⟨passed, symb, rest, rfl, hsymb, hpassed⟩
            refine ⟨head :: passed, symb, rest, rfl, hsymb, ?_⟩
            exact List.forall_mem_cons.mpr ⟨UInt64.not_lt.mp hrange, hpassed⟩
          · rintro ⟨passed, symb, rest, heq, hsymb, hpassed⟩
            cases passed with
            | nil =>
                cases heq
                exact absurd hsymb hstop
            | cons other passed =>
                cases heq
                exact ⟨passed, symb, rest, rfl, hsymb, (List.forall_mem_cons.mp hpassed).2⟩

theorem stepBack_holds {symb : Symb} (h : stepBack range targetAddr low = some symb) :
    symb ∈ low ∧ symb.start ≤ targetAddr ∧ targetAddr < symb.stop := by
  induction low with
  | nil => cases h
  | cons head before ih =>
      rw [stepBack] at h
      split_ifs at h with hbehind hstop hrange
      · cases h
        exact ⟨List.mem_cons_self, UInt64.not_lt.mp hbehind, hstop⟩
      · obtain ⟨hmem, hholds⟩ := ih h
        exact ⟨List.mem_cons_of_mem head hmem, hholds⟩

end StepBack

section Search

-- What a lookup has to give.
structure LookedUp (symbs : List Symb) (orignAddr targetAddr : UInt64) (comm : Text)
    (found : Option AddrSymb) : Prop where
  isSome_iff : found.isSome ↔ ∃ symb ∈ symbs, symb.Holds targetAddr
  reported : ∀ addrSymb, found = some addrSymb → ∃ symb ∈ symbs, symb.Holds targetAddr ∧
    addrSymb.sym = symb.symbName ∧
    addrSymb.offset.toNat = targetAddr.toNat - symb.start.toNat ∧
    addrSymb.orignAddr = orignAddr ∧ addrSymb.mod = comm

theorem doSearchAddr_reported {orignAddr : UInt64} {comm : Text} {addrSymb : AddrSymb}
    (h : doSearchAddr symbs orignAddr targetAddr comm = some addrSymb) :
    ∃ symb ∈ symbs, symb.Holds targetAddr ∧ addrSymb.sym = symb.symbName ∧
      addrSymb.offset.toNat = targetAddr.toNat - symb.start.toNat ∧
      addrSymb.orignAddr = orignAddr ∧ addrSymb.mod = comm := by
  unfold doSearchAddr at h
  dsimp only at h
  split at h
  · cases h
  · obtain ⟨symb, hsymb, rfl⟩ := Option.map_eq_some_iff.mp h
    obtain ⟨hmem, hstart, hstop⟩ := stepBack_holds hsymb
    refine ⟨symb, List.mem_of_mem_take (List.mem_reverse.mp hmem),
      Symb.holds_of_stop hstart hstop, rfl, ?_, rfl, rfl⟩
    exact UInt64.toNat_sub_of_le _ _ hstart

-- In an array that is parted, the last of the first part is the first candidate.
theorem doSearchAddr_isSome_iff {orignAddr : UInt64} {comm : Text}
    (h : Parted targetAddr low high) :
    (doSearchAddr (low ++ high) orignAddr targetAddr comm).isSome ↔
      high ≠ [] ∧ ∃ before symb passed first, low = before ++ symb :: passed ∧
        low.getLast? = some first ∧ targetAddr < symb.stop ∧
        ∀ other ∈ passed, first.start ≤ other.stop := by
  unfold doSearchAddr
  dsimp only
  obtain ⟨hhigh, hindex⟩ | ⟨hindex, hempty⟩ := searchIndex_parted h
  · rw [hindex]
    rcases List.eq_nil_or_concat low with rfl | ⟨front, first, rfl⟩
    · simp [symbAt]
    · rw [List.concat_eq_append] at h ⊢
      have hat : symbAt ((front ++ [first]) ++ high) (((front ++ [first]).length : ℤ) - 1) =
          some first := by
        rw [List.length_append, List.length_singleton, symbAt_of_lt (by omega)]
        have hnat : (((front.length + 1 : ℕ) : ℤ) - 1).toNat = front.length := by omega
        rw [hnat, List.append_assoc, List.getElem?_append_right (Nat.le_refl _)]
        simp
      have htake : (((front ++ [first]).length : ℤ) - 1).toNat + 1 = (front ++ [first]).length := by
        rw [List.length_append, List.length_singleton]
        omega
      simp only [hat, htake, List.take_left, Option.isSome_map]
      rw [stepBack_isSome_iff fun symb hsymb => h.low symb (List.mem_reverse.mp hsymb)]
      constructor
      · rintro ⟨passed, symb, rest, heq, hstop, hpassed⟩
        refine ⟨hhigh, rest.reverse, symb, passed.reverse, first, ?_, by simp, hstop,
          fun other hother => hpassed other (List.mem_reverse.mp hother)⟩
        rw [← List.reverse_inj, heq]
        simp
      · rintro ⟨-, before, symb, passed, last, heq, hlast, hstop, hpassed⟩
        obtain rfl : first = last := by simpa using hlast
        refine ⟨passed.reverse, symb, before.reverse, ?_, hstop,
          fun other hother => hpassed other (List.mem_reverse.mp hother)⟩
        rw [heq]
        simp
  · have hnone : symbAt (low ++ high)
        (searchAddrUpperBound (low ++ high) 0 ↑(low ++ high).length targetAddr - 1) = none := by
      rw [symbAt, if_pos hindex]
    rw [hnone]
    refine iff_of_false (by simp) ?_
    rintro ⟨hhigh, before, symb, passed, first, rfl, -⟩
    rcases hempty with hlow | hnil
    · simp at hlow
    · exact hhigh hnil

-- When the symbols behind the address stand before the others, nothing is found.
theorem upperBoundLoop_reversed (h : Parted targetAddr low high) (hleft : 0 ≤ left)
    (hright : right ≤ high.length + low.length)
    (hside : (left = 0 ∧ (right < high.length ∨ right = high.length + low.length)) ∨
      ((high.length : ℤ) ≤ left ∧ right = high.length + low.length)) :
    ∃ bound, upperBoundLoop (high ++ low) targetAddr left right = some bound ∧
      (bound < high.length ∨ bound = high.length + low.length) := by
  induction hn : (right - left).toNat using Nat.strong_induction_on generalizing left right with
  | _ n ih =>
      by_cases hlt : left < right
      · rw [upperBoundLoop_of_lt hlt hleft]
        by_cases hmid : (left + right) / 2 < high.length
        · obtain ⟨symb, hmem, hat⟩ := @symbAt_low high low _ (by omega) hmid
          have hbehind : ¬symb.start ≤ targetAddr := UInt64.not_le.mpr (h.high symb hmem)
          simp only [hat, hbehind, ite_false]
          exact ih _ (by omega) hleft (by omega) (by omega) rfl
        · obtain ⟨symb, hmem, hat⟩ :=
            @symbAt_high high low ((left + right) / 2) (by omega) (by omega)
          simp only [hat, h.low symb hmem, ite_true]
          exact ih _ (by omega) (by omega) hright (by omega) rfl
      · rw [upperBoundLoop_of_ge hlt]
        exact ⟨right, rfl, by omega⟩

theorem searchIndex_reversed (h : Parted targetAddr low high) :
    searchAddrUpperBound (high ++ low) 0 ↑(high ++ low).length targetAddr - 1 < 0 ∨
      searchAddrUpperBound (high ++ low) 0 ↑(high ++ low).length targetAddr - 1 < high.length := by
  rw [List.length_append, Int.natCast_add, searchAddrUpperBound]
  split_ifs
  · exact .inl (by decide)
  · obtain ⟨bound, hloop, hbound⟩ := @upperBoundLoop_reversed low high targetAddr 0
      (high.length + low.length) h (Int.le_refl 0) (Int.le_refl _) (.inl ⟨rfl, .inr rfl⟩)
    rw [hloop]
    dsimp only
    rcases hbound with hlt | hend
    · by_cases hneg : bound < 0
      · rw [symbAt, if_pos hneg]
        exact .inl (by simp)
      · obtain ⟨symb, hmem, hat⟩ := @symbAt_low high low bound (by omega) hlt
        have hbehind : ¬symb.start ≤ targetAddr := UInt64.not_le.mpr (h.high symb hmem)
        simp only [hat, hbehind, ite_false]
        exact .inr (by omega)
    · rw [symbAt_none (by simp [hend])]
      exact .inl (by simp)

theorem doSearchAddr_reversed (orignAddr : UInt64) (comm : Text)
    (h : Parted targetAddr low high) :
    doSearchAddr (high ++ low) orignAddr targetAddr comm = none := by
  have hindex := searchIndex_reversed h
  unfold doSearchAddr
  generalize searchAddrUpperBound (high ++ low) 0 ↑(high ++ low).length targetAddr - 1 = index
    at hindex
  dsimp only
  by_cases hneg : index < 0
  · rw [symbAt, if_pos hneg]
  · have hlt : index.toNat < high.length := by omega
    have hbehind := h.high _ (List.getElem_mem hlt)
    have htake : (high ++ low).take (index.toNat + 1) =
        high.take index.toNat ++ [high[index.toNat]] := by
      rw [List.take_append_of_le_length (by omega), List.take_add_one,
        List.getElem?_eq_getElem hlt, Option.toList_some]
    have hat : symbAt (high ++ low) index = some high[index.toNat] := by
      rw [symbAt_of_lt (by omega), List.getElem?_append_left hlt, List.getElem?_eq_getElem hlt]
    rw [hat, htake, List.reverse_append, List.reverse_singleton, List.singleton_append]
    simp only [stepBack, hbehind, ite_true, Option.map_none]

end Search

section Lookup

variable {orignAddr : UInt64} {comm : Text}

theorem symbCmp_of_eq (symb1 symb2 : Symb) (h : symb1.start.toNat = symb2.start.toNat) :
    symbCmp symb1 symb2 = 0 := by
  have hstart : symb1.start = symb2.start := UInt64.toNat_inj.mp h
  have hzero : (symb1.start - symb2.start).toNat = 0 := by
    rw [hstart, UInt64.sub_self, UInt64.toNat_zero]
  unfold symbCmp
  rw [hzero]
  exact Int.zero_bmod

-- Starts that are less than 2^31 apart are compared as they are.
theorem ordersBy_of_near
    (h : ∀ a ∈ symbs, ∀ b ∈ symbs, b.start.toNat < a.start.toNat + 2 ^ 31) :
    OrdersBy (fun symb => symb.start.toNat) symbCmp symbs := by
  intro a ha b hb hlt
  change a.start.toNat < b.start.toNat at hlt
  have hnear := h a ha b hb
  have hbound := b.start.toNat_lt
  have hdown : (a.start - b.start).toNat = 2 ^ 64 - (b.start.toNat - a.start.toNat) := by
    rw [UInt64.toNat_sub]
    omega
  have hup : (b.start - a.start).toNat = b.start.toNat - a.start.toNat := by
    rw [UInt64.toNat_sub]
    omega
  unfold symbCmp
  rw [hdown, hup, Int.bmod_def, Int.bmod_def]
  split_ifs <;> omega

theorem sortSymbol_iff : SortSymbol symbs sorted ↔ Qsorted symbCmp symbs sorted := by
  unfold SortSymbol
  split_ifs with hempty
  · have hsymbs : symbs = [] := List.length_eq_zero_iff.mp hempty
    subst hsymbs
    constructor
    · rintro rfl
      exact ⟨List.Perm.refl _, fun _ => List.Pairwise.nil⟩
    · intro h
      exact h.perm.eq_nil
  · rfl

theorem exists_parted (h : sorted.Pairwise fun a b => a.start.toNat ≤ b.start.toNat)
    (targetAddr : UInt64) : ∃ low high, sorted = low ++ high ∧ Parted targetAddr low high := by
  induction h with
  | nil => exact ⟨[], [], rfl, by simp, by simp⟩
  | @cons symb rest hsymb _ ih =>
      by_cases hstart : symb.start ≤ targetAddr
      · obtain ⟨low, high, rfl, hlow, hhigh⟩ := ih
        exact ⟨symb :: low, high, rfl, List.forall_mem_cons.mpr ⟨hstart, hlow⟩, hhigh⟩
      · rw [UInt64.not_le] at hstart
        refine ⟨[], symb :: rest, rfl, by simp, List.forall_mem_cons.mpr ⟨hstart, ?_⟩⟩
        intro other hother
        have hle := hsymb other hother
        rw [UInt64.lt_iff_toNat_lt] at hstart ⊢
        omega

-- Every lookup that finds something finds a symbol that holds the address.
theorem lookedUp_iff (hperm : sorted.Perm symbs) :
    LookedUp symbs orignAddr targetAddr comm (doSearchAddr sorted orignAddr targetAddr comm) ↔
      ((∃ symb ∈ symbs, symb.Holds targetAddr) →
        (doSearchAddr sorted orignAddr targetAddr comm).isSome) := by
  have hreported {addrSymb : AddrSymb}
      (hsome : doSearchAddr sorted orignAddr targetAddr comm = some addrSymb) :
      ∃ symb ∈ symbs, symb.Holds targetAddr ∧ addrSymb.sym = symb.symbName ∧
        addrSymb.offset.toNat = targetAddr.toNat - symb.start.toNat ∧
        addrSymb.orignAddr = orignAddr ∧ addrSymb.mod = comm := by
    obtain ⟨symb, hmem, h⟩ := doSearchAddr_reported hsome
    exact ⟨symb, hperm.mem_iff.mp hmem, h⟩
  constructor
  · intro h
    exact h.isSome_iff.mpr
  · intro h
    refine ⟨⟨fun hsome => ?_, h⟩, fun addrSymb => hreported⟩
    obtain ⟨addrSymb, hsome⟩ := Option.isSome_iff_exists.mp hsome
    obtain ⟨symb, hmem, hholds, -⟩ := hreported hsome
    exact ⟨symb, hmem, hholds⟩

-- The lookup does what it has to, whatever `qsort` leaves.
def Guaranteed (symbs : List Symb) (orignAddr targetAddr : UInt64) (comm : Text) : Prop :=
  ∀ sorted, SortSymbol symbs sorted →
    LookedUp symbs orignAddr targetAddr comm
      (searchElfSymb (some sorted) orignAddr targetAddr comm)

-- No symbol holds the address; or the comparison sees the order of the starts, some
-- symbol starts behind the address, and a symbol holds it whose end does not wrap around
-- and behind whose start none starts that ends before the last start up to the address.
def Findable (symbs : List Symb) (targetAddr : UInt64) : Prop :=
  (∀ symb ∈ symbs, ¬symb.Holds targetAddr) ∨
    OrdersBy (fun symb => symb.start.toNat) symbCmp symbs ∧
      (∃ symb ∈ symbs, targetAddr < symb.start) ∧
      ∃ symb ∈ symbs, symb.start ≤ targetAddr ∧ targetAddr < symb.stop ∧
        ∀ nested ∈ symbs, symb.start ≤ nested.start → nested.start ≤ targetAddr →
          ∀ other ∈ symbs, other.start ≤ targetAddr → other.start ≤ nested.stop

theorem Findable.guaranteed (h : Findable symbs targetAddr) :
    Guaranteed symbs orignAddr targetAddr comm := by
  intro sorted hsort
  rw [sortSymbol_iff] at hsort
  refine (lookedUp_iff hsort.perm).mpr fun hholds => ?_
  obtain hnone | ⟨horders, ⟨later, hlater, hbehind⟩, symb, hsymb, hstart, hstop, hnested⟩ := h
  · obtain ⟨symb, hmem, hholds⟩ := hholds
    exact absurd hholds (hnone symb hmem)
  have hsorted := horders.sorted symbCmp_of_eq hsort
  obtain ⟨low, high, rfl, hparted⟩ := exists_parted hsorted targetAddr
  rw [doSearchAddr_isSome_iff hparted]
  have hmem (symb : Symb) : symb ∈ symbs ↔ symb ∈ low ∨ symb ∈ high := by
    rw [← hsort.perm.mem_iff, List.mem_append]
  have hlow : symb ∈ low := ((hmem symb).mp hsymb).resolve_right fun hhigh =>
    UInt64.not_lt.mpr hstart (hparted.high symb hhigh)
  have hhigh : later ∈ high := ((hmem later).mp hlater).resolve_left fun hlow =>
    UInt64.not_lt.mpr (hparted.low later hlow) hbehind
  obtain ⟨before, passed, rfl⟩ := List.append_of_mem hlow
  obtain ⟨first, hfirst⟩ : ∃ first, (before ++ symb :: passed).getLast? = some first :=
    Option.ne_none_iff_exists'.mp (by simp)
  refine ⟨List.ne_nil_of_mem hhigh, before, symb, passed, first, rfl, hfirst, hstop, ?_⟩
  intro other hother
  have hotherLow : other ∈ before ++ symb :: passed := by simp [hother]
  have hfirstLow := List.mem_of_getLast? hfirst
  refine hnested other ((hmem other).mpr (.inl hotherLow)) ?_ (hparted.low other hotherLow) first
    ((hmem first).mpr (.inl hfirstLow)) (hparted.low first hfirstLow)
  have hle : symb.start.toNat ≤ other.start.toNat := by
    rw [List.append_assoc, List.pairwise_append] at hsorted
    exact (List.pairwise_cons.mp hsorted.2.1).1 other (by simp [hother])
  exact UInt64.le_iff_toNat_le.mpr hle

theorem start_le_getLast {first other : Symb}
    (hsorted : low.Pairwise fun a b => a.start.toNat ≤ b.start.toNat)
    (hfirst : low.getLast? = some first) (hother : other ∈ low) : other.start ≤ first.start := by
  obtain ⟨front, rfl⟩ := List.getLast?_eq_some_iff.mp hfirst
  rw [UInt64.le_iff_toNat_le]
  rcases List.mem_append.mp hother with hfront | hlast
  · exact (List.pairwise_append.mp hsorted).2.2 other hfront first (List.mem_singleton_self first)
  · rw [List.mem_singleton.mp hlast]

-- Of symbols with one start, `qsort` may put those that end the search too early last,
-- so that they are the first to be looked at.
theorem Guaranteed.findable (h : Guaranteed symbs orignAddr targetAddr comm)
    (horders : OrdersBy (fun symb => symb.start.toNat) symbCmp symbs) :
    Findable symbs targetAddr := by
  classical
  by_cases hholds : ∃ symb ∈ symbs, symb.Holds targetAddr
  · let hides (symb : Symb) : Prop :=
      ∃ other ∈ symbs, other.start ≤ targetAddr ∧ symb.stop < other.start
    obtain ⟨sorted, hperm, hkeys⟩ := exists_sorted
      (fun symb => 2 * symb.start.toNat + if hides symb then 1 else 0) symbs
    have hsorted : sorted.Pairwise fun a b => a.start.toNat ≤ b.start.toNat := by
      refine hkeys.imp fun hkey => ?_
      split_ifs at hkey <;> omega
    have hqsorted := horders.qsorted symbCmp_of_eq hperm hsorted
    have hsome := (lookedUp_iff hperm).mp (h sorted (sortSymbol_iff.mpr hqsorted)) hholds
    have hmem (symb : Symb) : symb ∈ symbs ↔ symb ∈ sorted := hperm.mem_iff.symm
    obtain ⟨low, high, rfl, hparted⟩ := exists_parted hsorted targetAddr
    obtain ⟨hhigh, before, symb, passed, first, rfl, hfirst, hstop, hpassed⟩ :=
      (doSearchAddr_isSome_iff hparted).mp hsome
    obtain ⟨later, hlater⟩ := List.exists_mem_of_ne_nil high hhigh
    have hlow {other : Symb} (hother : other ∈ symbs) (hstart : other.start ≤ targetAddr) :
        other ∈ before ++ symb :: passed :=
      (List.mem_append.mp ((hmem other).mp hother)).resolve_right fun hmem =>
        UInt64.not_lt.mpr hstart (hparted.high other hmem)
    have hsymbLow : symb ∈ before ++ symb :: passed := by simp
    refine .inr ⟨horders, ⟨later, (hmem later).mpr (by simp [hlater]), hparted.high later hlater⟩,
      symb, (hmem symb).mpr (by simp), hparted.low symb hsymbLow, hstop, ?_⟩
    intro nested hnested hafter hstart other hother hbefore
    rcases List.mem_append.mp (hlow hnested hstart) with hin | hin
    · by_contra hnot
      have hhides : hides nested := ⟨other, hother, hbefore, UInt64.not_le.mp hnot⟩
      have hkey : 2 * nested.start.toNat + 1 ≤
          2 * symb.start.toNat + if hides symb then 1 else 0 := by
        rw [List.append_assoc, List.pairwise_append] at hkeys
        simpa only [hhides, if_true] using hkeys.2.2 nested hin symb (by simp)
      have hsymb : hides symb := by
        by_contra hnone
        rw [if_neg hnone] at hkey
        rw [UInt64.le_iff_toNat_le] at hafter
        omega
      obtain ⟨last, -, hlast, hover⟩ := hsymb
      exact UInt64.not_lt.mpr hlast (UInt64.lt_trans hstop hover)
    · rcases List.mem_cons.mp hin with rfl | hin
      · exact UInt64.le_of_lt (UInt64.lt_of_le_of_lt hbefore hstop)
      · exact UInt64.le_trans (start_le_getLast (List.pairwise_append.mp hsorted).1 hfirst
          (hlow hother hbefore)) (hpassed nested hin)
  · exact .inl fun symb hsymb hin => hholds ⟨symb, hsymb, hin⟩

-- An inconsistent comparison lets `qsort` leave the symbols behind the address first.
theorem Guaranteed.not_holds (h : Guaranteed symbs orignAddr targetAddr comm)
    (hcmp : ¬Lib.Consistent symbCmp symbs) : ∀ symb ∈ symbs, ¬symb.Holds targetAddr := by
  intro symb hsymb hholds
  have hperm : (symbs.filter (targetAddr < ·.start) ++
      symbs.filter fun symb => !decide (targetAddr < symb.start)).Perm symbs :=
    List.filter_append_perm _ symbs
  have hparted : Parted targetAddr (symbs.filter fun symb => !decide (targetAddr < symb.start))
      (symbs.filter (targetAddr < ·.start)) :=
    ⟨fun other hother => by simpa using (List.mem_filter.mp hother).2,
      fun other hother => by simpa using (List.mem_filter.mp hother).2⟩
  have hsome := (lookedUp_iff hperm).mp
    (h _ (sortSymbol_iff.mpr ⟨hperm, fun hconsistent => absurd hconsistent hcmp⟩))
    ⟨symb, hsymb, hholds⟩
  rw [doSearchAddr_reversed orignAddr comm hparted] at hsome
  cases hsome

-- The lookup is right for an address that is findable. It is wrong for every other one,
-- for symbols whose starts are compared as they are and for those that are compared
-- inconsistently.
theorem searchElfSymb_guaranteed_iff (symbs : List Symb) (orignAddr targetAddr : UInt64)
    (comm : Text) :
    (Findable symbs targetAddr → Guaranteed symbs orignAddr targetAddr comm) ∧
      (OrdersBy (fun symb => symb.start.toNat) symbCmp symbs ∨ ¬Lib.Consistent symbCmp symbs →
        Guaranteed symbs orignAddr targetAddr comm → Findable symbs targetAddr) := by
  refine ⟨Findable.guaranteed, ?_⟩
  rintro (horders | hcmp) hguaranteed
  · exact hguaranteed.findable horders
  · exact .inl (hguaranteed.not_holds hcmp)

end Lookup

-- A function and the one behind it.
def callSymb : Symb := ⟨"call".toList, 0x1000, 16⟩
def nextSymb : Symb := ⟨"next".toList, 0x2000, 16⟩

theorem searchElfSymb_guaranteed_iff_call :
    Guaranteed [callSymb, nextSymb] 0x1004 0x1004 [] := by
  refine (searchElfSymb_guaranteed_iff _ _ _ _).1 (.inr ⟨ordersBy_of_near ?_, ?_, ?_⟩)
  · decide
  · exact ⟨nextSymb, by simp, by decide⟩
  · exact ⟨callSymb, by simp, by decide, by decide, by decide⟩

-- The last symbol of a table is not found.
theorem lastSymb_not_guaranteed :
    ¬∀ symbs orignAddr targetAddr comm, Guaranteed symbs orignAddr targetAddr comm := by
  intro h
  have hsort : SortSymbol [callSymb] ([callSymb] ++ []) :=
    sortSymbol_iff.mpr ⟨List.Perm.refl _, fun _ => List.pairwise_singleton _ _⟩
  have hparted : Parted 0x1000 [callSymb] [] := ⟨by decide, by decide⟩
  have hsome := (h [callSymb] 0x1000 0x1000 [] _ hsort).isSome_iff.mpr
    ⟨callSymb, List.mem_singleton_self callSymb, by decide, by decide⟩
  exact ((doSearchAddr_isSome_iff hparted).mp hsome).1 rfl

end Gopher.Elf
