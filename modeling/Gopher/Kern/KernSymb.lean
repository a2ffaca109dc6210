import Gopher.Elf.JavaSymbs
import Gopher.Lib.Bisect
import Gopher.Lib.Qsort
import Gopher.Lib.Text
import Mathlib.Algebra.Group.Int.Defs
import Mathlib.Algebra.Group.Nat.Defs
import Mathlib.Data.List.GetD
import Mathlib.Data.List.Sort

namespace Gopher.Kern

open Gopher.Lib

-- `kmod` is NULL for a symbol of the kernel itself.
structure KSymb where
  addr : UInt64
  sym : Text
  kmod : Option Text
  deriving DecidableEq, Repr

def kernUnknowSymb : Text := "[kernel]".toList

-- `sym` and `mod` are pointers to what an entry of the table holds. Without an entry they
-- are NULL and `__kern_unknow_symb`.
structure AddrSymb where
  entry : Option KSymb
  orignAddr : UInt64
  offset : UInt64
  deriving DecidableEq, Repr

def AddrSymb.sym (addrSymb : AddrSymb) : Option Text := addrSymb.entry.map KSymb.sym

def AddrSymb.mod (addrSymb : AddrSymb) : Option Text :=
  match addrSymb.entry with
  | none => some kernUnknowSymb
  | some ksym => ksym.kmod

-- The difference of two unsigned numbers, cut to an `int`.
def addrDiff (addr1 addr2 : UInt64) : ℤ := Int.bmod (addr1 - addr2).toNat (2 ^ 32)

-- `result` in the loop. `mid` stays inside the table.
def result (ksyms : List KSymb) (addr : UInt64) (mid : ℕ) : ℤ :=
  match ksyms[mid]? with
  | none => 0
  | some ksym => addrDiff addr ksym.addr

-- There are at most KSYMB_MAX symbols, so that the bounds do not overflow.
def searchKernAddrSymb (ksymbs : Option (List KSymb)) (addr : UInt64) (addrSymb : AddrSymb) :
    AddrSymb × ℤ :=
  match ksymbs with
  | none => (addrSymb, -1)
  | some ksyms =>
      match bisect (result ksyms addr) 0 ksyms.length with
      | .hit mid => (⟨ksyms[mid]?, addr, 0⟩, 0)
      | .stopped start =>
          match if start ≥ 1 then ksyms[start - 1]? else none with
          | none => (⟨none, addr, 0⟩, -1)
          | some ksym =>
              if ksym.addr < addr then (⟨some ksym, addr, addr - ksym.addr⟩, 0)
              else if ksym.addr > addr then (⟨some ksym, addr, ksym.addr - addr⟩, 0)
              else (⟨none, addr, 0⟩, -1)

def ksymbCmp (symb1 symb2 : KSymb) : ℤ := addrDiff symb1.addr symb2.addr

-- `sort_kern_syms` of a table.
def SortKernSyms (ksyms sorted : List KSymb) : Prop := Qsorted ksymbCmp ksyms sorted

variable {ksyms sorted : List KSymb} {addr : UInt64} {addrSymb : AddrSymb} {ksym : KSymb}

-- The symbols with the greatest address that is not above the target.
structure Nearest (ksyms : List KSymb) (addr : UInt64) (ksym : KSymb) : Prop where
  mem : ksym ∈ ksyms
  le : ksym.addr ≤ addr
  greatest : ∀ other ∈ ksyms, other.addr ≤ addr → other.addr ≤ ksym.addr

-- What a lookup has to give.
structure LookedUp (ksyms : List KSymb) (addr : UInt64) (found : AddrSymb × ℤ) : Prop where
  above : (∃ ksym ∈ ksyms, ksym.addr ≤ addr) →
    found.2 = 0 ∧ ∃ ksym, Nearest ksyms addr ksym ∧ found.1 = ⟨some ksym, addr, addr - ksym.addr⟩
  below : (∀ ksym ∈ ksyms, addr < ksym.addr) → found.2 = -1

theorem Nearest.of_perm (hperm : sorted.Perm ksyms) (h : Nearest sorted addr ksym) :
    Nearest ksyms addr ksym where
  mem := hperm.mem_iff.mp h.mem
  le := h.le
  greatest other hother := h.greatest other (hperm.mem_iff.mpr hother)

theorem LookedUp.of_perm {found : AddrSymb × ℤ} (hperm : sorted.Perm ksyms)
    (h : LookedUp sorted addr found) : LookedUp ksyms addr found where
  above := by
    rintro ⟨ksym, hmem, hle⟩
    obtain ⟨hret, nearest, hnearest, heq⟩ := h.above ⟨ksym, hperm.mem_iff.mpr hmem, hle⟩
    exact ⟨hret, nearest, hnearest.of_perm hperm, heq⟩
  below hall := h.below fun ksym hmem => hall ksym (hperm.mem_iff.mp hmem)

-- A lookup that reports a symbol reports one of the nearest.
theorem LookedUp.nearest {found : AddrSymb × ℤ} (h : LookedUp ksyms addr found)
    (hret : found.2 = 0) :
    ∃ ksym, Nearest ksyms addr ksym ∧ found.1 = ⟨some ksym, addr, addr - ksym.addr⟩ := by
  by_cases habove : ∃ ksym ∈ ksyms, ksym.addr ≤ addr
  · exact (h.above habove).2
  · have hbelow := h.below fun ksym hmem =>
      UInt64.not_le.mp fun hle => habove ⟨ksym, hmem, hle⟩
    rw [hret] at hbelow
    cases hbelow

section AddrDiff

-- What `result` would be without the cut.
def exactDiff (addr1 addr2 : UInt64) : ℤ := addr1.toNat - addr2.toNat

theorem addrDiff_self (addr : UInt64) : addrDiff addr addr = 0 := by
  have hzero : (addr - addr).toNat = 0 := by rw [UInt64.sub_self, UInt64.toNat_zero]
  unfold addrDiff
  rw [hzero]
  exact Int.zero_bmod

-- Addresses that are less than 2^31 apart are compared as they are.
theorem sameSide_addrDiff {addr1 addr2 : UInt64} (hup : addr2.toNat < addr1.toNat + 2 ^ 31)
    (hdown : addr1.toNat < addr2.toNat + 2 ^ 31) :
    SameSide (addrDiff addr1 addr2) (exactDiff addr1 addr2) := by
  have hbound := addr1.toNat_lt
  have hbound' := addr2.toNat_lt
  unfold SameSide addrDiff exactDiff
  rw [UInt64.toNat_sub, Int.bmod_def]
  omega

end AddrDiff

section Search

-- The comparison in the table of the addresses.
def exactResult (addrs : List UInt64) (addr : UInt64) (mid : ℕ) : ℤ :=
  match addrs[mid]? with
  | none => 0
  | some ksymAddr => exactDiff addr ksymAddr

theorem result_of_some {mid : ℕ} (hat : sorted[mid]? = some ksym) :
    result sorted addr mid = addrDiff addr ksym.addr := by
  simp only [result, hat]

theorem exactResult_of_some {mid : ℕ} (hat : sorted[mid]? = some ksym) :
    exactResult (sorted.map KSymb.addr) addr mid = exactDiff addr ksym.addr := by
  simp only [exactResult, List.getElem?_map, hat, Option.map_some]

theorem search_hit {mid : ℕ} (hbisect : bisect (result sorted addr) 0 sorted.length = .hit mid)
    (hat : sorted[mid]? = some ksym) :
    searchKernAddrSymb (some sorted) addr addrSymb = (⟨some ksym, addr, 0⟩, 0) := by
  simp only [searchKernAddrSymb, hbisect, hat]

theorem search_stopped_zero (hbisect : bisect (result sorted addr) 0 sorted.length = .stopped 0) :
    searchKernAddrSymb (some sorted) addr addrSymb = (⟨none, addr, 0⟩, -1) := by
  simp only [searchKernAddrSymb, hbisect]
  rfl

theorem search_stopped_succ {before : ℕ}
    (hbisect : bisect (result sorted addr) 0 sorted.length = .stopped (before + 1))
    (hat : sorted[before]? = some ksym) :
    searchKernAddrSymb (some sorted) addr addrSymb =
      if ksym.addr < addr then (⟨some ksym, addr, addr - ksym.addr⟩, 0)
      else if ksym.addr > addr then (⟨some ksym, addr, ksym.addr - addr⟩, 0)
      else (⟨none, addr, 0⟩, -1) := by
  have hge : before + 1 ≥ 1 := by omega
  simp only [searchKernAddrSymb, hbisect, hge, ite_true, Nat.add_sub_cancel, hat]

variable (hsorted : sorted.Pairwise fun a b => a.addr.toNat ≤ b.addr.toNat)

include hsorted

theorem addr_le_of_le {i j : ℕ} {first second : KSymb} (hle : i ≤ j) (hi : sorted[i]? = some first)
    (hj : sorted[j]? = some second) : first.addr.toNat ≤ second.addr.toNat := by
  obtain ⟨hfirst, rfl⟩ := List.getElem?_eq_some_iff.mp hi
  obtain ⟨hsecond, rfl⟩ := List.getElem?_eq_some_iff.mp hj
  rcases Nat.lt_or_eq_of_le hle with hlt | rfl
  · exact List.pairwise_iff_getElem.mp hsorted i j hfirst hsecond hlt
  · exact Nat.le_refl _

-- A bisection whose comparisons all come out on the right side finds a nearest symbol.
theorem lookedUp_of_sameSide
    (h : ∀ mid ∈ probes (exactResult (sorted.map KSymb.addr) addr) 0 sorted.length,
      SameSide (result sorted addr mid) (exactResult (sorted.map KSymb.addr) addr mid)) :
    LookedUp sorted addr (searchKernAddrSymb (some sorted) addr addrSymb) := by
  have hcongr := bisect_congr h
  cases hbisect : bisect (exactResult (sorted.map KSymb.addr) addr) 0 sorted.length with
  | hit mid =>
      rw [hbisect] at hcongr
      obtain ⟨-, hmid, hzero⟩ := bisect_hit hbisect
      have hat := List.getElem?_eq_getElem hmid
      rw [exactResult_of_some hat, exactDiff] at hzero
      have heq : sorted[mid].addr = addr := UInt64.toNat_inj.mp (by omega)
      have hmem := List.getElem_mem hmid
      rw [search_hit hcongr hat]
      refine ⟨fun _ => ⟨rfl, sorted[mid], ⟨hmem, UInt64.le_of_eq heq, ?_⟩, ?_⟩, fun hall => ?_⟩
      · intro other _ hle
        exact heq ▸ hle
      · rw [heq, UInt64.sub_self]
      · have hlt := hall _ hmem
        rw [heq] at hlt
        exact absurd hlt (UInt64.lt_irrefl _)
  | stopped start =>
      rw [hbisect] at hcongr
      obtain ⟨-, hlast, hbefore, hat⟩ := bisect_stopped (Nat.zero_le _) hbisect
      -- from the bound on all symbols lie behind the target
      have hbehind {i : ℕ} {other : KSymb} (hle : start ≤ i) (hi : sorted[i]? = some other) :
          addr.toNat < other.addr.toNat := by
        have hlt := (List.getElem?_eq_some_iff.mp hi).1
        have hstart := List.getElem?_eq_getElem (Nat.lt_of_le_of_lt hle hlt)
        have hfirst := addr_le_of_le hsorted hle hstart hi
        have hneg := hat.resolve_left (by omega)
        rw [exactResult_of_some hstart, exactDiff] at hneg
        omega
      cases start with
      | zero =>
          rw [search_stopped_zero hcongr]
          refine ⟨?_, fun _ => rfl⟩
          rintro ⟨ksym, hmem, hle⟩
          obtain ⟨i, hi⟩ := List.getElem?_of_mem hmem
          have hlt := hbehind (Nat.zero_le i) hi
          rw [UInt64.le_iff_toNat_le] at hle
          omega
      | succ before =>
          have hksym := List.getElem?_eq_getElem hlast
          have hpos := hbefore.resolve_left (by omega)
          rw [Nat.add_sub_cancel, exactResult_of_some hksym, exactDiff] at hpos
          have hmem := List.getElem_mem hlast
          have hlt : sorted[before].addr < addr := by
            rw [UInt64.lt_iff_toNat_lt]
            omega
          rw [search_stopped_succ hcongr hksym, if_pos hlt]
          refine ⟨fun _ => ⟨rfl, sorted[before], ⟨hmem, UInt64.le_of_lt hlt, ?_⟩, rfl⟩, ?_⟩
          · intro other hother hle
            obtain ⟨i, hi⟩ := List.getElem?_of_mem hother
            rw [UInt64.le_iff_toNat_le] at hle ⊢
            by_cases hbound : before + 1 ≤ i
            · have hlt := hbehind hbound hi
              omega
            · exact addr_le_of_le hsorted (by omega) hi hksym
          · intro hall
            exact absurd (hall _ hmem) (UInt64.not_lt.mpr (UInt64.le_of_lt hlt))

omit hsorted

-- A hit of the loop is right only for a symbol at the target.
theorem addr_eq_of_hit {mid : ℕ}
    (h : LookedUp sorted addr (searchKernAddrSymb (some sorted) addr addrSymb))
    (hbisect : bisect (result sorted addr) 0 sorted.length = .hit mid)
    (hat : sorted[mid]? = some ksym) : ksym.addr = addr := by
  rw [search_hit hbisect hat] at h
  obtain ⟨nearest, hnearest, heq⟩ := h.nearest rfl
  injection heq with hentry _ hoffset
  obtain rfl : ksym = nearest := Option.some.inj hentry
  have hsub := UInt64.toNat_sub_of_le _ _ hnearest.le
  rw [← hoffset, UInt64.toNat_zero] at hsub
  have hle := UInt64.le_iff_toNat_le.mp hnearest.le
  exact UInt64.toNat_inj.mp (by omega)

-- A stop behind a symbol is right only if that symbol is a nearest one.
theorem nearest_of_stopped {before : ℕ}
    (h : LookedUp sorted addr (searchKernAddrSymb (some sorted) addr addrSymb))
    (hbisect : bisect (result sorted addr) 0 sorted.length = .stopped (before + 1))
    (hat : sorted[before]? = some ksym) (hne : ksym.addr ≠ addr) : Nearest sorted addr ksym := by
  rw [search_stopped_succ hbisect hat] at h
  split_ifs at h with hlt hgt
  · obtain ⟨nearest, hnearest, heq⟩ := h.nearest rfl
    injection heq with hentry
    exact Option.some.inj hentry ▸ hnearest
  · obtain ⟨nearest, hnearest, heq⟩ := h.nearest rfl
    injection heq with hentry
    exact Option.some.inj hentry ▸ hnearest
  · exact absurd (UInt64.le_antisymm (UInt64.not_lt.mp hgt) (UInt64.not_lt.mp hlt)) hne

-- The first comparison on the wrong side cannot be made good.
theorem sameSide_of_lookedUp (hsorted : sorted.Pairwise fun a b => a.addr.toNat ≤ b.addr.toNat)
    (h : LookedUp sorted addr (searchKernAddrSymb (some sorted) addr addrSymb)) :
    ∀ mid ∈ probes (exactResult (sorted.map KSymb.addr) addr) 0 sorted.length,
      SameSide (result sorted addr mid) (exactResult (sorted.map KSymb.addr) addr mid) := by
  by_contra hwrong
  obtain ⟨low, high, -, hrange, hhigh, hlow, hbisect, hside⟩ := bisect_diverges hwrong
  have hmid : low + (high - low) / 2 < sorted.length := by omega
  have hat := List.getElem?_eq_getElem hmid
  generalize sorted[low + (high - low) / 2] = ksym at hat
  have hmem := List.mem_of_getElem? hat
  have hresult : result sorted addr (low + (high - low) / 2) = _ := result_of_some hat
  rw [exactResult_of_some hat, hresult] at hside
  have hne : ksym.addr ≠ addr := by
    rintro rfl
    rw [addrDiff_self, exactDiff, Int.sub_self] at hside
    exact hside ⟨Iff.rfl, Iff.rfl⟩
  have hne' : ksym.addr.toNat ≠ addr.toNat := fun heq => hne (UInt64.toNat_inj.mp heq)
  unfold SameSide exactDiff at hside
  rcases Int.lt_trichotomy (addrDiff addr ksym.addr) 0 with hneg | hzero | hpos
  · -- the symbol lies before the target, but the search goes on before the symbol
    have hlt : ksym.addr.toNat < addr.toNat := by omega
    rw [bisect_of_neg hrange (hresult ▸ hneg)] at hbisect
    cases hend : bisect (result sorted addr) low (low + (high - low) / 2) with
    | hit mid =>
        obtain ⟨-, hbefore, -⟩ := bisect_hit hend
        have hhit := List.getElem?_eq_getElem (Nat.lt_trans hbefore hmid)
        have heq := addr_eq_of_hit h (hbisect.trans hend) hhit
        have hle := addr_le_of_le hsorted (Nat.le_of_lt hbefore) hhit hat
        rw [heq] at hle
        omega
    | stopped start =>
        obtain ⟨hge, hle, hbefore, -⟩ := bisect_stopped (by omega) hend
        rw [hend] at hbisect
        cases start with
        | zero =>
            rw [search_stopped_zero hbisect] at h
            have hret := (h.above ⟨ksym, hmem, UInt64.le_iff_toNat_le.mpr (by omega)⟩).1
            cases hret
        | succ before =>
            have hpos : 0 < result sorted addr before := by
              rcases hbefore with rfl | hbefore
              · exact hlow.resolve_left (by omega)
              · exact hbefore
            have hlast : before < sorted.length := by omega
            have hstop := List.getElem?_eq_getElem hlast
            have hle := addr_le_of_le hsorted (by omega) hstop hat
            have hnearest := nearest_of_stopped h hbisect hstop fun heq => by
              rw [heq] at hle
              omega
            have hge := hnearest.greatest ksym hmem (UInt64.le_iff_toNat_le.mpr (by omega))
            rw [UInt64.le_iff_toNat_le] at hge
            have heq : sorted[before].addr = ksym.addr := UInt64.toNat_inj.mp (by omega)
            rw [result_of_some hstop, heq] at hpos
            omega
  · have hhit := bisect_of_zero hrange (hresult.trans hzero)
    exact hne (addr_eq_of_hit h (hbisect.trans hhit) hat)
  · -- the symbol lies behind the target, but the search goes on behind the symbol
    have hlt : addr.toNat < ksym.addr.toNat := by omega
    rw [bisect_of_pos hrange (hresult ▸ hpos)] at hbisect
    cases hend : bisect (result sorted addr) (low + (high - low) / 2 + 1) high with
    | hit mid =>
        obtain ⟨hbehind, hlast, -⟩ := bisect_hit hend
        have hhit := List.getElem?_eq_getElem (Nat.lt_of_lt_of_le hlast hhigh)
        have heq := addr_eq_of_hit h (hbisect.trans hend) hhit
        have hle := addr_le_of_le hsorted (by omega) hat hhit
        rw [heq] at hle
        omega
    | stopped start =>
        obtain ⟨hge, hle, -, -⟩ := bisect_stopped (by omega) hend
        rw [hend] at hbisect
        cases start with
        | zero => omega
        | succ before =>
            have hlast : before < sorted.length := by omega
            have hstop := List.getElem?_eq_getElem hlast
            have hle := addr_le_of_le hsorted (by omega) hat hstop
            have hnearest := nearest_of_stopped h hbisect hstop fun heq => by
              rw [heq] at hle
              omega
            have hle' := UInt64.le_iff_toNat_le.mp hnearest.le
            omega

end Search

section Table

-- The addresses in the order in which they have to be.
def sortedAddrs (ksyms : List KSymb) : List UInt64 :=
  (ksyms.map KSymb.addr).mergeSort fun a b => decide (a ≤ b)

-- The addresses that a bisection of the table for the target looks at.
def lookedAt (ksyms : List KSymb) (addr : UInt64) : List UInt64 :=
  (probes (exactResult (sortedAddrs ksyms) addr) 0 ksyms.length).filterMap
    fun mid => (sortedAddrs ksyms)[mid]?

-- The lookup does what it has to, whatever `qsort` leaves.
def Guaranteed (ksyms : List KSymb) (addr : UInt64) : Prop :=
  ∀ sorted addrSymb, SortKernSyms ksyms sorted →
    LookedUp ksyms addr (searchKernAddrSymb (some sorted) addr addrSymb)

theorem map_addr_eq_sortedAddrs (hperm : sorted.Perm ksyms)
    (hsorted : sorted.Pairwise fun a b => a.addr.toNat ≤ b.addr.toNat) :
    sorted.map KSymb.addr = sortedAddrs ksyms := by
  have hmerge := @List.pairwise_mergeSort UInt64 (fun a b => decide (a ≤ b))
    (fun a b c hab hbc => by simpa using UInt64.le_trans (by simpa using hab) (by simpa using hbc))
    (fun a b => by simpa using UInt64.le_total a b) (ksyms.map KSymb.addr)
  have hleft : (sorted.map KSymb.addr).Pairwise fun a b => decide (a ≤ b) := by
    rw [List.pairwise_map]
    exact hsorted.imp fun h => by simpa using UInt64.le_iff_toNat_le.mpr h
  refine List.Perm.eq_of_pairwise (fun a b _ _ hab hba => ?_) hleft hmerge ?_
  · exact UInt64.le_antisymm (by simpa using hab) (by simpa using hba)
  · exact (hperm.map KSymb.addr).trans (List.mergeSort_perm _ _).symm

theorem sameSide_iff_lookedAt (hperm : sorted.Perm ksyms)
    (hsorted : sorted.Pairwise fun a b => a.addr.toNat ≤ b.addr.toNat) :
    (∀ mid ∈ probes (exactResult (sorted.map KSymb.addr) addr) 0 sorted.length,
      SameSide (result sorted addr mid) (exactResult (sorted.map KSymb.addr) addr mid)) ↔
    ∀ ksymAddr ∈ lookedAt ksyms addr,
      SameSide (addrDiff addr ksymAddr) (exactDiff addr ksymAddr) := by
  have haddrs := map_addr_eq_sortedAddrs hperm hsorted
  rw [lookedAt, ← haddrs, ← hperm.length_eq]
  constructor
  · intro h ksymAddr hmem
    obtain ⟨mid, hmid, hat⟩ := List.mem_filterMap.mp hmem
    rw [List.getElem?_map] at hat
    obtain ⟨ksym, hksym, rfl⟩ := Option.map_eq_some_iff.mp hat
    have hside := h mid hmid
    rwa [result_of_some hksym, exactResult_of_some hksym] at hside
  · intro h mid hmid
    cases hksym : sorted[mid]? with
    | none => simp [result, exactResult, SameSide, hksym]
    | some ksym =>
        rw [result_of_some hksym, exactResult_of_some hksym]
        refine h _ (List.mem_filterMap.mpr ⟨mid, hmid, ?_⟩)
        rw [List.getElem?_map, hksym, Option.map_some]

theorem ksymbCmp_of_eq (symb1 symb2 : KSymb) (h : symb1.addr.toNat = symb2.addr.toNat) :
    ksymbCmp symb1 symb2 = 0 := by
  rw [ksymbCmp, UInt64.toNat_inj.mp h, addrDiff_self]

-- The comparison sees the order of the table, and every address that a bisection looks at
-- is compared with the target on the right side.
structure Comparable (ksyms : List KSymb) (addr : UInt64) : Prop where
  orders : OrdersBy (fun ksym => ksym.addr.toNat) ksymbCmp ksyms
  looked : ∀ ksymAddr ∈ lookedAt ksyms addr,
    SameSide (addrDiff addr ksymAddr) (exactDiff addr ksymAddr)

theorem Comparable.guaranteed (h : Comparable ksyms addr) : Guaranteed ksyms addr := by
  intro sorted addrSymb hqsorted
  have hsorted := h.orders.sorted ksymbCmp_of_eq hqsorted
  have hlooked := (sameSide_iff_lookedAt hqsorted.perm hsorted).mpr h.looked
  exact (lookedUp_of_sameSide hsorted hlooked).of_perm hqsorted.perm

theorem Guaranteed.comparable (h : Guaranteed ksyms addr)
    (horders : OrdersBy (fun ksym => ksym.addr.toNat) ksymbCmp ksyms) :
    Comparable ksyms addr := by
  obtain ⟨sorted, hperm, hsorted⟩ := exists_sorted (fun ksym : KSymb => ksym.addr.toNat) ksyms
  have hfound := h sorted ⟨none, 0, 0⟩ (horders.qsorted ksymbCmp_of_eq hperm hsorted)
  have hside := sameSide_of_lookedUp hsorted (hfound.of_perm hperm.symm)
  exact ⟨horders, (sameSide_iff_lookedAt hperm hsorted).mp hside⟩

-- The lookup is right where the table and the target are comparable. In a table whose
-- order the comparison sees it is wrong for every other target.
theorem searchKernAddrSymb_guaranteed_iff (ksyms : List KSymb) (addr : UInt64) :
    (Comparable ksyms addr → Guaranteed ksyms addr) ∧
      (OrdersBy (fun ksym => ksym.addr.toNat) ksymbCmp ksyms →
        Guaranteed ksyms addr → Comparable ksyms addr) :=
  ⟨Comparable.guaranteed, fun horders hguaranteed => hguaranteed.comparable horders⟩

-- Addresses that lie within 2^31 of each other and of the target are comparable.
theorem comparable_of_near
    (hksyms : ∀ a ∈ ksyms, ∀ b ∈ ksyms, b.addr.toNat < a.addr.toNat + 2 ^ 31)
    (haddr : ∀ a ∈ ksyms, a.addr.toNat < addr.toNat + 2 ^ 31 ∧
      addr.toNat < a.addr.toNat + 2 ^ 31) : Comparable ksyms addr := by
  constructor
  · intro a ha b hb hlt
    have hnear := sameSide_addrDiff (hksyms a ha b hb) (hksyms b hb a ha)
    have hnear' := sameSide_addrDiff (hksyms b hb a ha) (hksyms a ha b hb)
    change a.addr.toNat < b.addr.toNat at hlt
    refine ⟨hnear.1.mpr ?_, hnear'.2.mpr ?_⟩ <;> unfold exactDiff <;> omega
  · intro ksymAddr hmem
    obtain ⟨mid, -, hat⟩ := List.mem_filterMap.mp hmem
    have hmem := (List.mergeSort_perm _ _).mem_iff.mp (List.mem_of_getElem? hat)
    obtain ⟨ksym, hksym, rfl⟩ := List.mem_map.mp hmem
    exact sameSide_addrDiff (haddr ksym hksym).1 (haddr ksym hksym).2

end Table

-- A function of the kernel and one of a module.
def kernSymb : KSymb := ⟨0xffff800010000000, "schedule".toList, none⟩
def modSymb : KSymb := ⟨0xffff800009294000, "nft_trace".toList, some "nf_tables".toList⟩

theorem searchKernAddrSymb_guaranteed_iff_near :
    Guaranteed [kernSymb, modSymb] 0xffff800010000010 :=
  (searchKernAddrSymb_guaranteed_iff _ _).1 (comparable_of_near (by decide) (by decide))

-- A target 2^31 behind the only symbol is not found.
theorem kernSymb_not_guaranteed : ¬∀ ksyms addr, Guaranteed ksyms addr := by
  intro h
  have hcomparable : Comparable [kernSymb] 0xffff800090000000 :=
    (h _ _).comparable (by unfold OrdersBy; decide)
  have hside := hcomparable.looked kernSymb.addr
    (by simp [lookedAt, sortedAddrs, probes])
  exact absurd hside (by decide)

-- One line of the symbol file, and what is stored to the buffers of a name and a module.

def KSYMB_NAME_LEN : ℕ := 64
def KSYMB_MOD_LEN : ℕ := 64

-- `KERN_ADDR_SPACE` of the builds for x86 and of the others.
def kernAddrSpace (x86 : Bool) : UInt64 := if x86 then 0x00FFFFFFFFFFFFFF else 0

def addrErr (x86 : Bool) (addr : UInt64) : Bool :=
  addr == 0 || addr == 0xFFFFFFFFFFFFFFFF || addr < kernAddrSpace x86

def isKernDataSymbol (type : Char) : Bool := ['B', 'b', 'd', 'R', 'r', 'D'].contains type

-- `*p`. The bytes behind those that are given are taken to be zero.
def charAt (memory : Text) (p : ℕ) : Char := memory.getD p '\x00'

-- `strchr(p, char)` as an index.
def strchr (memory : Text) (p : ℕ) (char : Char) : Option ℕ :=
  (((memory.drop p).takeWhile (· ≠ '\x00')).findIdx? (· = char)).map (p + ·)

-- Where a loop that copies a token stops.
def stopsAt (memory : Text) (stop : Option ℕ) (p : ℕ) : Prop :=
  charAt memory p = ' ' ∨ charAt memory p = '\n' ∨ stop = some p

instance (memory : Text) (stop : Option ℕ) (p : ℕ) : Decidable (stopsAt memory stop p) :=
  inferInstanceAs (Decidable (_ ∨ _ ∨ _))

-- The characters that the loop stores, one behind the other, while it has `room`.
def copyToken (memory : Text) (stop : Option ℕ) : (room p : ℕ) → Text
  | 0, _ => []
  | room + 1, p =>
      if stopsAt memory stop p then []
      else charAt memory p :: copyToken memory stop room (p + 1)

-- The stores to an array, each an index with what is put there: the token, and its NUL.
abbrev Stores := List (ℕ × Char)

def tokenStores (token : Text) : Stores :=
  (List.range (token.length + 1)).map fun i => (i, token.getD i '\x00')

-- The symbol, when it is accepted, and the stores to `symb` and `kmod`.
structure Resolved where
  ksymb : Option KSymb
  symb : Stores
  kmod : Stores

-- The string that stands in a copy of `token` and its NUL.
def copied (token : Text) : Text := token.takeWhile (· ≠ '\x00')

-- The module, when brackets stand behind `p`.
def copyModule (memory : Text) (p : ℕ) : Option Text :=
  match strchr memory p '[', strchr memory p ']' with
  | some p1, some p2 => some (copyToken memory (some p2) KSYMB_MOD_LEN (p1 + 1))
  | _, _ => none

-- What is done with the tokens. `granted` are the results of the two `malloc`.
def newKsymb (addr : UInt64) (granted : Bool × Bool) (symb kmod : Text) : Option KSymb :=
  if symb.length = 0 then none
  else if granted.1 = false then none
  else if kmod.length > 0 then
    if granted.2 = false then none else some ⟨addr, copied symb, some (copied kmod)⟩
  else some ⟨addr, copied symb, none⟩

-- `line` is the string that is parsed, `behind` what the memory holds behind its NUL. The
-- name is read without a look at that NUL.
def resolveKsymbs (x86 : Bool) (granted : Bool × Bool) (line behind : Text) : Resolved :=
  let memory := line ++ '\x00' :: behind
  let (addr, rest) := Elf.strtoull line
  let p := line.length - rest.length
  if addrErr x86 addr then ⟨none, [], []⟩
  else
    let p := p + 1
    let symbType := charAt memory p
    if isKernDataSymbol symbType then ⟨none, [], []⟩
    else
      let p := p + 2
      let symb := copyToken memory none KSYMB_NAME_LEN p
      let kmod := copyModule memory (p + symb.length)
      ⟨newKsymb addr granted symb (kmod.getD []), tokenStores symb,
        (kmod.map tokenStores).getD []⟩

-- The stores stay inside an array of `size` characters, and where there are any, the last
-- one is a NUL.
structure Terminated (size : ℕ) (stores : Stores) : Prop where
  inside : ∀ store ∈ stores, store.1 < size
  nul : stores ≠ [] → ∃ len, stores.getLast? = some (len, '\x00')

section Tokens

variable {memory token : Text} {stop : Option ℕ} {room p : ℕ}

-- A token fits with its NUL when the loop stops in front of the last place of the array.
theorem terminated_tokenStores_iff {size : ℕ} :
    Terminated size (tokenStores token) ↔ token.length < size := by
  have hlast : (tokenStores token).getLast? = some (token.length, '\x00') := by
    rw [tokenStores, List.range_succ, List.map_append, List.map_singleton,
      List.getLast?_concat]
    simp
  constructor
  · intro h
    exact h.inside (token.length, '\x00') (List.mem_of_getLast? hlast)
  · intro h
    refine ⟨fun store hstore => ?_, fun _ => ⟨token.length, hlast⟩⟩
    obtain ⟨i, hi, rfl⟩ := List.mem_map.mp hstore
    have := List.mem_range.mp hi
    dsimp only
    omega

-- Fewer characters than there are places stand in front of a stop.
def TokenFits (memory : Text) (stop : Option ℕ) (size p : ℕ) : Prop :=
  ∃ i < size, stopsAt memory stop (p + i)

theorem length_copyToken_lt_iff (size p : ℕ) :
    (copyToken memory stop size p).length < size ↔ TokenFits memory stop size p := by
  induction size generalizing p with
  | zero => exact iff_of_false (Nat.not_lt_zero _) fun ⟨i, hi, _⟩ => Nat.not_lt_zero i hi
  | succ size ih =>
      rw [copyToken]
      by_cases hstop : stopsAt memory stop p
      · rw [if_pos hstop]
        exact iff_of_true (Nat.succ_pos size) ⟨0, Nat.succ_pos size, hstop⟩
      · rw [if_neg hstop, List.length_cons, Nat.succ_lt_succ_iff, ih]
        constructor
        · rintro ⟨i, hi, hstops⟩
          refine ⟨i + 1, Nat.succ_lt_succ hi, ?_⟩
          rwa [Nat.add_right_comm] at hstops
        · rintro ⟨i, hi, hstops⟩
          cases i with
          | zero => exact absurd hstops hstop
          | succ i =>
              refine ⟨i, Nat.lt_of_succ_lt_succ hi, ?_⟩
              rwa [Nat.add_right_comm]

theorem lt_length_of_stopsAt (h : stopsAt memory none p) : p < memory.length := by
  by_contra hle
  have hnul : charAt memory p = '\x00' := by
    rw [charAt, List.getD_eq_getElem?_getD, List.getElem?_eq_none (Nat.le_of_not_lt hle)]
    rfl
  rcases h with hblank | hnewline | hnone
  · rw [hnul] at hblank
    exact absurd hblank (by decide)
  · rw [hnul] at hnewline
    exact absurd hnewline (by decide)
  · cases hnone

theorem charAt_eq_getElem (h : p < memory.length) : charAt memory p = memory[p] :=
  List.getD_eq_getElem _ _ h

theorem stopsAt_none_iff (h : p < memory.length) :
    stopsAt memory none p ↔ Elf.inName memory[p] = false := by
  rw [stopsAt, charAt_eq_getElem h, Elf.inName]
  by_cases hblank : memory[p] = ' '
  · simp [hblank]
  · simp [hblank]

-- A name that fits goes up to the first blank or newline.
theorem length_copyToken_of_fits {size : ℕ} (h : TokenFits memory none size p) :
    (copyToken memory none size p).length = ((memory.drop p).takeWhile Elf.inName).length := by
  induction size generalizing p with
  | zero =>
      obtain ⟨i, hi, -⟩ := h
      exact absurd hi (Nat.not_lt_zero i)
  | succ size ih =>
      obtain ⟨i, hi, hstops⟩ := h
      have hlt : p < memory.length := by
        have := lt_length_of_stopsAt hstops
        omega
      rw [copyToken, List.drop_eq_getElem_cons hlt]
      by_cases hstop : stopsAt memory none p
      · have hname := (stopsAt_none_iff hlt).mp hstop
        rw [if_pos hstop, List.takeWhile_cons_of_neg (by simp [hname])]
      · have hname : Elf.inName memory[p] = true := by
          rw [stopsAt_none_iff hlt, Bool.not_eq_false] at hstop
          exact hstop
        have hrest : TokenFits memory none size (p + 1) := by
          cases i with
          | zero => exact absurd hstops hstop
          | succ i =>
              refine ⟨i, Nat.lt_of_succ_lt_succ hi, ?_⟩
              rwa [Nat.add_right_comm]
        rw [if_neg hstop, List.takeWhile_cons_of_pos hname, List.length_cons, List.length_cons,
          ih hrest]

end Tokens

section Lines

-- Where the digits of the address end.
def addrEnd (line : Text) : ℕ := line.length - (Elf.strtoull line).2.length

-- A line whose address or type is not wanted.
def Refused (x86 : Bool) (line behind : Text) : Prop :=
  addrErr x86 (Elf.strtoull line).1 = true ∨
    isKernDataSymbol (charAt (line ++ '\x00' :: behind) (addrEnd line + 1)) = true

-- The first blank or newline behind the start of a name.
def nameEnd (memory : Text) (start : ℕ) : ℕ :=
  start + ((memory.drop start).takeWhile Elf.inName).length

-- The module stands behind the first bracket that is open, up to the first that is closed.
def ModuleFits (memory : Text) (p : ℕ) : Prop :=
  ∀ p1 p2, strchr memory p '[' = some p1 → strchr memory p ']' = some p2 →
    TokenFits memory (some p2) KSYMB_MOD_LEN (p1 + 1)

-- Name and module are short enough.
def LineFits (line behind : Text) : Prop :=
  let memory := line ++ '\x00' :: behind
  TokenFits memory none KSYMB_NAME_LEN (addrEnd line + 3) ∧
    ModuleFits memory (nameEnd memory (addrEnd line + 3))

theorem terminated_nil (size : ℕ) : Terminated size [] :=
  ⟨by simp, fun h => absurd rfl h⟩

-- The stores to the array of the module.
def moduleStores (memory : Text) (p : ℕ) : Stores :=
  ((copyModule memory p).map tokenStores).getD []

theorem terminated_moduleStores_iff (memory : Text) (p : ℕ) :
    Terminated KSYMB_MOD_LEN (moduleStores memory p) ↔ ModuleFits memory p := by
  rw [moduleStores, copyModule, ModuleFits]
  cases strchr memory p '[' with
  | none =>
      refine iff_of_true (terminated_nil _) fun p1 p2 h => ?_
      cases h
  | some p1 =>
      cases strchr memory p ']' with
      | none =>
          refine iff_of_true (terminated_nil _) fun p1 p2 _ h => ?_
          cases h
      | some p2 =>
          dsimp only [Option.map_some, Option.getD_some]
          rw [terminated_tokenStores_iff, length_copyToken_lt_iff]
          constructor
          · intro h first second hfirst hsecond
            cases hfirst
            cases hsecond
            exact h
          · exact fun h => h p1 p2 rfl rfl

-- What is stored does not depend on the memory that is granted.
theorem resolveKsymbs_accepted (x86 : Bool) (granted : Bool × Bool) (line behind : Text)
    (h : ¬Refused x86 line behind) :
    let memory := line ++ '\x00' :: behind
    let symb := copyToken memory none KSYMB_NAME_LEN (addrEnd line + 3)
    (resolveKsymbs x86 granted line behind).symb = tokenStores symb ∧
      (resolveKsymbs x86 granted line behind).kmod =
        moduleStores memory (addrEnd line + 3 + symb.length) := by
  obtain ⟨haddr, htype⟩ := not_or.mp h
  intro memory symb
  have hresolved : resolveKsymbs x86 granted line behind =
      ⟨newKsymb (Elf.strtoull line).1 granted symb
        ((copyModule memory (addrEnd line + 3 + symb.length)).getD []), tokenStores symb,
        moduleStores memory (addrEnd line + 3 + symb.length)⟩ :=
    (if_neg haddr).trans (if_neg htype)
  rw [hresolved]
  exact ⟨rfl, rfl⟩

theorem resolveKsymbs_refused (x86 : Bool) (granted : Bool × Bool) (line behind : Text)
    (h : Refused x86 line behind) : resolveKsymbs x86 granted line behind = ⟨none, [], []⟩ := by
  by_cases haddr : addrErr x86 (Elf.strtoull line).1 = true
  · exact if_pos haddr
  · exact (if_neg haddr).trans (if_pos (h.resolve_left haddr))

-- Both arrays keep what is stored to them, and a string that is stored ends in a NUL, where
-- the line is refused in front of its name or its tokens are short enough.
theorem resolveKsymbs_terminated_iff (x86 : Bool) (granted : Bool × Bool) (line behind : Text) :
    (Terminated KSYMB_NAME_LEN (resolveKsymbs x86 granted line behind).symb ∧
        Terminated KSYMB_MOD_LEN (resolveKsymbs x86 granted line behind).kmod) ↔
      Refused x86 line behind ∨ LineFits line behind := by
  by_cases hrefused : Refused x86 line behind
  · rw [resolveKsymbs_refused x86 granted line behind hrefused]
    exact iff_of_true ⟨terminated_nil _, terminated_nil _⟩ (.inl hrefused)
  · obtain ⟨hsymb, hkmod⟩ := resolveKsymbs_accepted x86 granted line behind hrefused
    rw [hsymb, hkmod, or_iff_right hrefused, terminated_tokenStores_iff,
      terminated_moduleStores_iff, length_copyToken_lt_iff, LineFits]
    -- behind a name that fits, the search for the brackets starts at the end of the name
    refine and_congr_right fun hname => ?_
    rw [length_copyToken_of_fits hname, nameEnd]

-- A name of as many characters as there are places.
def longName : Text := "ffffffff81000000 t ".toList ++ List.replicate 64 'a' ++ ['\n']

theorem resolveKsymbs_long_name :
    ¬∀ (x86 : Bool) (granted : Bool × Bool) (line behind : Text),
      Terminated KSYMB_NAME_LEN (resolveKsymbs x86 granted line behind).symb ∧
        Terminated KSYMB_MOD_LEN (resolveKsymbs x86 granted line behind).kmod := by
  intro h
  have hsymb := (h true (true, true) longName []).1.inside (64, '\x00') (by decide +kernel)
  exact absurd hsymb (by decide)

end Lines

end Gopher.Kern
