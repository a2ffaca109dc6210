import Gopher.Elf.SymbSearch

namespace Gopher.Elf

open Gopher.Lib

inductive ModuleType
  | UNKNOW
  | SO
  | EXEC
  | JVM
  | MAP
  | VDSO
  deriving DecidableEq, Repr

structure ModAddrRage where
  start : UInt64
  stop : UInt64
  fOffset : UInt64
  deriving DecidableEq, Repr

-- The ranges are the first `addr_ranges_count` of the array.
structure Mod where
  modType : ModuleType
  modElfSoAddr : UInt64
  modElfSoOffset : UInt64
  addrRanges : List ModAddrRage
  debugSymbs : Option (List Symb)
  modSymbs : Option (List Symb)
  deriving DecidableEq, Repr

-- The first `mods_count` pointers to modules.
structure ProcSymbs where
  comm : Text
  mods : List (Option Mod)
  deriving DecidableEq, Repr

def getModTargetAddr (mod : Mod) (range : ModAddrRage) (addr : UInt64) : UInt64 :=
  if mod.modType = .SO ∨ mod.modType = .VDSO then
    addr - (range.start - range.fOffset) + (mod.modElfSoAddr - mod.modElfSoOffset)
  else addr

def ModAddrRage.Contains (range : ModAddrRage) (addr : UInt64) : Prop :=
  addr ≥ range.start ∧ addr < range.stop

instance (range : ModAddrRage) (addr : UInt64) : Decidable (range.Contains addr) :=
  inferInstanceAs (Decidable (_ ∧ _))

-- `none` is the return value 0, otherwise `target_addr` is set.
def isModContainAddr (mod : Mod) (addr : UInt64) : Option UInt64 :=
  (mod.addrRanges.find? fun range => range.Contains addr).map
    fun range => getModTargetAddr mod range addr

-- One round of the loop. `some` leaves it.
def searchMod (procSymbs : ProcSymbs) (addr : UInt64) (comm : Text) (mod : Mod) :
    Option AddrSymb :=
  if mod.modType = .JVM then searchElfSymb mod.modSymbs addr addr procSymbs.comm
  else
    match searchElfSymb mod.debugSymbs addr addr comm with
    | some addrSymb => some addrSymb
    | none =>
        match isModContainAddr mod addr with
        | none => none
        | some targetAddr => searchElfSymb mod.modSymbs addr targetAddr comm

-- `none` is a return value other than 0, with which only `orign_addr` is set.
def procSearchAddrSymb (procSymbs : ProcSymbs) (addr : UInt64) (comm : Text) : Option AddrSymb :=
  procSymbs.mods.findSome? fun mod => mod.bind (searchMod procSymbs addr comm)

variable {procSymbs : ProcSymbs} {addr : UInt64} {comm : Text} {mod : Mod} {found : AddrSymb}

-- The range of a module through which an address is translated.
structure FirstRange (mod : Mod) (addr : UInt64) (range : ModAddrRage) : Prop where
  contains : range.Contains addr
  first : ∃ before after, mod.addrRanges = before ++ range :: after ∧
    ∀ other ∈ before, ¬other.Contains addr

-- What a module has to say of an address. The symbols that a JVM writes out are not bound
-- to the ranges of a file. Any other module is asked with the address that one of its
-- ranges translates.
inductive Reports (procSymbs : ProcSymbs) (addr : UInt64) (comm : Text) (mod : Mod)
    (found : AddrSymb) : Prop
  | jvm (htype : mod.modType = .JVM)
      (hfound : searchElfSymb mod.modSymbs addr addr procSymbs.comm = some found)
  | mapped (range : ModAddrRage) (htype : mod.modType ≠ .JVM) (hrange : FirstRange mod addr range)
      (hfound : searchElfSymb mod.modSymbs addr (getModTargetAddr mod range addr) comm = some found)

-- No table of debug symbols knows the address as it is.
def NoDebugSymb (procSymbs : ProcSymbs) (addr : UInt64) (comm : Text) : Prop :=
  ∀ mod, some mod ∈ procSymbs.mods → mod.modType ≠ .JVM →
    searchElfSymb mod.debugSymbs addr addr comm = none

theorem isModContainAddr_eq_some_iff {targetAddr : UInt64} :
    isModContainAddr mod addr = some targetAddr ↔
      ∃ range, FirstRange mod addr range ∧ targetAddr = getModTargetAddr mod range addr := by
  unfold isModContainAddr
  rw [Option.map_eq_some_iff]
  constructor
  · rintro ⟨range, hfind, rfl⟩
    obtain ⟨hcontains, before, after, heq, hbefore⟩ := List.find?_eq_some_iff_append.mp hfind
    refine ⟨range, ⟨by simpa using hcontains, before, after, heq, ?_⟩, rfl⟩
    intro other hother
    simpa using hbefore other hother
  · rintro ⟨range, ⟨hcontains, before, after, heq, hbefore⟩, rfl⟩
    refine ⟨range, List.find?_eq_some_iff_append.mpr ⟨by simpa using hcontains, before, after,
      heq, ?_⟩, rfl⟩
    intro other hother
    simpa using hbefore other hother

theorem searchMod_eq_some_iff
    (hdebug : mod.modType ≠ .JVM → searchElfSymb mod.debugSymbs addr addr comm = none) :
    searchMod procSymbs addr comm mod = some found ↔ Reports procSymbs addr comm mod found := by
  unfold searchMod
  by_cases htype : mod.modType = .JVM
  · rw [if_pos htype]
    constructor
    · exact Reports.jvm htype
    · rintro (⟨-, hfound⟩ | ⟨range, hother, -, -⟩)
      · exact hfound
      · exact absurd htype hother
  · rw [if_neg htype, hdebug htype]
    dsimp only
    constructor
    · intro h
      cases htarget : isModContainAddr mod addr with
      | none =>
          rw [htarget] at h
          cases h
      | some targetAddr =>
          rw [htarget] at h
          obtain ⟨range, hrange, rfl⟩ := isModContainAddr_eq_some_iff.mp htarget
          exact .mapped range htype hrange h
    · rintro (⟨hjvm, -⟩ | ⟨range, -, hrange, hfound⟩)
      · exact absurd hjvm htype
      · rw [isModContainAddr_eq_some_iff.mpr ⟨range, hrange, rfl⟩]
        exact hfound

-- The first module that has something to say of the address is reported, and nothing is
-- reported only if there is none.
theorem procSearchAddrSymb_reports (procSymbs : ProcSymbs) (addr : UInt64) (comm : Text)
    (hdebug : NoDebugSymb procSymbs addr comm) :
    (∀ found, procSearchAddrSymb procSymbs addr comm = some found ↔
      ∃ before mod after, procSymbs.mods = before ++ some mod :: after ∧
        Reports procSymbs addr comm mod found ∧
        ∀ earlier, some earlier ∈ before → ∀ other, ¬Reports procSymbs addr comm earlier other) ∧
    (procSearchAddrSymb procSymbs addr comm = none ↔
      ∀ mod, some mod ∈ procSymbs.mods → ∀ found, ¬Reports procSymbs addr comm mod found) := by
  have hnone (mod : Mod) (hmem : some mod ∈ procSymbs.mods) :
      searchMod procSymbs addr comm mod = none ↔
        ∀ found, ¬Reports procSymbs addr comm mod found := by
    rw [Option.eq_none_iff_forall_ne_some]
    exact forall_congr' fun found => not_congr (searchMod_eq_some_iff (hdebug mod hmem))
  unfold procSearchAddrSymb
  constructor
  · intro found
    rw [List.findSome?_eq_some_iff]
    constructor
    · rintro ⟨before, mod, after, heq, hfound, hbefore⟩
      cases mod with
      | none => cases hfound
      | some mod =>
          have hmem : some mod ∈ procSymbs.mods := by simp [heq]
          refine ⟨before, mod, after, heq, (searchMod_eq_some_iff (hdebug mod hmem)).mp hfound, ?_⟩
          intro earlier hearlier
          exact (hnone earlier (by simp [heq, hearlier])).mp (hbefore _ hearlier)
    · rintro ⟨before, mod, after, heq, hreports, hbefore⟩
      have hmem : some mod ∈ procSymbs.mods := by simp [heq]
      refine ⟨before, some mod, after, heq,
        (searchMod_eq_some_iff (hdebug mod hmem)).mpr hreports, ?_⟩
      intro earlier hearlier
      cases earlier with
      | none => rfl
      | some earlier =>
          exact (hnone earlier (by simp [heq, hearlier])).mpr (hbefore earlier hearlier)
  · rw [List.findSome?_eq_none_iff]
    constructor
    · intro h mod hmem
      exact (hnone mod hmem).mp (h _ hmem)
    · intro h mod hmem
      cases mod with
      | none => rfl
      | some mod => exact (hnone mod hmem).mpr (h mod hmem)

-- A shared object that is mapped from its offset 0x1000 on, and the code that a JVM has
-- compiled.
def soMod : Mod := ⟨.SO, 0x1000, 0x1000, [⟨0x7f0000001000, 0x7f0000003000, 0x1000⟩], none,
  some [callSymb, nextSymb]⟩
def jvmMod : Mod := ⟨.JVM, 0, 0, [⟨0x10000, 0x20000, 0⟩], none, some [callSymb, nextSymb]⟩

theorem call_found (orignAddr : UInt64) :
    ∃ found, searchElfSymb (some [callSymb, nextSymb]) orignAddr 0x1004 [] = some found := by
  have hparted : Parted 0x1004 [callSymb] [nextSymb] := ⟨by decide, by decide⟩
  refine Option.isSome_iff_exists.mp ((doSearchAddr_isSome_iff hparted).mpr ?_)
  exact ⟨by simp, [], callSymb, [], callSymb, rfl, rfl, by decide, List.forall_mem_nil _⟩

theorem procSearchAddrSymb_reports_soMod :
    ∃ found, procSearchAddrSymb ⟨[], [none, some soMod]⟩ 0x7f0000001004 [] = some found := by
  obtain ⟨found, hfound⟩ := call_found 0x7f0000001004
  refine ⟨found, ((procSearchAddrSymb_reports _ _ _ ?_).1 found).mpr
    ⟨[none], soMod, [], rfl, .mapped _ (by decide) ⟨?_, [], [], rfl, by simp⟩ hfound, by simp⟩⟩
  · intro mod hmem _
    obtain rfl : mod = soMod := by simpa using hmem
    rfl
  · decide

-- An address in no range of the JVM is reported nevertheless.
theorem jvmMod_outside_ranges :
    ¬∀ procSymbs addr comm found, procSearchAddrSymb procSymbs addr comm = some found →
      ∃ mod, some mod ∈ procSymbs.mods ∧ ∃ range ∈ mod.addrRanges, range.Contains addr := by
  intro h
  obtain ⟨found, hfound⟩ := call_found 0x1004
  have hmod : searchMod ⟨[], [some jvmMod]⟩ 0x1004 [] jvmMod = some found := hfound
  have hsearch : procSearchAddrSymb ⟨[], [some jvmMod]⟩ 0x1004 [] = some found := by
    simp only [procSearchAddrSymb, List.findSome?_cons, Option.bind_some, hmod]
  obtain ⟨mod, hmem, range, hrange, hcontains⟩ := h _ _ _ _ hsearch
  obtain rfl : mod = jvmMod := by simpa using hmem
  obtain rfl : range = ⟨0x10000, 0x20000, 0⟩ := by simpa [jvmMod] using hrange
  exact absurd hcontains (by decide)

end Gopher.Elf
