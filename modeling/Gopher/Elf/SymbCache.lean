import Gopher.Elf.JavaSymbs
import Gopher.Lib.Run
import Mathlib.Data.List.Nodup
import Mathlib.Logic.Function.Basic
import Mathlib.Tactic.SplitIfs

namespace Gopher.Elf

open Gopher.Lib

inductive SymFileType
  | elfSym
  | javaSym
  deriving DecidableEq, Repr

-- `elf` is NULL where `strdup` failed.
structure ElfSymbo where
  iInode : UInt32
  refcnt : UInt32
  elf : Option Text
  symbs : JavaSymbs
  deriving DecidableEq, Repr

abbrev Address := ℕ

-- The hash table holds pointers; `heap` says which items are allocated.
structure SymbCache where
  heap : Address → Option ElfSymbo
  head : List Address

-- What a call finds: the inode of the file, the item that `malloc` gives, whether
-- `strdup` succeeds, the bytes behind the line buffer, and the files by their paths.
structure System where
  getInode : Option UInt32
  malloc : Option Address
  strdup : Bool
  stack : Text
  fopen : Text → Option Text
  iterElfFileSymb : Text → JavaSymbs → JavaSymbs × ℤ

namespace SymbCache

def write (cache : SymbCache) (item : Address) (symbo : ElfSymbo) : SymbCache :=
  { cache with heap := Function.update cache.heap item (some symbo) }

def free (cache : SymbCache) (item : Address) : SymbCache :=
  { cache with heap := Function.update cache.heap item none }

def hAdd (cache : SymbCache) (item : Address) : SymbCache :=
  { cache with head := cache.head ++ [item] }

def hDel (cache : SymbCache) (item : Address) : SymbCache :=
  { cache with head := cache.head.erase item }

end SymbCache

-- `none` is the read of an item that has been freed.
def lkupSymb (heap : Address → Option ElfSymbo) (inode : UInt32) :
    List Address → Option (Option Address)
  | [] => some none
  | item :: items => do
      let symbo ← heap item
      if symbo.iInode = inode then return some item else lkupSymb heap inode items

def newSymbo (sys : System) (elf : Text) (inode : UInt32) : ElfSymbo :=
  ⟨inode, 1, if sys.strdup then some elf else none, noSymbs⟩

def createSymbol (sys : System) (elf : Text) (inode : UInt32) (cache : SymbCache) :
    SymbCache × Option Address :=
  match sys.malloc with
  | none => (cache, none)
  | some item => (cache.write item (newSymbo sys elf inode), some item)

def loadSymbs (sys : System) (elf : Text) : SymFileType → JavaSymbs → JavaSymbs × ℤ
  | .elfSym, symbs => sys.iterElfFileSymb elf symbs
  | .javaSym, symbs =>
      match sys.fopen elf with
      | none => (symbs, -1)
      | some file => getJavaSymbFromFile sys.stack file symbs

def loadSymbolFromFile (sys : System) (symFileType : SymFileType) (elfSymbo : ElfSymbo) :
    ElfSymbo × ℤ :=
  match elfSymbo.elf with
  | none => (elfSymbo, -1)
  | some elf =>
      let (symbs, ret) := loadSymbs sys elf symFileType elfSymbo.symbs
      ({ elfSymbo with symbs := symbs }, ret)

-- A new item is in the hash table before its symbols are loaded.
def updateSymbFromJvmSymFile (sys : System) (elf : Text) (cache : SymbCache) :
    Option (SymbCache × Option Address) := do
  let some inode := sys.getInode | return (cache, none)
  let (cache, item) ← match ← lkupSymb cache.heap inode cache.head with
    | some item => some (cache, some item)
    | none =>
        match createSymbol sys elf inode cache with
        | (cache, none) => some (cache, none)
        | (cache, some item) => some (cache.hAdd item, some item)
  let some item := item | return (cache, none)
  let symbo ← cache.heap item
  let (symbo, ret) := loadSymbolFromFile sys .javaSym symbo
  if ret ≠ 0 then return (cache.free item, none)
  return (cache.write item symbo, some item)

def getSymbFromFile (sys : System) (elf : Text) (symFileType : SymFileType) (cache : SymbCache) :
    Option (SymbCache × Option Address) := do
  let some inode := sys.getInode | return (cache, none)
  match ← lkupSymb cache.heap inode cache.head with
  | some item =>
      let symbo ← cache.heap item
      return (cache.write item { symbo with refcnt := symbo.refcnt + 1 }, some item)
  | none =>
      let (cache, some newItem) := createSymbol sys elf inode cache | return (cache, none)
      let symbo ← cache.heap newItem
      let (symbo, ret) := loadSymbolFromFile sys symFileType symbo
      if ret ≠ 0 then return (cache.free newItem, none)
      return ((cache.write newItem symbo).hAdd newItem, some newItem)

def rmElfSymb (elfSymb : Option Address) (cache : SymbCache) : Option SymbCache := do
  let some elfSymb := elfSymb | return cache
  let symb ← cache.heap elfSymb
  let some item ← lkupSymb cache.heap symb.iInode cache.head | return cache
  let symbo ← cache.heap item
  let refcnt := if symbo.refcnt > 0 then symbo.refcnt - 1 else symbo.refcnt
  if refcnt > 0 then return cache.write item { symbo with refcnt := refcnt }
  return (cache.hDel item).free item

-- A cache with the number of references to each item that were handed out and not
-- returned yet.
structure Ledger where
  cache : SymbCache
  refs : Address → ℕ

def handOut (refs : Address → ℕ) : Option Address → Address → ℕ
  | none => refs
  | some item => Function.update refs item (refs item + 1)

def giveBack (refs : Address → ℕ) : Option Address → Address → ℕ
  | none => refs
  | some item => Function.update refs item (refs item - 1)

-- The item that `update` returns takes the place of the one that the caller holds.
inductive Call
  | get (sys : System) (elf : Text) (symFileType : SymFileType)
  | rm (elfSymb : Option Address)
  | update (sys : System) (elf : Text) (held : Option Address)

def exec (ledger : Ledger) : Call → Option Ledger
  | .get sys elf symFileType => do
      let (cache, item) ← getSymbFromFile sys elf symFileType ledger.cache
      return ⟨cache, handOut ledger.refs item⟩
  | .rm elfSymb => do
      let cache ← rmElfSymb elfSymb ledger.cache
      return ⟨cache, giveBack ledger.refs elfSymb⟩
  | .update sys elf held => do
      let (cache, item) ← updateSymbFromJvmSymFile sys elf ledger.cache
      return ⟨cache, if item = held then ledger.refs else handOut ledger.refs item⟩

-- `none` is an access to an item that has been freed, now or earlier.
def step (state : Option Ledger) (call : Call) : Option Ledger :=
  state.bind fun ledger => exec ledger call

def init : Option Ledger := some ⟨⟨fun _ => none, []⟩, fun _ => 0⟩

-- `malloc` gives memory that is not in use.
def System.Fresh (sys : System) (cache : SymbCache) : Prop :=
  ∀ item ∈ sys.malloc, cache.heap item = none

-- Callers return and refresh the references they hold.
def Legal (ledger : Ledger) : Call → Prop
  | .get sys _ _ => sys.Fresh ledger.cache
  | .rm elfSymb => ∀ item ∈ elfSymb, 0 < ledger.refs item
  | .update sys _ held => sys.Fresh ledger.cache ∧ ∀ item ∈ held, 0 < ledger.refs item

instance (sys : System) (cache : SymbCache) : Decidable (sys.Fresh cache) :=
  inferInstanceAs (Decidable (∀ _ ∈ _, _))

instance (ledger : Ledger) : ∀ call, Decidable (Legal ledger call)
  | .get sys _ _ => inferInstanceAs (Decidable (sys.Fresh ledger.cache))
  | .rm _ => inferInstanceAs (Decidable (∀ _ ∈ _, _))
  | .update _ _ _ => inferInstanceAs (Decidable (_ ∧ _))

-- The entries are the items with references, they are alive, and their counts are right.
structure Consistent (ledger : Ledger) : Prop where
  entries : ∀ item, item ∈ ledger.cache.head ↔ 0 < ledger.refs item
  live : ∀ item, (ledger.cache.heap item).isSome ↔ 0 < ledger.refs item
  counted : ∀ item symbo, ledger.cache.heap item = some symbo →
    symbo.refcnt.toNat = ledger.refs item

-- The entry of the file that a call is about.
def entry (cache : SymbCache) (inode : UInt32) : Option Address :=
  (lkupSymb cache.heap inode cache.head).join

-- A shared item has room for one more reference; a refresh finds the item that the
-- caller holds and loads its symbols; where it finds none, it loads those of a new item.
def Allowed (ledger : Ledger) : Call → Prop
  | .get sys _ _ => ∀ inode, sys.getInode = some inode → ∀ item,
      entry ledger.cache inode = some item → ∀ symbo, ledger.cache.heap item = some symbo →
        symbo.refcnt.toNat + 1 < UInt32.size
  | .rm _ => True
  | .update sys elf held => ∀ inode, sys.getInode = some inode →
      match entry ledger.cache inode with
      | some item => held = some item ∧ ∀ symbo, ledger.cache.heap item = some symbo →
          (loadSymbolFromFile sys .javaSym symbo).2 = 0
      | none => sys.malloc.isSome →
          (loadSymbolFromFile sys .javaSym (newSymbo sys elf inode)).2 = 0

-- What makes a file found under its inode.
structure Inv (ledger : Ledger) : Prop extends Consistent ledger where
  nodup : ledger.cache.head.Nodup
  inodes : ∀ item other symbo otherSymbo, ledger.cache.heap item = some symbo →
    ledger.cache.heap other = some otherSymbo → symbo.iInode = otherSymbo.iInode → item = other

theorem loadSymbolFromFile_fst (sys : System) (symFileType : SymFileType) (symbo : ElfSymbo) :
    ∃ symbs, (loadSymbolFromFile sys symFileType symbo).1 = { symbo with symbs := symbs } := by
  unfold loadSymbolFromFile
  split
  · exact ⟨symbo.symbs, rfl⟩
  · exact ⟨_, rfl⟩

section Lookup

variable {heap : Address → Option ElfSymbo}

theorem lkupSymb_spec (inode : UInt32) {items : List Address}
    (hlive : ∀ item ∈ items, (heap item).isSome) :
    (lkupSymb heap inode items = some none ∧
        ∀ item ∈ items, ∀ symbo, heap item = some symbo → symbo.iInode ≠ inode) ∨
      ∃ item symbo, lkupSymb heap inode items = some (some item) ∧ item ∈ items ∧
        heap item = some symbo ∧ symbo.iInode = inode := by
  induction items with
  | nil => exact .inl ⟨rfl, fun item hitem => absurd hitem List.not_mem_nil⟩
  | cons head items ih =>
      obtain ⟨hhead, htail⟩ := List.forall_mem_cons.mp hlive
      obtain ⟨symbo, hsymbo⟩ := Option.isSome_iff_exists.mp hhead
      simp only [lkupSymb, hsymbo, Option.bind_eq_bind, Option.bind_some]
      by_cases hinode : symbo.iInode = inode
      · rw [if_pos hinode]
        exact .inr ⟨head, symbo, rfl, List.mem_cons_self, hsymbo, hinode⟩
      · rw [if_neg hinode]
        rcases ih htail with ⟨hnone, hothers⟩ | ⟨item, found, hfound, hmem, hrest⟩
        · refine .inl ⟨hnone, List.forall_mem_cons.mpr ⟨?_, hothers⟩⟩
          intro other hother
          rw [hsymbo] at hother
          rwa [← Option.some.inj hother]
        · exact .inr ⟨item, found, hfound, List.mem_cons_of_mem _ hmem, hrest⟩

end Lookup

variable {ledger : Ledger} {inode : UInt32} {item : Address} {symbo : ElfSymbo}

namespace Inv

theorem mem_head (h : Inv ledger) (hsymbo : ledger.cache.heap item = some symbo) :
    item ∈ ledger.cache.head := by
  rw [h.entries, ← h.live, hsymbo]
  rfl

theorem refs_pos (h : Inv ledger) (hsymbo : ledger.cache.heap item = some symbo) :
    0 < ledger.refs item := by
  rw [← h.live, hsymbo]
  rfl

theorem refs_eq_zero (h : Inv ledger) (hfree : ledger.cache.heap item = none) :
    ledger.refs item = 0 := by
  have hnot := mt (h.live item).mpr
  rw [hfree] at hnot
  have := hnot Bool.false_ne_true
  omega

theorem lookup (h : Inv ledger) (inode : UInt32) :
    (lkupSymb ledger.cache.heap inode ledger.cache.head = some none ∧
        ∀ item symbo, ledger.cache.heap item = some symbo → symbo.iInode ≠ inode) ∨
      ∃ item symbo, lkupSymb ledger.cache.heap inode ledger.cache.head = some (some item) ∧
        ledger.cache.heap item = some symbo ∧ symbo.iInode = inode := by
  have hlive : ∀ item ∈ ledger.cache.head, (ledger.cache.heap item).isSome :=
    fun item hitem => (h.live item).mpr ((h.entries item).mp hitem)
  rcases lkupSymb_spec inode hlive with ⟨hnone, hothers⟩ | ⟨item, symbo, hfound, -, hrest⟩
  · exact .inl ⟨hnone, fun item symbo hsymbo => hothers item (h.mem_head hsymbo) symbo hsymbo⟩
  · exact .inr ⟨item, symbo, hfound, hrest⟩

-- An item is found under its own inode.
theorem lookup_self (h : Inv ledger) (hsymbo : ledger.cache.heap item = some symbo) :
    lkupSymb ledger.cache.heap symbo.iInode ledger.cache.head = some (some item) := by
  rcases h.lookup symbo.iInode with ⟨-, hothers⟩ | ⟨other, found, hfound, hother, hinode⟩
  · exact absurd rfl (hothers item symbo hsymbo)
  · rw [hfound, h.inodes other item found symbo hother hsymbo hinode]

-- One item changes, with its place in the table and its references.
theorem put (h : Inv ledger) (value : Option ElfSymbo) {head : List Address} {count : ℕ}
    (hhead : ∀ other, other ≠ item → (other ∈ head ↔ other ∈ ledger.cache.head))
    (hitem : item ∈ head ↔ 0 < count) (hnodup : head.Nodup) (hlive : value.isSome ↔ 0 < count)
    (hcount : ∀ new, value = some new → new.refcnt.toNat = count)
    (hinode : ∀ new, value = some new → ∀ other, other ≠ item → ∀ symbo,
      ledger.cache.heap other = some symbo → symbo.iInode ≠ new.iInode) :
    Inv ⟨⟨Function.update ledger.cache.heap item value, head⟩,
      Function.update ledger.refs item count⟩ := by
  refine ⟨⟨fun other => ?_, fun other => ?_, fun other found hfound => ?_⟩, hnodup, ?_⟩
  · dsimp only
    by_cases hother : other = item
    · subst hother
      rw [Function.update_self]
      exact hitem
    · rw [Function.update_of_ne hother]
      exact (hhead other hother).trans (h.entries other)
  · dsimp only
    by_cases hother : other = item
    · subst hother
      rw [Function.update_self, Function.update_self]
      exact hlive
    · rw [Function.update_of_ne hother, Function.update_of_ne hother]
      exact h.live other
  · dsimp only at hfound ⊢
    by_cases hother : other = item
    · subst hother
      rw [Function.update_self] at hfound ⊢
      exact hcount found hfound
    · rw [Function.update_of_ne hother] at hfound ⊢
      exact h.counted other found hfound
  · intro a b symboA symboB ha hb heq
    dsimp only at ha hb
    by_cases hitemA : a = item
    · by_cases hitemB : b = item
      · rw [hitemA, hitemB]
      · rw [hitemA, Function.update_self] at ha
        rw [Function.update_of_ne hitemB] at hb
        exact absurd heq.symm (hinode symboA ha b hitemB symboB hb)
    · by_cases hitemB : b = item
      · rw [Function.update_of_ne hitemA] at ha
        rw [hitemB, Function.update_self] at hb
        exact absurd heq (hinode symboB hb a hitemA symboA ha)
      · rw [Function.update_of_ne hitemA] at ha
        rw [Function.update_of_ne hitemB] at hb
        exact h.inodes a b symboA symboB ha hb heq

theorem write (h : Inv ledger) (hsymbo : ledger.cache.heap item = some symbo) (new : ElfSymbo)
    (hinode : new.iInode = symbo.iInode) {count : ℕ} (hcount : new.refcnt.toNat = count)
    (hpos : 0 < count) :
    Inv ⟨ledger.cache.write item new, Function.update ledger.refs item count⟩ := by
  apply h.put (some new) (fun _ _ => Iff.rfl) (iff_of_true (h.mem_head hsymbo) hpos)
    h.nodup (iff_of_true rfl hpos)
  · rintro _ ⟨⟩
    exact hcount
  · rintro _ ⟨⟩ other hother found hfound heq
    exact hother (h.inodes other item found symbo hfound hsymbo (heq.trans hinode))

theorem create (h : Inv ledger) (hfree : ledger.cache.heap item = none) {new : ElfSymbo}
    (hinode : ∀ other symbo, ledger.cache.heap other = some symbo → symbo.iInode ≠ new.iInode)
    (hone : new.refcnt = 1) :
    Inv ⟨(ledger.cache.write item new).hAdd item, handOut ledger.refs (some item)⟩ := by
  have hzero := h.refs_eq_zero hfree
  have hnot : item ∉ ledger.cache.head := by
    rw [h.entries]
    omega
  apply h.put (some new)
  · intro other hother
    exact List.mem_append.trans (or_iff_left (fun hmem => hother (List.mem_singleton.mp hmem)))
  · exact iff_of_true (List.mem_append_right _ (List.mem_singleton_self item)) (Nat.succ_pos _)
  · exact List.concat_eq_append ▸ h.nodup.concat hnot
  · exact iff_of_true rfl (Nat.succ_pos _)
  · rintro _ ⟨⟩
    rw [hone, hzero]
    rfl
  · rintro _ ⟨⟩ other - found hfound
    exact hinode other found hfound

theorem drop (h : Inv ledger) (item : Address) :
    Inv ⟨(ledger.cache.hDel item).free item, Function.update ledger.refs item 0⟩ := by
  apply h.put none
  · intro other hother
    exact List.mem_erase_of_ne hother
  · exact iff_of_false (fun hmem => (h.nodup.mem_erase_iff.mp hmem).1 rfl) (Nat.lt_irrefl 0)
  · exact h.nodup.erase item
  · exact iff_of_false Bool.false_ne_true (Nat.lt_irrefl 0)
  · rintro _ ⟨⟩
  · rintro _ ⟨⟩

end Inv

theorem SymbCache.free_write {cache : SymbCache} (hfree : cache.heap item = none)
    (symbo : ElfSymbo) : (cache.write item symbo).free item = cache := by
  simp only [write, free, Function.update_idem]
  rw [← hfree, Function.update_eq_self]

theorem SymbCache.free_hAdd (cache : SymbCache) :
    (cache.hAdd item).free item = (cache.free item).hAdd item := rfl

theorem SymbCache.write_write (cache : SymbCache) (symbo new : ElfSymbo) :
    (cache.write item symbo).write item new = cache.write item new := by
  simp only [write, Function.update_idem]

theorem handOut_none (refs : Address → ℕ) : handOut refs none = refs := rfl

-- A call in a state with the invariant reads no freed item. If it is allowed, it keeps
-- the invariant, and only then are the counts right afterwards.
def Decided (ledger : Ledger) (call : Call) : Prop :=
  ∃ after, exec ledger call = some after ∧ (Allowed ledger call → Inv after) ∧
    (Consistent after → Allowed ledger call)

section Calls

variable {sys : System} {elf : Text} {symFileType : SymFileType}

-- A new item is handed out, or freed again when its symbols cannot be loaded.
theorem Inv.getNew (h : Inv ledger) (elf : Text) (symFileType : SymFileType)
    (hfresh : sys.Fresh ledger.cache) (hgetInode : sys.getInode = some inode)
    (hnone : lkupSymb ledger.cache.heap inode ledger.cache.head = some none)
    (hothers : ∀ item symbo, ledger.cache.heap item = some symbo → symbo.iInode ≠ inode) :
    ∃ after, exec ledger (.get sys elf symFileType) = some after ∧ Inv after := by
  cases hmalloc : sys.malloc with
  | none =>
      refine ⟨ledger, ?_, h⟩
      simp [exec, getSymbFromFile, hgetInode, hnone, createSymbol, hmalloc, handOut_none]
  | some item =>
      have hfree := hfresh item hmalloc
      have hread : (ledger.cache.write item (newSymbo sys elf inode)).heap item =
          some (newSymbo sys elf inode) := Function.update_self _ _ _
      obtain ⟨symbs, hload⟩ := loadSymbolFromFile_fst sys symFileType (newSymbo sys elf inode)
      by_cases hret : (loadSymbolFromFile sys symFileType (newSymbo sys elf inode)).2 = 0
      · refine ⟨⟨(ledger.cache.write item { newSymbo sys elf inode with symbs := symbs }).hAdd item,
          handOut ledger.refs (some item)⟩, ?_, h.create hfree hothers rfl⟩
        simp [exec, getSymbFromFile, hgetInode, hnone, createSymbol, hmalloc, hread, hload, hret,
          SymbCache.write_write]
      · refine ⟨ledger, ?_, h⟩
        simp [exec, getSymbFromFile, hgetInode, hnone, createSymbol, hmalloc, hread, hret,
          SymbCache.free_write hfree, handOut_none]

theorem Inv.get (h : Inv ledger) (hfresh : sys.Fresh ledger.cache) :
    Decided ledger (.get sys elf symFileType) := by
  cases hgetInode : sys.getInode with
  | none =>
      refine ⟨ledger, ?_, fun _ => h, fun _ inode hsome => ?_⟩
      · simp [exec, getSymbFromFile, hgetInode, handOut_none]
      · rw [hgetInode] at hsome
        cases hsome
  | some inode =>
      rcases h.lookup inode with ⟨hnone, hothers⟩ | ⟨item, symbo, hfound, hsymbo, hinode⟩
      · obtain ⟨after, hexec, hinv⟩ := h.getNew elf symFileType hfresh hgetInode
          hnone hothers
        refine ⟨after, hexec, fun _ => hinv, fun _ other hother item hitem => ?_⟩
        rw [hgetInode] at hother
        cases hother
        simp [entry, hnone] at hitem
      · have hcount := h.counted item symbo hsymbo
        have hentry : entry ledger.cache inode = some item := by simp [entry, hfound]
        have hadd := UInt32.toNat_add symbo.refcnt 1
        rw [UInt32.toNat_one] at hadd
        refine ⟨⟨ledger.cache.write item { symbo with refcnt := symbo.refcnt + 1 },
          handOut ledger.refs (some item)⟩, ?_, fun hallowed => ?_, ?_⟩
        · simp [exec, getSymbFromFile, hgetInode, hfound, hsymbo]
        · have hroom := hallowed inode hgetInode item hentry symbo hsymbo
          rw [Nat.mod_eq_of_lt hroom, hcount] at hadd
          exact h.write hsymbo { symbo with refcnt := symbo.refcnt + 1 } rfl hadd (Nat.succ_pos _)
        · intro hafter other hother found hitem foundSymbo hfoundSymbo
          rw [hgetInode] at hother
          cases hother
          rw [hentry] at hitem
          cases hitem
          rw [hsymbo] at hfoundSymbo
          cases hfoundSymbo
          have hcounted := hafter.counted item _ (Function.update_self _ _ _)
          change (symbo.refcnt + 1).toNat = Function.update ledger.refs item _ item at hcounted
          rw [Function.update_self] at hcounted
          have hlt := (symbo.refcnt + 1).toNat_lt_size
          omega

theorem Inv.rm (h : Inv ledger) {elfSymb : Option Address}
    (hheld : ∀ item ∈ elfSymb, 0 < ledger.refs item) :
    Decided ledger (.rm elfSymb) := by
  cases elfSymb with
  | none => exact ⟨ledger, rfl, fun _ => h, fun _ => trivial⟩
  | some item =>
      have hpos := hheld item rfl
      obtain ⟨symbo, hsymbo⟩ := Option.isSome_iff_exists.mp ((h.live item).mpr hpos)
      have hcount := h.counted item symbo hsymbo
      have hfound := h.lookup_self hsymbo
      have hsub : (symbo.refcnt - 1).toNat = symbo.refcnt.toNat - 1 := by
        apply UInt32.toNat_sub_of_le
        rw [UInt32.le_iff_toNat_le, UInt32.toNat_one]
        omega
      have hone : symbo.refcnt > 0 := by
        rw [gt_iff_lt, UInt32.lt_iff_toNat_lt, UInt32.toNat_zero]
        omega
      by_cases hlast : symbo.refcnt - 1 > 0
      · refine ⟨⟨ledger.cache.write item { symbo with refcnt := symbo.refcnt - 1 },
          giveBack ledger.refs (some item)⟩, ?_, fun _ => ?_, fun _ => trivial⟩
        · simp [exec, rmElfSymb, hsymbo, hfound, hone, hlast]
        · rw [gt_iff_lt, UInt32.lt_iff_toNat_lt, UInt32.toNat_zero] at hlast
          exact h.write hsymbo { symbo with refcnt := symbo.refcnt - 1 } rfl
            (hsub.trans (by rw [hcount])) (by omega)
      · refine ⟨⟨(ledger.cache.hDel item).free item, giveBack ledger.refs (some item)⟩, ?_,
          fun _ => ?_, fun _ => trivial⟩
        · simp [exec, rmElfSymb, hsymbo, hfound, hone, hlast]
        · rw [gt_iff_lt, UInt32.lt_iff_toNat_lt, UInt32.toNat_zero] at hlast
          have hzero : ledger.refs item - 1 = 0 := by omega
          rw [giveBack, hzero]
          exact h.drop item

-- A refresh keeps the references of the item, unless it is loaded for another holder.
theorem Inv.updateFound (h : Inv ledger) {held : Option Address}
    (hgetInode : sys.getInode = some inode)
    (hfound : lkupSymb ledger.cache.heap inode ledger.cache.head = some (some item))
    (hsymbo : ledger.cache.heap item = some symbo) :
    Decided ledger (.update sys elf held) := by
  have hentry : entry ledger.cache inode = some item := by simp [entry, hfound]
  have hpos := h.refs_pos hsymbo
  have hcount := h.counted item symbo hsymbo
  have hallowed_iff : Allowed ledger (.update sys elf held) ↔
      held = some item ∧ (loadSymbolFromFile sys .javaSym symbo).2 = 0 := by
    simp [Allowed, hgetInode, hentry, hsymbo]
  rw [Decided, hallowed_iff]
  obtain ⟨symbs, hload⟩ := loadSymbolFromFile_fst sys .javaSym symbo
  by_cases hret : (loadSymbolFromFile sys .javaSym symbo).2 = 0
  · refine ⟨⟨ledger.cache.write item { symbo with symbs := symbs },
      if some item = held then ledger.refs else handOut ledger.refs (some item)⟩, ?_, ?_, ?_⟩
    · simp [exec, updateSymbFromJvmSymFile, hgetInode, hfound, hsymbo, hload, hret]
    · rintro ⟨rfl, -⟩
      have hinv := h.write hsymbo { symbo with symbs := symbs } rfl hcount hpos
      rw [Function.update_eq_self] at hinv
      rwa [if_pos rfl]
    · intro hafter
      have hcounted := hafter.counted item _ (Function.update_self _ _ _)
      refine ⟨?_, hret⟩
      by_contra hheld
      rw [if_neg (fun heq => hheld heq.symm)] at hcounted
      change symbo.refcnt.toNat = Function.update ledger.refs item _ item at hcounted
      rw [Function.update_self] at hcounted
      omega
  · refine ⟨⟨ledger.cache.free item, ledger.refs⟩, ?_, fun hallowed => absurd hallowed.2 hret, ?_⟩
    · simp [exec, updateSymbFromJvmSymFile, hgetInode, hfound, hsymbo, hret, handOut_none]
    · intro hafter
      have hlive := (hafter.live item).mpr hpos
      change (Function.update ledger.cache.heap item none item).isSome at hlive
      rw [Function.update_self] at hlive
      cases hlive

-- A new item is put into the table first, so it must be loaded.
theorem Inv.updateNew (h : Inv ledger) {held : Option Address} (hfresh : sys.Fresh ledger.cache)
    (hheld : ∀ item ∈ held, 0 < ledger.refs item)
    (hgetInode : sys.getInode = some inode)
    (hnone : lkupSymb ledger.cache.heap inode ledger.cache.head = some none)
    (hothers : ∀ item symbo, ledger.cache.heap item = some symbo → symbo.iInode ≠ inode) :
    Decided ledger (.update sys elf held) := by
  have hentry : entry ledger.cache inode = none := by simp [entry, hnone]
  have hallowed_iff : Allowed ledger (.update sys elf held) ↔
      (sys.malloc.isSome → (loadSymbolFromFile sys .javaSym (newSymbo sys elf inode)).2 = 0) := by
    simp [Allowed, hgetInode, hentry]
  rw [Decided, hallowed_iff]
  cases hmalloc : sys.malloc with
  | none =>
      refine ⟨ledger, ?_, fun _ => h, fun _ hsome => absurd hsome Bool.false_ne_true⟩
      simp [exec, updateSymbFromJvmSymFile, hgetInode, hnone, createSymbol, hmalloc, handOut_none]
  | some item =>
      have hfree := hfresh item hmalloc
      have hzero := h.refs_eq_zero hfree
      have hnew : some item ≠ held := by
        intro heq
        have := hheld item heq.symm
        omega
      have hread : ((ledger.cache.write item (newSymbo sys elf inode)).hAdd item).heap item =
          some (newSymbo sys elf inode) := Function.update_self _ _ _
      obtain ⟨symbs, hload⟩ := loadSymbolFromFile_fst sys .javaSym (newSymbo sys elf inode)
      by_cases hret : (loadSymbolFromFile sys .javaSym (newSymbo sys elf inode)).2 = 0
      · refine ⟨⟨(ledger.cache.write item { newSymbo sys elf inode with symbs := symbs }).hAdd item,
          handOut ledger.refs (some item)⟩, ?_, fun _ => h.create hfree hothers rfl,
          fun _ _ => hret⟩
        simp [exec, updateSymbFromJvmSymFile, hgetInode, hnone, createSymbol, hmalloc, hload, hret,
          hnew, SymbCache.write, SymbCache.hAdd, Function.update_idem]
      · refine ⟨⟨ledger.cache.hAdd item, ledger.refs⟩, ?_, fun hallowed => absurd (hallowed rfl) hret,
          fun hafter => ?_⟩
        · simp [exec, updateSymbFromJvmSymFile, hgetInode, hnone, createSymbol, hmalloc, hread, hret,
            SymbCache.free_hAdd, SymbCache.free_write hfree, handOut_none]
        · have hmem : item ∈ ledger.cache.head ++ [item] :=
            List.mem_append_right _ (List.mem_singleton_self item)
          have := (hafter.entries item).mp hmem
          change 0 < ledger.refs item at this
          omega

theorem Inv.update (h : Inv ledger) {held : Option Address} (hfresh : sys.Fresh ledger.cache)
    (hheld : ∀ item ∈ held, 0 < ledger.refs item) :
    Decided ledger (.update sys elf held) := by
  cases hgetInode : sys.getInode with
  | none =>
      refine ⟨ledger, ?_, fun _ => h, fun _ inode hsome => ?_⟩
      · simp [exec, updateSymbFromJvmSymFile, hgetInode, handOut_none]
      · rw [hgetInode] at hsome
        cases hsome
  | some inode =>
      rcases h.lookup inode with ⟨hnone, hothers⟩ | ⟨item, symbo, hfound, hsymbo, -⟩
      · exact h.updateNew hfresh hheld hgetInode hnone hothers
      · exact h.updateFound hgetInode hfound hsymbo

end Calls

theorem Inv.decided (h : Inv ledger) {call : Call} (hlegal : Legal ledger call) :
    Decided ledger call := by
  cases call with
  | get sys elf symFileType => exact h.get hlegal
  | rm elfSymb => exact h.rm hlegal
  | update sys elf held => exact h.update hlegal.1 hlegal.2

theorem inv_init : Inv ⟨⟨fun _ => none, []⟩, fun _ => 0⟩ := by
  refine ⟨⟨fun item => ?_, fun item => ?_, ?_⟩, List.nodup_nil, ?_⟩
  · exact iff_of_false List.not_mem_nil (Nat.lt_irrefl 0)
  · exact iff_of_false Bool.false_ne_true (Nat.lt_irrefl 0)
  · rintro item symbo ⟨⟩
  · rintro item other symbo otherSymbo ⟨⟩

-- The entries of the cache are alive with the right counts, throughout a run in which
-- callers return what they hold, exactly if each call finds what it needs.
theorem symb_cache_consistent_iff (calls : List Call) (hlegal : EachStep step init
      (fun _ state call => ∀ ledger ∈ state, Legal ledger call) calls) :
    Throughout step init (fun _ state => ∃ ledger, state = some ledger ∧ Consistent ledger) calls ↔
      EachStep step init (fun _ state call => ∀ ledger ∈ state, Allowed ledger call) calls := by
  apply throughout_iff_eachStep (fun _ state => ∃ ledger, state = some ledger ∧ Inv ledger) _ _ _ _
    hlegal
  · exact ⟨_, rfl, inv_init⟩
  · rintro _ _ ⟨ledger, rfl, hinv⟩
    exact ⟨ledger, rfl, hinv.toConsistent⟩
  · rintro _ _ call ⟨ledger, rfl, hinv⟩ hcall hallowed
    obtain ⟨after, hexec, hafter, -⟩ := hinv.decided (hcall ledger rfl)
    exact ⟨after, hexec, hafter (hallowed ledger rfl)⟩
  · rintro _ _ call ⟨ledger, rfl, hinv⟩ hcall ⟨after, hstep, hconsistent⟩ _ ⟨⟩
    obtain ⟨result, hexec, -, hneeded⟩ := hinv.decided (hcall ledger rfl)
    rw [step, Option.bind_some, hexec] at hstep
    rw [Option.some.inj hstep] at hneeded
    exact hneeded hconsistent

-- A file with inode 7, which is there to be read or not.
def mapFile (malloc : Option Address) (content : Option Text) : System :=
  ⟨some 7, malloc, true, [], fun _ => content, fun _ symbs => (symbs, 0)⟩

def shared : List Call :=
  [.get (mapFile (some 0) (some "10 4 f".toList)) [] .javaSym, .get (mapFile none none) [] .javaSym,
    .update (mapFile none (some "10 4 f\n20 4 g".toList)) [] (some 0), .rm (some 0)]

theorem symb_cache_consistent_iff_shared :
    Throughout step init (fun _ state => ∃ ledger, state = some ledger ∧ Consistent ledger) shared ↔
      EachStep step init (fun _ state call => ∀ ledger ∈ state, Allowed ledger call) shared :=
  symb_cache_consistent_iff shared (by decide +kernel)

-- A refresh that fails frees an item that is still in the table and in use.
def refreshed : List Call :=
  [.get (mapFile (some 0) (some "10 4 f".toList)) [] .javaSym, .update (mapFile none none) [] (some 0)]

theorem symb_cache_dangling :
    EachStep step init (fun _ state call => ∀ ledger ∈ state, Legal ledger call) refreshed ∧
      (refreshed.foldl step init).map (fun ledger =>
        (ledger.cache.head, ledger.cache.heap 0, ledger.refs 0)) = some ([0], none, 1) ∧
      ¬ Throughout step init (fun _ state => ∃ ledger, state = some ledger ∧ Consistent ledger)
        refreshed := by
  have hdangling : (refreshed.foldl step init).map (fun ledger =>
      (ledger.cache.head, ledger.cache.heap 0, ledger.refs 0)) = some ([0], none, 1) := by
    decide +kernel
  refine ⟨by decide +kernel, hdangling, fun hthroughout => ?_⟩
  obtain ⟨ledger, hledger, hconsistent⟩ := hthroughout.last
  rw [hledger, Option.map_some, Option.some.injEq, Prod.mk.injEq, Prod.mk.injEq] at hdangling
  obtain ⟨-, hfreed, hrefs⟩ := hdangling
  have hlive := (hconsistent.live 0).mpr (by omega)
  rw [hfreed] at hlive
  cases hlive

end Gopher.Elf
