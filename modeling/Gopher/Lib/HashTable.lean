import Mathlib.Data.List.Basic
import Mathlib.Data.List.Nodup
import Mathlib.Tactic.SplitIfs

namespace Gopher.Lib.HashTable

variable {ε κ : Type*} [DecidableEq κ] (key : ε → κ)

-- The entries of an intrusive hash table, the newest first. Nothing stops an entry
-- from being added under a key that is there; the newest is then the one found.
def find (table : List ε) (k : κ) : Option ε := table.find? fun entry => key entry = k

-- A write through the pointer that `find` gives.
def modify (change : ε → ε) : List ε → κ → List ε
  | [], _ => []
  | entry :: table, k =>
      if key entry = k then change entry :: table else entry :: modify change table k

-- The entry that `find` gives is taken out.
def del (table : List ε) (k : κ) : List ε := table.eraseP fun entry => key entry = k

variable {key} {table : List ε} {entry : ε} {k other : κ} {change : ε → ε}

@[simp] theorem find_nil : find key [] k = none := rfl

theorem find_cons_self (h : key entry = k) : find key (entry :: table) k = some entry := by
  simp [find, h]

theorem find_cons_of_ne (h : key entry ≠ k) :
    find key (entry :: table) k = find key table k := by
  simp [find, h]

theorem key_of_find (h : find key table k = some entry) : key entry = k := by
  simpa using List.find?_some h

theorem mem_of_find (h : find key table k = some entry) : entry ∈ table :=
  List.mem_of_find?_eq_some h

theorem find_eq_none : find key table k = none ↔ ∀ entry ∈ table, key entry ≠ k := by
  simp [find]

theorem find_isSome : (find key table k).isSome ↔ ∃ entry ∈ table, key entry = k := by
  simp [find]

theorem find_modify (hkey : ∀ entry, key (change entry) = key entry) :
    find key (modify key change table k) other =
      if other = k then (find key table k).map change else find key table other := by
  induction table with
  | nil => simp [modify]
  | cons head table ih =>
      by_cases hhead : key head = k
      · rw [modify, if_pos hhead, find_cons_self hhead]
        split_ifs with hother
        · rw [find_cons_self (by rw [hkey, hhead, hother])]
          rfl
        · have hne : key head ≠ other := by rw [hhead]; exact Ne.symm hother
          rw [find_cons_of_ne (by rwa [hkey]), find_cons_of_ne hne]
      · rw [modify, if_neg hhead]
        by_cases hother : key head = other
        · have hne : other ≠ k := by rwa [← hother]
          rw [find_cons_self hother, if_neg hne, find_cons_self hother]
        · rw [find_cons_of_ne hother, ih, find_cons_of_ne hhead, find_cons_of_ne hother]

-- What the change does not touch stays as it is.
theorem map_modify {γ : Type*} (view : ε → γ) (hview : ∀ entry, view (change entry) = view entry) :
    (modify key change table k).map view = table.map view := by
  induction table with
  | nil => rfl
  | cons head table ih =>
      rw [modify]
      split_ifs
      · rw [List.map_cons, List.map_cons, hview]
      · rw [List.map_cons, List.map_cons, ih]

theorem map_key_modify (hkey : ∀ entry, key (change entry) = key entry) :
    (modify key change table k).map key = table.map key :=
  map_modify key hkey

-- What holds of every entry is kept when the change keeps it.
theorem forall_modify {property : ε → Prop}
    (hchange : ∀ entry, find key table k = some entry → property entry → property (change entry))
    (h : ∀ entry ∈ table, property entry) : ∀ entry ∈ modify key change table k, property entry := by
  induction table with
  | nil => simp [modify]
  | cons head table ih =>
      obtain ⟨hhead, htable⟩ := List.forall_mem_cons.mp h
      rw [modify]
      split_ifs with hkey
      · exact List.forall_mem_cons.mpr ⟨hchange head (find_cons_self hkey) hhead, htable⟩
      · refine List.forall_mem_cons.mpr ⟨hhead, ih (fun entry hentry => hchange entry ?_) htable⟩
        rwa [find_cons_of_ne hkey]

theorem modify_id : modify key id table k = table := by
  induction table with
  | nil => rfl
  | cons head table ih =>
      rw [modify]
      split_ifs
      · rfl
      · rw [ih]

theorem modify_of_find_none (hfind : find key table k = none) :
    modify key change table k = table := by
  induction table with
  | nil => rfl
  | cons head table ih =>
      have hhead := find_eq_none.mp hfind head List.mem_cons_self
      rw [find_cons_of_ne hhead] at hfind
      rw [modify, if_neg hhead, ih hfind]

-- Only the entry that is found is changed.
theorem modify_congr {second : ε → ε}
    (h : ∀ entry, find key table k = some entry → change entry = second entry) :
    modify key change table k = modify key second table k := by
  induction table with
  | nil => rfl
  | cons head table ih =>
      by_cases hhead : key head = k
      · rw [modify, modify, if_pos hhead, if_pos hhead, h head (find_cons_self hhead)]
      · rw [find_cons_of_ne hhead] at h
        rw [modify, modify, if_neg hhead, if_neg hhead, ih h]

theorem modify_modify {second : ε → ε} (hkey : ∀ entry, key (change entry) = key entry) :
    modify key second (modify key change table k) k =
      modify key (fun entry => second (change entry)) table k := by
  induction table with
  | nil => rfl
  | cons head table ih =>
      by_cases hhead : key head = k
      · rw [modify, modify, if_pos hhead, if_pos hhead, modify, if_pos (by rw [hkey, hhead])]
      · rw [modify, modify, if_neg hhead, if_neg hhead, modify, if_neg hhead, ih]

-- An entry with newer ones under its key is not reached by a change.
theorem pairwise_modify {property : ε → Prop} (hkey : ∀ entry, key (change entry) = key entry)
    (h : table.Pairwise fun newer older => key newer = key older → property older) :
    (modify key change table k).Pairwise fun newer older =>
      key newer = key older → property older := by
  induction table with
  | nil => simp [modify]
  | cons head table ih =>
      obtain ⟨hhead, htable⟩ := List.pairwise_cons.mp h
      rw [modify]
      split_ifs with heq
      · refine List.pairwise_cons.mpr ⟨fun older holder hsame => ?_, htable⟩
        exact hhead older holder (by rwa [hkey] at hsame)
      · refine List.pairwise_cons.mpr ⟨forall_modify (fun entry hfind _ hsame => ?_) hhead, ih htable⟩
        rw [hkey, key_of_find hfind] at hsame
        exact absurd hsame heq

theorem find_del_of_ne (hne : other ≠ k) :
    find key (del key table k) other = find key table other := by
  induction table with
  | nil => rfl
  | cons head table ih =>
      unfold del at ih ⊢
      by_cases hhead : key head = k
      · rw [List.eraseP_cons_of_pos (by simpa using hhead)]
        rw [find_cons_of_ne (by rw [hhead]; exact Ne.symm hne)]
      · rw [List.eraseP_cons_of_neg (by simpa using hhead)]
        by_cases hother : key head = other
        · rw [find_cons_self hother, find_cons_self hother]
        · rw [find_cons_of_ne hother, find_cons_of_ne hother, ih]

theorem find_del_self (hnodup : (table.map key).Nodup) : find key (del key table k) k = none := by
  induction table with
  | nil => rfl
  | cons head table ih =>
      rw [List.map_cons, List.nodup_cons] at hnodup
      unfold del at ih ⊢
      by_cases hhead : key head = k
      · rw [List.eraseP_cons_of_pos (by simpa using hhead), find_eq_none]
        rintro entry hentry rfl
        exact hnodup.1 (hhead ▸ List.mem_map_of_mem hentry)
      · rw [List.eraseP_cons_of_neg (by simpa using hhead), find_cons_of_ne hhead]
        exact ih hnodup.2

-- An entry is found itself, or hidden.
theorem find_or_of_mem (property : ε → Prop)
    (h : table.Pairwise fun newer older => key newer = key older → property older)
    (hmem : entry ∈ table) : find key table (key entry) = some entry ∨ property entry := by
  induction table with
  | nil => simp at hmem
  | cons head table ih =>
      obtain ⟨hhead, htable⟩ := List.pairwise_cons.mp h
      rcases List.mem_cons.mp hmem with rfl | hmem
      · exact .inl (find_cons_self rfl)
      · by_cases heq : key head = key entry
        · exact .inr (hhead entry hmem heq)
        · rw [find_cons_of_ne heq]
          exact ih htable hmem

-- What is found once an entry is out was hidden behind it.
theorem of_find_del (property : ε → Prop)
    (h : table.Pairwise fun newer older => key newer = key older → property older)
    (hfind : find key (del key table k) k = some entry) : property entry := by
  induction table with
  | nil => simp [del] at hfind
  | cons head table ih =>
      obtain ⟨hhead, htable⟩ := List.pairwise_cons.mp h
      unfold del at ih hfind
      by_cases heq : key head = k
      · rw [List.eraseP_cons_of_pos (by simpa using heq)] at hfind
        exact hhead entry (mem_of_find hfind) (by rw [heq, key_of_find hfind])
      · rw [List.eraseP_cons_of_neg (by simpa using heq), find_cons_of_ne heq] at hfind
        exact ih htable hfind

theorem del_sublist : (del key table k).Sublist table := List.eraseP_sublist

theorem nodup_del (hnodup : (table.map key).Nodup) : ((del key table k).map key).Nodup :=
  hnodup.sublist (del_sublist.map key)

theorem nodup_cons (hfind : find key table (key entry) = none) (hnodup : (table.map key).Nodup) :
    ((entry :: table).map key).Nodup := by
  rw [List.map_cons, List.nodup_cons]
  refine ⟨fun hmem => ?_, hnodup⟩
  obtain ⟨other, hother, heq⟩ := List.mem_map.mp hmem
  exact find_eq_none.mp hfind other hother heq

-- Without doubled keys, the entries under a key are the one that is found.
theorem find_eq_some (hnodup : (table.map key).Nodup) :
    find key table k = some entry ↔ entry ∈ table ∧ key entry = k := by
  constructor
  · intro h
    exact ⟨mem_of_find h, key_of_find h⟩
  · rintro ⟨hentry, rfl⟩
    cases hfind : find key table (key entry) with
    | none => exact absurd rfl (find_eq_none.mp hfind entry hentry)
    | some found =>
        have hinj := List.inj_on_of_nodup_map hnodup
        rw [hinj (mem_of_find hfind) hentry (key_of_find hfind)]

theorem mem_del (hnodup : (table.map key).Nodup) :
    entry ∈ del key table k ↔ entry ∈ table ∧ key entry ≠ k := by
  induction table with
  | nil => simp [del]
  | cons head table ih =>
      rw [List.map_cons, List.nodup_cons] at hnodup
      unfold del at ih ⊢
      by_cases hhead : key head = k
      · rw [List.eraseP_cons_of_pos (by simpa using hhead), List.mem_cons]
        constructor
        · intro hentry
          refine ⟨.inr hentry, fun heq => hnodup.1 ?_⟩
          rw [hhead, ← heq]
          exact List.mem_map_of_mem hentry
        · rintro ⟨rfl | hentry, hne⟩
          · exact absurd hhead hne
          · exact hentry
      · rw [List.eraseP_cons_of_neg (by simpa using hhead), List.mem_cons, List.mem_cons,
          ih hnodup.2]
        constructor
        · rintro (rfl | ⟨hentry, hne⟩)
          · exact ⟨.inl rfl, hhead⟩
          · exact ⟨.inr hentry, hne⟩
        · rintro ⟨rfl | hentry, hne⟩
          · exact .inl rfl
          · exact .inr ⟨hentry, hne⟩

theorem mem_modify (hnodup : (table.map key).Nodup) :
    entry ∈ modify key change table k ↔ entry ∈ table ∧ key entry ≠ k ∨
      ∃ found, find key table k = some found ∧ entry = change found := by
  induction table with
  | nil => simp [modify]
  | cons head table ih =>
      rw [List.map_cons, List.nodup_cons] at hnodup
      by_cases hhead : key head = k
      · rw [modify, if_pos hhead, find_cons_self hhead, List.mem_cons]
        have hrest : entry ∈ table → key entry ≠ k := by
          rintro hentry rfl
          rw [hhead] at hnodup
          exact hnodup.1 (List.mem_map_of_mem hentry)
        constructor
        · rintro (rfl | hentry)
          · exact .inr ⟨head, rfl, rfl⟩
          · exact .inl ⟨List.mem_cons_of_mem _ hentry, hrest hentry⟩
        · rintro (⟨hentry, hne⟩ | ⟨found, hfound, rfl⟩)
          · rcases List.mem_cons.mp hentry with rfl | hentry
            · exact absurd hhead hne
            · exact .inr hentry
          · cases hfound
            exact .inl rfl
      · rw [modify, if_neg hhead, find_cons_of_ne hhead, List.mem_cons, ih hnodup.2, List.mem_cons]
        constructor
        · rintro (rfl | ⟨hentry, hne⟩ | hfound)
          · exact .inl ⟨.inl rfl, hhead⟩
          · exact .inl ⟨.inr hentry, hne⟩
          · exact .inr hfound
        · rintro (⟨rfl | hentry, hne⟩ | hfound)
          · exact .inl rfl
          · exact .inr (.inl ⟨hentry, hne⟩)
          · exact .inr (.inr hfound)

theorem find_map (hkey : ∀ entry, key (change entry) = key entry) :
    find key (table.map change) k = (find key table k).map change := by
  induction table with
  | nil => rfl
  | cons head table ih =>
      rw [List.map_cons]
      by_cases hhead : key head = k
      · rw [find_cons_self hhead, find_cons_self (by rw [hkey, hhead])]
        rfl
      · rw [find_cons_of_ne hhead, find_cons_of_ne (by rwa [hkey]), ih]

-- Without doubled keys, an entry that is filtered out leaves no other behind.
theorem find_filter (kept : ε → Bool) (hnodup : (table.map key).Nodup) :
    find key (table.filter kept) k = (find key table k).filter kept := by
  induction table with
  | nil => rfl
  | cons head table ih =>
      rw [List.map_cons, List.nodup_cons] at hnodup
      have hrest := ih hnodup.2
      by_cases hhead : key head = k
      · have hnone : find key table k = none := by
          rw [find_eq_none]
          rintro entry hentry rfl
          exact hnodup.1 (hhead ▸ List.mem_map_of_mem hentry)
        rw [find_cons_self hhead, List.filter_cons, Option.filter_some]
        split_ifs with hkept
        · exact find_cons_self hhead
        · rw [hrest, hnone]
          rfl
      · rw [find_cons_of_ne hhead, List.filter_cons]
        split_ifs with hkept
        · rw [find_cons_of_ne hhead, hrest]
        · exact hrest

-- A sequence of changes, each through the pointer that `find` gives.
section Updates

variable {υ : Type*} (on : υ → κ) (apply : υ → ε → ε)

theorem find_foldl_modify (hkey : ∀ update entry, key (apply update entry) = key entry)
    (updates : List υ) (table : List ε) :
    find key (updates.foldl (fun table update => modify key (apply update) table (on update)) table)
        k =
      (find key table k).map fun entry =>
        updates.foldl (fun entry update => if on update = k then apply update entry else entry)
          entry := by
  induction updates generalizing table with
  | nil => simp
  | cons update updates ih =>
      rw [List.foldl_cons, ih, find_modify (hkey update)]
      by_cases hon : on update = k
      · rw [if_pos hon.symm, Option.map_map, hon]
        simp [Function.comp_def, hon]
      · rw [if_neg (Ne.symm hon)]
        simp [hon]

theorem map_key_foldl_modify (hkey : ∀ update entry, key (apply update entry) = key entry)
    (updates : List υ) (table : List ε) :
    (updates.foldl (fun table update => modify key (apply update) table (on update)) table).map key =
      table.map key := by
  induction updates generalizing table with
  | nil => rfl
  | cons update updates ih => rw [List.foldl_cons, ih, map_key_modify (hkey update)]

end Updates

end Gopher.Lib.HashTable
