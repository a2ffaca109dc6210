import Gopher.Lib.HashTable
import Mathlib.Algebra.BigOperators.Group.List.Basic
import Mathlib.Tactic.Abel

namespace Gopher.Lib

-- A BPF hash map as the list of its elements.
abbrev BpfMap (κ ν : Type*) := List (κ × ν)

namespace BpfMap

variable {κ ν : Type*} [DecidableEq κ]

def lookup (map : BpfMap κ ν) (k : κ) : Option ν :=
  (HashTable.find Prod.fst map k).map Prod.snd

-- An element under the key is there, or there is room for one.
def Fits (maxEntries : ℕ) (map : BpfMap κ ν) (k : κ) : Prop :=
  (map.lookup k).isSome ∨ map.length < maxEntries

instance (maxEntries : ℕ) (map : BpfMap κ ν) (k : κ) : Decidable (Fits maxEntries map k) :=
  inferInstanceAs (Decidable (_ ∨ _))

-- `bpf_map_update_elem` with `BPF_ANY`. It fails when the map is full.
def update (maxEntries : ℕ) (map : BpfMap κ ν) (k : κ) (value : ν) : BpfMap κ ν :=
  if (map.lookup k).isSome then
    HashTable.modify Prod.fst (fun element => (element.1, value)) map k
  else if map.length < maxEntries then (k, value) :: map
  else map

def delete (map : BpfMap κ ν) (k : κ) : BpfMap κ ν := HashTable.del Prod.fst map k

variable {map : BpfMap κ ν} {k other : κ} {value : ν} {maxEntries : ℕ}

theorem lookup_eq_none : map.lookup k = none ↔ HashTable.find Prod.fst map k = none := by
  rw [lookup, Option.map_eq_none_iff]

theorem lookup_cons (element : κ × ν) :
    lookup (element :: map) k = if element.1 = k then some element.2 else map.lookup k := by
  rw [lookup]
  split_ifs with heq
  · rw [HashTable.find_cons_self heq]
    rfl
  · rw [HashTable.find_cons_of_ne heq]
    rfl

theorem lookup_update (hfits : Fits maxEntries map k) :
    (update maxEntries map k value).lookup other =
      if other = k then some value else map.lookup other := by
  have hkey : ∀ element : κ × ν, (element.1, value).1 = element.1 := fun _ => rfl
  rw [update]
  by_cases hfound : (map.lookup k).isSome
  · rw [if_pos hfound, lookup, HashTable.find_modify hkey]
    split_ifs with heq
    · cases hfind : HashTable.find Prod.fst map k with
      | none => simp [lookup, hfind] at hfound
      | some element => rfl
    · rfl
  · rw [if_neg hfound, if_pos (hfits.resolve_left hfound), lookup_cons]
    simp only [eq_comm]

theorem update_of_not_fits (hfits : ¬ Fits maxEntries map k) :
    update maxEntries map k value = map := by
  rw [Fits, not_or] at hfits
  rw [update, if_neg hfits.1, if_neg hfits.2]

theorem lookup_of_not_fits (hfits : ¬ Fits maxEntries map k) : map.lookup k = none := by
  rw [Fits, not_or] at hfits
  simpa using hfits.1

theorem nodup_update (hnodup : (map.map Prod.fst).Nodup) :
    ((update maxEntries map k value).map Prod.fst).Nodup := by
  have hkey : ∀ element : κ × ν, (element.1, value).1 = element.1 := fun _ => rfl
  rw [update]
  split_ifs with hfound
  · rwa [HashTable.map_key_modify hkey]
  · exact HashTable.nodup_cons (lookup_eq_none.mp (by simpa using hfound)) hnodup
  · exact hnodup

theorem nodup_delete (hnodup : (map.map Prod.fst).Nodup) :
    ((map.delete k).map Prod.fst).Nodup :=
  HashTable.nodup_del hnodup

theorem lookup_delete (hnodup : (map.map Prod.fst).Nodup) :
    (map.delete k).lookup other = if other = k then none else map.lookup other := by
  rw [lookup, delete]
  split_ifs with heq
  · rw [heq, HashTable.find_del_self hnodup]
    rfl
  · rw [HashTable.find_del_of_ne heq]
    rfl

-- No key is there twice, and the map is not over its size.
structure Valid (maxEntries : ℕ) (map : BpfMap κ ν) : Prop where
  nodup : (map.map Prod.fst).Nodup
  length_le : map.length ≤ maxEntries

theorem length_update_le (hlength : map.length ≤ maxEntries) :
    (update maxEntries map k value).length ≤ maxEntries := by
  rw [update]
  split_ifs with hfound hroom
  · have hkeys : (HashTable.modify Prod.fst (fun element => (element.1, value)) map k).map
        Prod.fst = map.map Prod.fst := HashTable.map_key_modify fun _ => rfl
    have hsame := congrArg List.length hkeys
    rw [List.length_map, List.length_map] at hsame
    rwa [hsame]
  · rw [List.length_cons]
    omega
  · exact hlength

theorem length_delete (hfound : (map.lookup k).isSome) :
    (map.delete k).length + 1 = map.length := by
  rw [lookup, Option.isSome_map, HashTable.find_isSome] at hfound
  obtain ⟨element, hmem, hkey⟩ := hfound
  have hpos := List.length_pos_of_mem hmem
  rw [delete, HashTable.del, List.length_eraseP_of_mem hmem (by simpa using hkey)]
  omega

namespace Valid

omit [DecidableEq κ] in
theorem nil : Valid maxEntries ([] : BpfMap κ ν) := ⟨List.nodup_nil, Nat.zero_le _⟩

theorem update (h : Valid maxEntries map) : Valid maxEntries (update maxEntries map k value) :=
  ⟨nodup_update h.nodup, length_update_le h.length_le⟩

theorem delete (h : Valid maxEntries map) : Valid maxEntries (map.delete k) :=
  ⟨nodup_delete h.nodup, (HashTable.del_sublist.length_le).trans h.length_le⟩

-- A deleted element leaves room.
theorem fits_delete (h : Valid maxEntries map) (hfound : (map.lookup k).isSome) (other : κ) :
    Fits maxEntries (map.delete k) other := by
  have hlength := length_delete hfound
  have hbound := h.length_le
  exact .inr (by omega)

end Valid

section Total

variable {M : Type*} [AddCommGroup M] (weight : ν → M)

-- The sum of the weights of all values.
def total (map : BpfMap κ ν) : M := (map.map fun element => weight element.2).sum

variable {weight}

omit [DecidableEq κ] in
theorem total_cons (element : κ × ν) :
    total weight (element :: map) = weight element.2 + total weight map := by
  rw [total, List.map_cons, List.sum_cons]
  rfl

theorem total_delete :
    total weight (map.delete k) = total weight map - ((map.lookup k).map weight).getD 0 := by
  induction map with
  | nil => simp [delete, HashTable.del, total, lookup]
  | cons element map ih =>
      rw [lookup_cons]
      by_cases hkey : element.1 = k
      · have hdelete : delete (element :: map) k = map := by
          rw [delete, HashTable.del, List.eraseP_cons_of_pos (by simpa using hkey)]
        rw [hdelete, total_cons, if_pos hkey, Option.map_some, Option.getD_some]
        abel
      · have hdelete : delete (element :: map) k = element :: delete map k := by
          rw [delete, HashTable.del, List.eraseP_cons_of_neg (by simpa using hkey)]
          rfl
        rw [hdelete, total_cons, total_cons, if_neg hkey, ih]
        abel

theorem total_modify :
    total weight (HashTable.modify Prod.fst (fun element => (element.1, value)) map k) =
      if (map.lookup k).isSome then
        total weight map - ((map.lookup k).map weight).getD 0 + weight value
      else total weight map := by
  induction map with
  | nil => simp [HashTable.modify, lookup]
  | cons element map ih =>
      rw [lookup_cons, HashTable.modify]
      by_cases hkey : element.1 = k
      · rw [if_pos hkey, if_pos hkey, if_pos Option.isSome_some, total_cons, total_cons,
          Option.map_some, Option.getD_some]
        abel
      · rw [if_neg hkey, if_neg hkey, total_cons, total_cons, ih]
        split_ifs
        · abel
        · rfl

theorem total_update (hfits : Fits maxEntries map k) :
    total weight (update maxEntries map k value) =
      total weight map - ((map.lookup k).map weight).getD 0 + weight value := by
  rw [update]
  by_cases hfound : (map.lookup k).isSome
  · rw [if_pos hfound, total_modify, if_pos hfound]
  · have hnone : map.lookup k = none := by simpa using hfound
    rw [if_neg hfound, if_pos (hfits.resolve_left hfound), total_cons, hnone, Option.map_none,
      Option.getD_none]
    abel

end Total

end BpfMap

end Gopher.Lib
