import Gopher.Lib.HashTable
import Mathlib.Data.List.Dedup
import Mathlib.Data.List.DropRight

namespace Gopher.Lib

open HashTable

variable {ε κ : Type*} [DecidableEq κ]

-- The keys requested last, each once, in the order of their last requests.
def recent (capacity : ℕ) (requests : List κ) : List κ :=
  requests.dedup.rtake capacity

-- The keys a cache should hold: as many as there is room for, and a key only while
-- fewer others than that have been requested after it.
structure MostRecent (capacity : ℕ) (requests keys : List κ) : Prop where
  nodup : keys.Nodup
  length_eq : keys.length = min requests.dedup.length capacity
  mem_iff : ∀ k, k ∈ keys ↔ ∃ before after, requests = before ++ k :: after ∧ k ∉ after ∧
    after.dedup.length < capacity

section Lists

variable {α : Type*}

theorem rtake_of_length_le {l : List α} {n : ℕ} (h : l.length ≤ n) : l.rtake n = l := by
  rw [List.rtake, Nat.sub_eq_zero_of_le h, List.drop_zero]

theorem rtake_append {front back : List α} {n : ℕ} (h : n ≤ back.length) :
    (front ++ back).rtake n = back.rtake n := by
  have hfront : front.drop (front.length + back.length - n) = [] :=
    List.drop_eq_nil_of_le (by omega)
  rw [List.rtake, List.rtake, List.length_append, List.drop_append, hfront, List.nil_append]
  congr 1
  omega

theorem length_rtake (l : List α) (n : ℕ) : (l.rtake n).length = min l.length n := by
  rw [List.rtake, List.length_drop]
  omega

-- Either everything fits, or the last elements fill the room.
theorem exists_rtake (l : List α) (n : ℕ) :
    ∃ front, l = front ++ l.rtake n ∧ ((l.rtake n).length = n ∨ front = []) := by
  refine ⟨l.take (l.length - n), (List.take_append_drop _ _).symm, ?_⟩
  rw [length_rtake, List.take_eq_nil_iff]
  omega

theorem rtake_concat_of_lt {l : List α} {n : ℕ} {a : α} (h : (l.rtake n).length < n) :
    (l ++ [a]).rtake n = l.rtake n ++ [a] := by
  rw [length_rtake] at h
  have hlen : (l ++ [a]).length = l.length + 1 := by simp
  rw [rtake_of_length_le (show l.length ≤ n by omega), rtake_of_length_le (by omega)]

theorem rtake_concat_of_full {l : List α} {n : ℕ} {a : α} (hpos : 0 < n)
    (h : n ≤ (l.rtake n).length) : (l ++ [a]).rtake n = (l.rtake n).tail ++ [a] := by
  obtain ⟨n, rfl⟩ : ∃ m, n = m + 1 := ⟨n - 1, by omega⟩
  rw [List.rtake_concat_succ]
  congr 1
  rw [List.rtake, List.rtake, List.tail_drop]
  rw [length_rtake] at h
  congr 1
  omega

end Lists

theorem dedup_concat (requests : List κ) (k : κ) :
    (requests ++ [k]).dedup = requests.dedup.erase k ++ [k] := by
  induction requests with
  | nil => rfl
  | cons head requests ih =>
      rw [List.cons_append]
      by_cases hmem : head ∈ requests
      · rw [List.dedup_cons_of_mem (List.mem_append_left _ hmem), ih, List.dedup_cons_of_mem hmem]
      · by_cases hk : head = k
        · subst hk
          rw [List.dedup_cons_of_mem (by simp), ih, List.dedup_cons_of_notMem hmem,
            List.erase_cons_head, List.erase_of_not_mem (by simpa using hmem)]
        · rw [List.dedup_cons_of_notMem (by simp [hmem, hk]), ih, List.dedup_cons_of_notMem hmem,
            List.erase_cons_tail (by simpa using hk), List.cons_append]

theorem mem_dedup_split {requests : List κ} {k : κ} (h : k ∈ requests) :
    ∃ before after, requests = before ++ k :: after ∧ k ∉ after := by
  induction requests with
  | nil => simp at h
  | cons head requests ih =>
      by_cases hmem : k ∈ requests
      · obtain ⟨before, after, rfl, hafter⟩ := ih hmem
        exact ⟨head :: before, after, rfl, hafter⟩
      · obtain rfl : k = head := (List.mem_cons.mp h).resolve_right hmem
        exact ⟨[], requests, rfl, hmem⟩

-- What was requested after the last request of a key stands behind it.
theorem dedup_append_cons (before : List κ) {after : List κ} {k : κ} (h : k ∉ after) :
    ∃ front, (before ++ k :: after).dedup = front ++ k :: after.dedup ∧ k ∉ front := by
  induction before with
  | nil => exact ⟨[], List.dedup_cons_of_notMem h, by simp⟩
  | cons head before ih =>
      obtain ⟨front, hdedup, hfront⟩ := ih
      by_cases hmem : head ∈ before ++ k :: after
      · exact ⟨front, by rw [List.cons_append, List.dedup_cons_of_mem hmem, hdedup], hfront⟩
      · refine ⟨head :: front, by rw [List.cons_append, List.dedup_cons_of_notMem hmem, hdedup,
          List.cons_append], ?_⟩
        rintro (_ | ⟨_, hk⟩)
        · simp at hmem
        · exact hfront hk

@[simp] theorem recent_nil (capacity : ℕ) : recent capacity ([] : List κ) = [] := List.rtake_nil _

theorem nodup_recent (capacity : ℕ) (requests : List κ) : (recent capacity requests).Nodup :=
  (List.nodup_dedup requests).sublist (List.drop_sublist _ _)

theorem mostRecent_recent (capacity : ℕ) (requests : List κ) :
    MostRecent capacity requests (recent capacity requests) := by
  refine ⟨nodup_recent capacity requests, length_rtake _ _, fun k => ?_⟩
  constructor
  · intro hk
    have hmem : k ∈ requests := List.mem_dedup.mp (List.mem_of_mem_drop hk)
    obtain ⟨before, after, rfl, hafter⟩ := mem_dedup_split hmem
    refine ⟨before, after, rfl, hafter, ?_⟩
    obtain ⟨front, hdedup, hfront⟩ := dedup_append_cons before hafter
    rw [recent, hdedup] at hk
    by_contra hge
    -- the keys after `k` fill the room
    have hsub : (front ++ k :: after.dedup).rtake capacity = after.dedup.rtake capacity := by
      rw [List.append_cons]
      exact rtake_append (by omega)
    rw [hsub] at hk
    exact hafter (List.mem_dedup.mp (List.mem_of_mem_drop hk))
  · rintro ⟨before, after, rfl, hafter, hlt⟩
    obtain ⟨front, hdedup, hfront⟩ := dedup_append_cons before hafter
    rw [recent, hdedup, List.rtake, List.drop_append]
    apply List.mem_append_right
    have : (front ++ k :: after.dedup).length - capacity - front.length = 0 := by
      rw [List.length_append, List.length_cons]
      omega
    rw [this]
    exact List.mem_cons_self

namespace Lru

variable (key : ε → κ)

-- A table in the order of insertion, where an entry that is asked for is taken out
-- and added again.
def find (table : List ε) (k : κ) : List ε × Option ε :=
  match HashTable.find key table k with
  | none => (table, none)
  | some entry => (del key table k ++ [entry], some entry)

-- A full table loses its first entry.
def add (capacity : ℕ) (table : List ε) (entry : ε) : List ε :=
  (if capacity ≤ table.length then table.tail else table) ++ [entry]

-- What is not found is filled, which may fail, and added.
def get (capacity : ℕ) (fill : Option ε) (table : List ε) (k : κ) : List ε × Option ε :=
  match find key table k with
  | (table, some entry) => (table, some entry)
  | (table, none) =>
      match fill with
      | none => (table, none)
      | some entry => (add capacity table entry, some entry)

variable {key} {capacity : ℕ} {fill : Option ε} {table : List ε} {k : κ} {entry : ε}

theorem get_hit (hfind : HashTable.find key table k = some entry) :
    get key capacity fill table k = (del key table k ++ [entry], some entry) := by
  simp [get, find, hfind]

theorem get_miss (hfind : HashTable.find key table k = none) :
    get key capacity fill table k = match fill with
      | none => (table, none)
      | some entry => (add capacity table entry, some entry) := by
  simp only [get, find, hfind]

theorem map_key_del : (del key table k).map key = (table.map key).erase k := by
  rw [del, List.erase_eq_eraseP', List.eraseP_map]
  congr 2

theorem map_key_hit {requests : List κ} (hkeys : table.map key = recent capacity requests)
    (hfind : HashTable.find key table k = some entry) :
    (del key table k ++ [entry]).map key = recent capacity (requests ++ [k]) := by
  obtain ⟨front, hsplit, hfull⟩ := exists_rtake requests.dedup capacity
  have hmem : k ∈ requests.dedup.rtake capacity := by
    rw [show requests.dedup.rtake capacity = table.map key from hkeys.symm, ← key_of_find hfind]
    exact List.mem_map_of_mem (mem_of_find hfind)
  have hfront : k ∉ front := by
    have hnodup := List.nodup_dedup requests
    rw [hsplit] at hnodup
    exact fun hk => List.disjoint_of_nodup_append hnodup hk hmem
  have hlen := List.length_erase_of_mem hmem
  have hpos := List.length_pos_of_mem hmem
  rw [List.map_append, map_key_del, hkeys, List.map_singleton, key_of_find hfind, recent, recent,
    dedup_concat]
  have herase : requests.dedup.erase k = front ++ (requests.dedup.rtake capacity).erase k := by
    conv_lhs => rw [hsplit]
    exact List.erase_append_right _ hfront
  rw [length_rtake] at hlen hpos hfull
  obtain ⟨room, rfl⟩ : ∃ room, capacity = room + 1 := ⟨capacity - 1, by omega⟩
  rw [List.rtake_concat_succ, herase]
  congr 1
  rcases hfull with hfull | rfl
  · rw [rtake_append (by omega)]
    exact (rtake_of_length_le (by omega)).symm
  · rw [List.nil_append]
    exact (rtake_of_length_le (by omega)).symm

theorem map_key_add {requests : List κ} (hpos : 0 < capacity)
    (hkeys : table.map key = recent capacity requests)
    (hfind : HashTable.find key table k = none) (hentry : key entry = k) :
    (add capacity table entry).map key = recent capacity (requests ++ [k]) := by
  obtain ⟨front, hsplit, hfull⟩ := exists_rtake requests.dedup capacity
  have hnot : k ∉ requests.dedup.rtake capacity := by
    rw [show requests.dedup.rtake capacity = table.map key from hkeys.symm]
    intro hk
    obtain ⟨other, hother, heq⟩ := List.mem_map.mp hk
    exact find_eq_none.mp hfind other hother heq
  have hlen : table.length = (requests.dedup.rtake capacity).length := by
    rw [← List.length_map key, hkeys, recent]
  rw [recent, dedup_concat]
  -- a key that is not kept may be one that was requested long ago
  have herase : requests.dedup.erase k = front.erase k ++ requests.dedup.rtake capacity := by
    conv_lhs => rw [hsplit]
    by_cases hk : k ∈ front
    · exact List.erase_append_left _ hk
    · rw [List.erase_append_right _ hk, List.erase_of_not_mem hnot, List.erase_of_not_mem hk]
  have hkept : (requests.dedup.erase k).rtake capacity = requests.dedup.rtake capacity := by
    rcases hfull with hfull | rfl
    · rw [herase, rtake_append (by omega), rtake_of_length_le (by omega)]
    · rw [herase, List.erase_nil, List.nil_append, rtake_of_length_le]
      rw [length_rtake]
      omega
  rw [add, List.map_append, List.map_singleton, hentry]
  split_ifs with hle
  · rw [rtake_concat_of_full hpos (by rw [hkept]; omega), hkept, List.map_tail, hkeys, recent]
  · rw [rtake_concat_of_lt (by rw [hkept]; omega), hkept, hkeys, recent]

-- A request that is served keeps the table at the most recent keys.
theorem map_key_get {requests : List κ} (hpos : 0 < capacity)
    (hkeys : table.map key = recent capacity requests)
    (hfill : ∀ entry, fill = some entry → key entry = k)
    (hfilled : HashTable.find key table k = none → fill.isSome) :
    (get key capacity fill table k).1.map key = recent capacity (requests ++ [k]) := by
  cases hfind : HashTable.find key table k with
  | some entry =>
      rw [get_hit hfind]
      exact map_key_hit hkeys hfind
  | none =>
      obtain ⟨entry, hentry⟩ := Option.isSome_iff_exists.mp (hfilled hfind)
      rw [get_miss hfind, hentry]
      exact map_key_add hpos hkeys hfind (hfill entry hentry)

-- What is in the table after a request was there before, or is the entry just filled.
theorem mem_get (h : entry ∈ (get key capacity fill table k).1) :
    entry ∈ table ∨ HashTable.find key table k = none ∧ fill = some entry := by
  cases hfind : HashTable.find key table k with
  | some found =>
      rw [get_hit hfind] at h
      rcases List.mem_append.mp h with h | h
      · exact .inl (del_sublist.mem h)
      · rw [List.mem_singleton.mp h]
        exact .inl (mem_of_find hfind)
  | none =>
      rw [get_miss hfind] at h
      cases hentry : fill with
      | none =>
          rw [hentry] at h
          exact .inl h
      | some new =>
          rw [hentry] at h
          rcases List.mem_append.mp h with h | h
          · split_ifs at h
            · exact .inl (List.mem_of_mem_tail h)
            · exact .inl h
          · rw [List.mem_singleton.mp h]
            exact .inr ⟨rfl, rfl⟩

end Lru

end Gopher.Lib
