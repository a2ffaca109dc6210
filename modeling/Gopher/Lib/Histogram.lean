import Mathlib.Algebra.BigOperators.Group.List.Basic
import Mathlib.Algebra.Group.Basic
import Mathlib.Data.List.Induction
import Mathlib.Data.List.Perm.Basic

-- Counters under keys that are made by the first event that may make one, and events that are
-- counted under whatever key they match first.

namespace Gopher.Lib.Histogram

inductive Event (κ α : Type*)
  | put (key : κ) (count : α) (creates : Bool)
  | merge (fits : κ → Bool) (count : α)
  | skip

abbrev Table (κ α : Type*) := List (κ × α)

section Table

variable {κ α : Type*} [DecidableEq κ] [AddCommGroup α]

-- `none` if no key fits.
def addFirst (fits : κ → Bool) (count : α) : Table κ α → Option (Table κ α)
  | [] => none
  | (key, n) :: table =>
      if fits key then some ((key, n + count) :: table)
      else (addFirst fits count table).map ((key, n) :: ·)

def step (table : Table κ α) : Event κ α → Table κ α
  | .put key count creates =>
      (addFirst (fun other => decide (other = key)) count table).getD
        (if creates then table ++ [(key, count)] else table)
  | .merge fits count => (addFirst fits count table).getD table
  | .skip => table

def run (events : List (Event κ α)) : Table κ α := events.foldl step []

def count (table : Table κ α) (key : κ) : α :=
  (table.find? fun entry => decide (entry.1 = key)).elim 0 Prod.snd

def total (table : Table κ α) : α := (table.map Prod.snd).sum

def keys (table : Table κ α) : List κ := table.map Prod.fst

variable {fits : κ → Bool} {n : α} {key other : κ} {table after : Table κ α}

theorem count_cons_self (key : κ) (n : α) (table : Table κ α) : count ((key, n) :: table) key = n := by
  simp [count]

theorem count_cons_of_ne (h : key ≠ other) : count ((key, n) :: table) other = count table other := by
  simp [count, h]

omit [DecidableEq κ] in
theorem addFirst_eq_none (h : addFirst fits n table = none) : ∀ key ∈ keys table, fits key = false := by
  induction table with
  | nil => exact fun key hkey => by cases hkey
  | cons entry table ih =>
      obtain ⟨first, m⟩ := entry
      rw [addFirst] at h
      by_cases hfits : fits first = true
      · rw [if_pos hfits] at h
        cases h
      · rw [if_neg hfits, Option.map_eq_none_iff] at h
        rw [keys, List.map_cons, List.forall_mem_cons]
        exact ⟨by simpa using hfits, ih h⟩

-- What the first key that fits gains, and nothing else.
theorem addFirst_eq_some (h : addFirst fits n table = some after) :
    keys after = keys table ∧ ∃ key ∈ keys table, fits key = true ∧
      (∀ other, count after other = if other = key then count table other + n else count table other) ∧
      total after = total table + n := by
  induction table generalizing after with
  | nil => cases h
  | cons entry table ih =>
      obtain ⟨first, m⟩ := entry
      rw [addFirst] at h
      by_cases hfits : fits first = true
      · rw [if_pos hfits] at h
        cases h
        refine ⟨rfl, first, List.mem_cons_self, hfits, fun other => ?_, ?_⟩
        · by_cases hother : other = first
          · rw [if_pos hother, hother, count_cons_self, count_cons_self]
          · rw [if_neg hother, count_cons_of_ne (Ne.symm hother), count_cons_of_ne (Ne.symm hother)]
        · simp only [total, List.map_cons, List.sum_cons]
          exact add_right_comm m n _
      · rw [if_neg hfits, Option.map_eq_some_iff] at h
        obtain ⟨rest, hrest, rfl⟩ := h
        obtain ⟨hkeys, key, hkey, hkeyFits, hcount, htotal⟩ := ih hrest
        have hne : first ≠ key := by
          rintro rfl
          exact hfits hkeyFits
        refine ⟨?_, key, List.mem_cons_of_mem _ hkey, hkeyFits, fun other => ?_, ?_⟩
        · simp only [keys, List.map_cons] at hkeys ⊢
          rw [hkeys]
        · by_cases hother : first = other
          · rw [← hother, count_cons_self, count_cons_self, if_neg hne]
          · rw [count_cons_of_ne hother, count_cons_of_ne hother, hcount other]
        · simp only [total, List.map_cons, List.sum_cons] at htotal ⊢
          rw [htotal, add_assoc]

theorem run_concat (events : List (Event κ α)) (event : Event κ α) :
    run (events ++ [event]) = step (run events) event := by
  rw [run, List.foldl_append]
  rfl

-- Every event that makes a counter adds to it, and the others add nothing but zero.
structure Orderless (events : List (Event κ α)) : Prop where
  put : ∀ key count, .put key count false ∈ events → ∀ other, .put key other true ∈ events → count = 0
  merge : ∀ fits count, .merge fits count ∈ events →
    ∀ key other, .put key other true ∈ events → fits key = true → count = 0

omit [DecidableEq κ] in
theorem Orderless.of_subset {events others : List (Event κ α)} (h : Orderless events)
    (hsubset : others ⊆ events) : Orderless others :=
  ⟨fun key count hput other hother => h.put key count (hsubset hput) other (hsubset hother),
    fun fits count hmerge key other hother =>
      h.merge fits count (hsubset hmerge) key other (hsubset hother)⟩

def Event.created (key : κ) : Event κ α → α
  | .put other count true => if other = key then count else 0
  | _ => 0

def Event.createdAny : Event κ α → α
  | .put _ count true => count
  | _ => 0

-- A counter holds what the events that may make it bring.
structure Holds (events : List (Event κ α)) (table : Table κ α) : Prop where
  mem_keys : ∀ key, key ∈ keys table ↔ ∃ count, .put key count true ∈ events
  count_eq : ∀ key, count table key = (events.map (Event.created key)).sum
  total_eq : total table = (events.map Event.createdAny).sum

theorem Event.created_of_ne {event : Event κ α} (h : ∀ key count, event ≠ .put key count true)
    (key : κ) : event.created key = 0 ∧ event.createdAny = 0 := by
  cases event with
  | put other count creates =>
      cases creates with
      | false => exact ⟨rfl, rfl⟩
      | true => exact absurd rfl (h other count)
  | merge fits count => exact ⟨rfl, rfl⟩
  | skip => exact ⟨rfl, rfl⟩

omit [DecidableEq κ] in
theorem sum_map_concat (view : Event κ α → α) (events : List (Event κ α)) (event : Event κ α) :
    ((events ++ [event]).map view).sum = (events.map view).sum + view event := by
  rw [List.map_append, List.sum_append, List.map_singleton, List.sum_singleton]

-- An event that makes no counter and changes none.
theorem Holds.same {events : List (Event κ α)} {event : Event κ α} (h : Holds events table)
    (hevent : ∀ key count, event ≠ .put key count true) (hkeys : keys after = keys table)
    (hcount : ∀ key, count after key = count table key) (htotal : total after = total table) :
    Holds (events ++ [event]) after := by
  constructor
  · intro key
    rw [hkeys, h.mem_keys]
    refine exists_congr fun count => ?_
    rw [List.mem_append, List.mem_singleton]
    exact (or_iff_left fun heq => hevent key count heq.symm).symm
  · intro key
    rw [hcount, h.count_eq, sum_map_concat, (Event.created_of_ne hevent key).1, add_zero]
  · rw [htotal, h.total_eq, List.map_append, List.sum_append, List.map_singleton,
      List.sum_singleton]
    cases event with
    | put key count creates =>
        cases creates with
        | false => exact (add_zero _).symm
        | true => exact absurd rfl (hevent key count)
    | merge fits count => exact (add_zero _).symm
    | skip => exact (add_zero _).symm

theorem addFirst_zero (h : addFirst fits (0 : α) table = some after) :
    keys after = keys table ∧ (∀ key, count after key = count table key) ∧
      total after = total table := by
  obtain ⟨hkeys, key, -, -, hcount, htotal⟩ := addFirst_eq_some h
  refine ⟨hkeys, fun other => ?_, by rw [htotal, add_zero]⟩
  rw [hcount other, add_zero, ite_self]

theorem count_append_singleton (hkey : key ∉ keys table) (n : α) (other : κ) :
    count (table ++ [(key, n)]) other = if other = key then count table other + n else count table other := by
  induction table with
  | nil =>
      by_cases hother : other = key
      · rw [if_pos hother, hother, List.nil_append, count_cons_self]
        exact (zero_add n).symm
      · rw [if_neg hother, List.nil_append, count_cons_of_ne (Ne.symm hother)]
  | cons entry table ih =>
      obtain ⟨first, m⟩ := entry
      rw [keys, List.map_cons, List.mem_cons, not_or] at hkey
      by_cases hfirst : first = other
      · rw [List.cons_append, ← hfirst, count_cons_self, count_cons_self, if_neg (Ne.symm hkey.1)]
      · rw [List.cons_append, count_cons_of_ne hfirst, count_cons_of_ne hfirst, ih hkey.2]

-- An event that makes its counter, or adds to the one that is there.
theorem Holds.add {events : List (Event κ α)} (h : Holds events table)
    (hkeys : ∀ other, other ∈ keys after ↔ other ∈ keys table ∨ other = key)
    (hcount : ∀ other, count after other = if other = key then count table other + n else count table other)
    (htotal : total after = total table + n) : Holds (events ++ [.put key n true]) after := by
  constructor
  · intro other
    rw [hkeys, h.mem_keys]
    constructor
    · rintro (⟨m, hm⟩ | rfl)
      · exact ⟨m, List.mem_append_left _ hm⟩
      · exact ⟨n, List.mem_append_right _ List.mem_cons_self⟩
    · rintro ⟨m, hm⟩
      rcases List.mem_append.mp hm with hm | hm
      · exact .inl ⟨m, hm⟩
      · cases List.mem_singleton.mp hm
        exact .inr rfl
  · intro other
    rw [hcount, h.count_eq, sum_map_concat]
    by_cases hother : other = key
    · rw [if_pos hother]
      exact congrArg (_ + ·) (if_pos hother.symm).symm
    · rw [if_neg hother]
      have hcreated : (Event.put key n true).created other = 0 := if_neg (Ne.symm hother)
      rw [hcreated, add_zero]
  · rw [htotal, h.total_eq, sum_map_concat]
    rfl

theorem Holds.concat {events : List (Event κ α)} {event : Event κ α} (h : Holds events table)
    (hafter : Orderless (events ++ [event])) : Holds (events ++ [event]) (step table event) := by
  have hlast : event ∈ events ++ [event] := List.mem_append_right _ List.mem_cons_self
  cases event with
  | skip => exact h.same (by simp) rfl (fun _ => rfl) rfl
  | merge fits n =>
      rw [step]
      cases hadd : addFirst fits n table with
      | none => exact h.same (by simp) rfl (fun _ => rfl) rfl
      | some after =>
          obtain ⟨-, key, hkey, hfits, -, -⟩ := addFirst_eq_some hadd
          obtain ⟨other, hother⟩ := (h.mem_keys key).mp hkey
          obtain rfl := hafter.merge fits n hlast key other (List.mem_append_left _ hother) hfits
          obtain ⟨hkeys, hcount, htotal⟩ := addFirst_zero hadd
          exact h.same (by simp) hkeys hcount htotal
  | put key n creates =>
      rw [step]
      cases hadd : addFirst (fun other => decide (other = key)) n table with
      | some after =>
          obtain ⟨hkeys, other, hkey, hfits, hcount, htotal⟩ := addFirst_eq_some hadd
          obtain rfl := of_decide_eq_true hfits
          cases creates with
          | true =>
              refine h.add (fun key => ?_) hcount htotal
              rw [Option.getD_some, hkeys]
              exact ⟨.inl, fun hor => hor.elim id fun heq => heq ▸ hkey⟩
          | false =>
              obtain ⟨m, hm⟩ := (h.mem_keys other).mp hkey
              obtain rfl := hafter.put other n hlast m (List.mem_append_left _ hm)
              obtain ⟨hkeys, hcount, htotal⟩ := addFirst_zero hadd
              exact h.same (by simp) hkeys hcount htotal
      | none =>
          cases creates with
          | false => exact h.same (by simp) rfl (fun _ => rfl) rfl
          | true =>
              have hkey : key ∉ keys table := fun hmem =>
                of_decide_eq_false (addFirst_eq_none hadd key hmem) rfl
              refine h.add (fun other => ?_) (count_append_singleton hkey n) ?_
              · rw [Option.getD_none, if_pos rfl, keys, List.map_append, List.mem_append,
                  List.map_singleton, List.mem_singleton]
                exact Iff.rfl
              · rw [Option.getD_none, if_pos rfl, total, List.map_append, List.sum_append,
                  List.map_singleton, List.sum_singleton]
                rfl

theorem holds_run {events : List (Event κ α)} (h : Orderless events) : Holds events (run events) := by
  induction events using List.reverseRecOn with
  | nil => exact ⟨fun key => by simp [run, keys], fun key => rfl, rfl⟩
  | append_singleton events event ih =>
      rw [run_concat]
      exact (ih (h.of_subset (List.subset_append_left _ _))).concat h

-- The same counters, one of them ahead.
def ahead (key : κ) (n : α) (table : Table κ α) : Table κ α :=
  table.map fun entry => if entry.1 = key then (entry.1, entry.2 + n) else entry

theorem ahead_cons (key first : κ) (n m : α) (table : Table κ α) : ahead key n ((first, m) :: table) =
    (first, if first = key then m + n else m) :: ahead key n table := by
  by_cases h : first = key <;> simp [ahead, h]

theorem count_ahead (h : key ∈ keys table) (n : α) : count (ahead key n table) key = count table key + n := by
  induction table with
  | nil => cases h
  | cons entry table ih =>
      obtain ⟨first, m⟩ := entry
      rw [ahead_cons]
      by_cases hfirst : first = key
      · rw [hfirst, if_pos rfl, count_cons_self, count_cons_self]
      · rw [count_cons_of_ne hfirst, count_cons_of_ne hfirst]
        rw [keys, List.map_cons] at h
        exact ih ((List.mem_cons.mp h).resolve_left (Ne.symm hfirst))

theorem addFirst_ahead (fits : κ → Bool) (m : α) (key : κ) (n : α) (table : Table κ α) :
    addFirst fits m (ahead key n table) = (addFirst fits m table).map (ahead key n) := by
  induction table with
  | nil => rfl
  | cons entry table ih =>
      obtain ⟨first, l⟩ := entry
      rw [ahead_cons, addFirst, addFirst]
      by_cases hfits : fits first = true
      · rw [if_pos hfits, if_pos hfits, Option.map_some, ahead_cons]
        by_cases hfirst : first = key
        · rw [if_pos hfirst, if_pos hfirst, add_right_comm]
        · rw [if_neg hfirst, if_neg hfirst]
      · rw [if_neg hfits, if_neg hfits, ih, Option.map_map, Option.map_map]
        refine congrArg (fun f => Option.map f _) (funext fun rest => ?_)
        rw [Function.comp_apply, Function.comp_apply, ahead_cons]

theorem step_ahead (hkey : key ∈ keys table) (n : α) (event : Event κ α) :
    step (ahead key n table) event = ahead key n (step table event) ∧ key ∈ keys (step table event) := by
  cases event with
  | skip => exact ⟨rfl, hkey⟩
  | merge fits m =>
      rw [step, step, addFirst_ahead]
      cases hadd : addFirst fits m table with
      | none => exact ⟨rfl, hkey⟩
      | some after => exact ⟨rfl, (addFirst_eq_some hadd).1 ▸ hkey⟩
  | put other m creates =>
      rw [step, step, addFirst_ahead]
      cases hadd : addFirst (fun fit => decide (fit = other)) m table with
      | some after => exact ⟨rfl, (addFirst_eq_some hadd).1 ▸ hkey⟩
      | none =>
          have hne : other ≠ key := fun heq =>
            of_decide_eq_false (addFirst_eq_none hadd key hkey) heq.symm
          cases creates with
          | false => exact ⟨rfl, hkey⟩
          | true =>
              refine ⟨?_, ?_⟩
              · simp [ahead, hne]
              · simp only [Option.getD_none, if_pos, keys, List.map_append]
                exact List.mem_append_left _ hkey

theorem foldl_step_ahead (hkey : key ∈ keys table) (n : α) (events : List (Event κ α)) :
    events.foldl step (ahead key n table) = ahead key n (events.foldl step table) ∧
      key ∈ keys (events.foldl step table) := by
  induction events generalizing table with
  | nil => exact ⟨rfl, hkey⟩
  | cons event events ih =>
      obtain ⟨hstep, hmem⟩ := step_ahead hkey n event
      rw [List.foldl_cons, List.foldl_cons, hstep]
      exact ih hmem

theorem exists_perm_cons_cons {β : Type*} {items : List β} {first second : β} (hfirst : first ∈ items)
    (hsecond : second ∈ items) (hne : second ≠ first) :
    ∃ rest, (first :: second :: rest).Perm items := by
  obtain ⟨left, right, rfl⟩ := List.append_of_mem hfirst
  have hmiddle : (left ++ first :: right).Perm (first :: (left ++ right)) := List.perm_middle
  have hrest := (List.mem_cons.mp (hmiddle.subset hsecond)).resolve_left hne
  obtain ⟨before, after, heq⟩ := List.append_of_mem hrest
  have hsplit : (left ++ right).Perm (second :: (before ++ after)) := heq ▸ List.perm_middle
  exact ⟨before ++ after, ((hsplit.symm.cons first).trans hmiddle.symm)⟩

-- An event that finds no counter before the one that makes it, and adds to it after.
theorem eq_zero_of_swap {ι : Type*} {view : ι → Event κ α} {items : List ι}
    {late made : Event κ α} {n : α} (key : κ) (m : α)
    (hsame : ∀ order : List ι, order.Perm items → ∀ key,
      count (run (order.map view)) key = count (run (items.map view)) key)
    (hlate : late ∈ items.map view) (hmade : made ∈ items.map view) (hne : made ≠ late)
    (hnone : step [] late = []) (hmakes : step [] made = [(key, m)])
    (hadds : step [(key, m)] late = [(key, m + n)]) : n = 0 := by
  obtain ⟨first, hfirst, rfl⟩ := List.mem_map.mp hlate
  obtain ⟨second, hsecond, rfl⟩ := List.mem_map.mp hmade
  obtain ⟨rest, hperm⟩ := exists_perm_cons_cons hfirst hsecond (ne_of_apply_ne view hne)
  have hlater : run ((first :: second :: rest).map view) =
      (rest.map view).foldl step [(key, m)] := by
    rw [run, List.map_cons, List.map_cons, List.foldl_cons, List.foldl_cons, hnone, hmakes]
  have hahead : ahead key n [(key, m)] = [(key, m + n)] := by
    rw [ahead_cons, if_pos rfl]
    rfl
  have hmem : key ∈ keys [(key, m)] := List.mem_cons_self
  obtain ⟨hfold, hmem⟩ := foldl_step_ahead hmem n (rest.map view)
  have hearly : run ((second :: first :: rest).map view) =
      ahead key n (run ((first :: second :: rest).map view)) := by
    rw [run, List.map_cons, List.map_cons, List.foldl_cons, List.foldl_cons, hmakes, hadds,
      ← hahead, hfold, hlater]
  have hcount := hsame _ ((List.Perm.swap _ _ _).trans hperm) key
  rw [hearly, count_ahead (hlater ▸ hmem) n, hsame _ hperm key] at hcount
  exact add_eq_left.mp hcount

theorem orderless_iff {ι : Type*} (view : ι → Event κ α) (items : List ι) :
    (∀ order : List ι, order.Perm items → ∀ key,
      count (run (order.map view)) key = count (run (items.map view)) key) ↔
      Orderless (items.map view) := by
  constructor
  · intro h
    constructor
    · intro key n hlate m hmade
      exact eq_zero_of_swap key m h hlate hmade (by simp) rfl rfl (by simp [step, addFirst])
    · intro fits n hlate key m hmade hfits
      exact eq_zero_of_swap key m h hlate hmade (by simp) rfl rfl (by simp [step, addFirst, hfits])
  · intro h order hperm key
    have hevents : (order.map view).Perm (items.map view) := hperm.map view
    rw [(holds_run h).count_eq, (holds_run (h.of_subset hevents.subset)).count_eq]
    exact (hevents.map _).sum_eq

end Table

end Gopher.Lib.Histogram
