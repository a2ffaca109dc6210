import Mathlib.Data.List.Basic
import Mathlib.Data.List.Nodup
import Mathlib.Data.Nat.Notation

-- An array whose slots are overwritten from the front in every round, as far as the round
-- has items: which item a slot holds, and which one a key had last.

namespace Gopher.Lib.Places

variable {α β κ : Type} [DecidableEq κ]

def overwrite (write : α → β → β) (items : List α) (slots : List β) : List β :=
  List.zipWith write items slots ++ slots.drop items.length

-- The item written last at a place.
def held (rounds : List (List α)) (place : ℕ) : Option α :=
  (rounds.filterMap fun items => items[place]?).getLast?

-- The item with the key in the last round that has one.
def previous (key : α → κ) (rounds : List (List α)) (k : κ) : Option α :=
  (rounds.filterMap fun items => items.find? fun item => key item = k).getLast?

variable {write : α → β → β} {items : List α} {slots : List β} {rounds : List (List α)} {place : ℕ}

theorem length_overwrite (hlength : items.length ≤ slots.length) :
    (overwrite write items slots).length = slots.length := by
  rw [overwrite, List.length_append, List.length_zipWith, List.length_drop]
  omega

theorem getElem?_overwrite (hlength : items.length ≤ slots.length) :
    (overwrite write items slots)[place]? =
      match items[place]? with
      | some item => slots[place]?.map (write item)
      | none => slots[place]? := by
  have hzip : (List.zipWith write items slots).length = items.length := by
    rw [List.length_zipWith]
    omega
  by_cases hplace : place < items.length
  · have hslot : place < slots.length := by omega
    rw [overwrite, List.getElem?_append_left (by omega), List.getElem?_zipWith,
      List.getElem?_eq_getElem hplace, List.getElem?_eq_getElem hslot]
    rfl
  · rw [overwrite, List.getElem?_append_right (by omega), List.getElem?_drop, hzip,
      List.getElem?_eq_none (by omega : items.length ≤ place), Nat.add_sub_cancel' (by omega)]

theorem held_concat (rounds : List (List α)) (items : List α) (place : ℕ) :
    held (rounds ++ [items]) place = items[place]?.or (held rounds place) := by
  rw [held, List.filterMap_append, held]
  cases hitem : items[place]? with
  | none => simp [hitem]
  | some item => simp [hitem]

-- Every slot stands in the relation to what its place holds.
def Holds (relation : Option α → β → Prop) (rounds : List (List α)) (slots : List β) : Prop :=
  ∀ place slot, slots[place]? = some slot → relation (held rounds place) slot

variable {relation : Option α → β → Prop}

theorem Holds.replicate {zero : β} (hzero : relation none zero) (count : ℕ) :
    Holds relation [] (List.replicate count zero) := by
  intro place slot hslot
  rw [List.eq_of_mem_replicate (List.mem_of_getElem? hslot)]
  exact hzero

theorem Holds.overwrite (hwrite : ∀ item slot, relation (some item) (write item slot))
    (hlength : items.length ≤ slots.length) (h : Holds relation rounds slots) :
    Holds relation (rounds ++ [items]) (Places.overwrite write items slots) := by
  intro place slot hslot
  rw [getElem?_overwrite hlength] at hslot
  rw [held_concat]
  cases hitem : items[place]? with
  | none =>
      rw [hitem] at hslot
      exact h place slot hslot
  | some item =>
      rw [hitem] at hslot
      obtain ⟨before, -, rfl⟩ := Option.map_eq_some_iff.mp hslot
      exact hwrite item before

section Loop

variable {ω ι : Type}

-- A loop over the array: the place of the next slot, and what was printed so far.
structure Loop (β ω : Type*) where
  slots : List β
  index : ℕ
  outputs : List ω

def Loop.store (value : β) (out : ω) (loop : Loop β ω) : Loop β ω :=
  ⟨loop.slots.set loop.index value, loop.index + 1, loop.outputs ++ [out]⟩

variable {step : Loop β ω → ι → Option (Loop β ω)} {relates : α → ι → Prop} {chosen : α → Bool}
  {out : α → β → ω} {lines : List ι}

-- Lines that are skipped, or written into the next slot.
theorem foldlM_eq (count : ℕ)
    (hskip : ∀ item line loop, relates item line → chosen item = false → step loop line = some loop)
    (hwrite : ∀ item line loop slot, relates item line → chosen item = true →
      loop.slots.length = count → loop.slots[loop.index]? = some slot →
      step loop line = some (loop.store (write item slot) (out item slot)))
    (hlines : List.Forall₂ relates items lines) (loop : Loop β ω) (hcount : loop.slots.length = count)
    (hroom : loop.index + (items.filter chosen).length ≤ loop.slots.length) :
    lines.foldlM step loop =
      some
        { slots := loop.slots.take loop.index ++
            overwrite write (items.filter chosen) (loop.slots.drop loop.index)
          index := loop.index + (items.filter chosen).length
          outputs := loop.outputs ++
            List.zipWith out (items.filter chosen) (loop.slots.drop loop.index) } := by
  induction hlines generalizing loop with
  | nil => simp [overwrite]
  | @cons item line items lines hline _ ih =>
      cases hitem : chosen item with
      | false =>
          rw [List.filter_cons_of_neg (by simp [hitem])] at hroom ⊢
          rw [List.foldlM_cons, hskip item line loop hline hitem]
          exact ih loop hcount hroom
      | true =>
          rw [List.filter_cons_of_pos hitem, List.length_cons] at hroom ⊢
          have hindex : loop.index < loop.slots.length := by omega
          obtain ⟨slot, hslot⟩ : ∃ slot, loop.slots[loop.index]? = some slot :=
            ⟨_, List.getElem?_eq_getElem hindex⟩
          have hdrop : loop.slots.drop loop.index = slot :: loop.slots.drop (loop.index + 1) := by
            rw [List.drop_eq_getElem_cons hindex]
            rw [List.getElem?_eq_getElem hindex] at hslot
            rw [Option.some.inj hslot]
          have htake : (loop.slots.set loop.index (write item slot)).take (loop.index + 1) =
              loop.slots.take loop.index ++ [write item slot] := by
            rw [List.take_add_one, List.take_set_of_le (Nat.le_refl _),
              List.getElem?_set_self hindex]
            rfl
          have hbehind : (loop.slots.set loop.index (write item slot)).drop (loop.index + 1) =
              loop.slots.drop (loop.index + 1) := List.drop_set_of_lt (Nat.lt_succ_self _)
          have hrest := ih (loop.store (write item slot) (out item slot))
            (by rw [Loop.store, List.length_set]; exact hcount)
            (by rw [Loop.store, List.length_set]; dsimp only; omega)
          have hcounted : loop.index + 1 + (items.filter chosen).length =
              loop.index + ((items.filter chosen).length + 1) := by omega
          rw [List.foldlM_cons, hwrite item line loop slot hline hitem hcount hslot,
            Option.bind_eq_bind, Option.bind_some, hrest, hdrop]
          simp only [Loop.store, htake, hbehind, overwrite, List.zipWith_cons_cons, List.length_cons,
            List.drop_succ_cons, List.append_assoc, List.cons_append, List.nil_append,
            hcounted]

end Loop

section Rounds

variable {ω : Type} (key : α → κ) (name : ω → κ) (select : List α → List α)

-- What a round shows, and what is printed for the items of it that get a slot. The two places
-- of an item and of its output are one.
structure Prints (prints : ℕ → α → ω → Prop) (items : List α) (outs : List ω) : Prop where
  length : outs.length = items.length
  out : ∀ place item out, items[place]? = some item → outs[place]? = some out →
    prints place item out

-- The same for a run of rounds, each with the rounds in front of it.
structure PrintsAll (prints : List (List α) → ℕ → α → ω → Prop) (shown : List (List α))
    (outputs : List (List ω)) : Prop where
  length : outputs.length = shown.length
  round : ∀ r rows outs, shown[r]? = some rows → outputs[r]? = some outs →
    Prints (prints (shown.take r)) (select rows) outs

-- Whatever is printed for an item stands in a relation to the item and to the one with its key
-- in the last round before that shows one.
def Own (own : α → α → ω → Prop) (shown : List (List α)) (outputs : List (List ω)) : Prop :=
  ∀ (r : ℕ) (rows : List α) (outs : List ω), shown[r]? = some rows → outputs[r]? = some outs →
    ∀ row ∈ rows, ∀ out ∈ outs, name out = key row →
      ∀ prev, previous key (shown.take r) (key row) = some prev → own prev row out

def OncePerRound (shown : List (List α)) (outputs : List (List ω)) : Prop :=
  ∀ (r : ℕ) (rows : List α) (outs : List ω), shown[r]? = some rows → outputs[r]? = some outs →
    ∀ row ∈ rows, (outs.map name).count (key row) = 1

-- The condition on the rounds alone.
def Fits (fits : List (List α) → ℕ → α → α → Prop) (shown : List (List α)) : Prop :=
  ∀ (r : ℕ) (rows : List α), shown[r]? = some rows → ∀ place row, (select rows)[place]? = some row →
    ∀ prev, previous key (shown.take r) (key row) = some prev → fits (shown.take r) place row prev

variable {key} {name} {select} {prints : List (List α) → ℕ → α → ω → Prop}
  {own : α → α → ω → Prop} {fits : List (List α) → ℕ → α → α → Prop}
  {shown : List (List α)} {outputs : List (List ω)}

omit [DecidableEq κ] in
theorem Prints.map_name {prints : ℕ → α → ω → Prop} {items : List α} {outs : List ω}
    (h : Prints prints items outs)
    (hname : ∀ place item out, prints place item out → name out = key item) :
    outs.map name = items.map key := by
  apply List.ext_getElem? fun place => ?_
  rw [List.getElem?_map, List.getElem?_map]
  by_cases hplace : place < items.length
  · have hout : place < outs.length := by rw [h.length]; exact hplace
    rw [List.getElem?_eq_getElem hplace, List.getElem?_eq_getElem hout, Option.map_some,
      Option.map_some, hname place _ _ (h.out place _ _ (List.getElem?_eq_getElem hplace)
        (List.getElem?_eq_getElem hout))]
  · have hlength := h.length
    rw [List.getElem?_eq_none (by omega : outs.length ≤ place),
      List.getElem?_eq_none (by omega : items.length ≤ place)]
    rfl

theorem PrintsAll.nil : PrintsAll select prints [] ([] : List (List ω)) :=
  ⟨rfl, fun _ _ _ hrows => by simp at hrows⟩

theorem PrintsAll.cons {rows : List α} {outs : List ω} (hfirst : Prints (prints []) (select rows) outs)
    (hrest : PrintsAll select (fun earlier => prints (rows :: earlier)) shown outputs) :
    PrintsAll select prints (rows :: shown) (outs :: outputs) := by
  refine ⟨by rw [List.length_cons, List.length_cons, hrest.length], fun r other others hr hothers => ?_⟩
  cases r with
  | zero =>
      cases hr
      cases hothers
      exact hfirst
  | succ r => exact hrest.round r other others hr hothers

section Run

variable {σ ι ρ : Type}

-- What the rounds print, one after the other; `none` as soon as one of them fails.
def runRounds (probe : σ → ι → Option (σ × List ω)) : σ → List ι → Option (List (List ω))
  | _, [] => some []
  | state, input :: inputs => do
      let (state, outputs) ← probe state input
      let later ← runRounds probe state inputs
      return outputs :: later

theorem runRounds_eq {probe : σ → ι → Option (σ × List ω)} {input : ρ → ι} {rows : ρ → List α}
    (inv : List (List α) → σ → Prop)
    (hprobe : ∀ earlier state round, inv earlier state → ∃ next outs,
      probe state (input round) = some (next, outs) ∧ inv (earlier ++ [rows round]) next ∧
        Prints (prints earlier) (select (rows round)) outs)
    (run : List ρ) {earlier : List (List α)} {state : σ} (hinv : inv earlier state) :
    ∃ outputs, runRounds probe state (run.map input) = some outputs ∧
      PrintsAll select (fun later => prints (earlier ++ later)) (run.map rows) outputs := by
  induction run generalizing earlier state with
  | nil => exact ⟨[], rfl, .nil⟩
  | cons round run ih =>
      obtain ⟨next, outs, hnext, hkept, hfirst⟩ := hprobe earlier state round hinv
      obtain ⟨outputs, hrun, hprints⟩ := ih hkept
      have hearlier : (fun later => prints (earlier ++ [rows round] ++ later)) =
          fun later => prints (earlier ++ rows round :: later) := by
        funext later
        rw [List.append_assoc, List.singleton_append]
      rw [hearlier] at hprints
      rw [← List.append_nil earlier] at hfirst
      refine ⟨_, ?_, PrintsAll.cons hfirst hprints⟩
      rw [List.map_cons, runRounds, hnext, Option.bind_eq_bind, Option.bind_some]
      simp only [hrun]
      rfl

end Run

theorem PrintsAll.exists_outs (h : PrintsAll select prints shown outputs) {r : ℕ} {rows : List α}
    (hrows : shown[r]? = some rows) : ∃ outs, outputs[r]? = some outs := by
  have hr : r < shown.length := (List.getElem?_eq_some_iff.mp hrows).1
  exact ⟨_, List.getElem?_eq_getElem (by rw [h.length]; exact hr)⟩

theorem own_iff (h : PrintsAll select prints shown outputs)
    (hname : ∀ earlier place item out, prints earlier place item out → name out = key item)
    (hown : ∀ earlier place item out prev, prints earlier place item out →
      (own prev item out ↔ fits earlier place item prev))
    (hselect : ∀ rows, (select rows).Sublist rows)
    (hkeys : ∀ rows ∈ shown, (rows.map key).Nodup) :
    Own key name own shown outputs ↔ Fits key select fits shown := by
  constructor
  · intro hall r rows hrows place row hrow prev hprev
    obtain ⟨outs, houts⟩ := h.exists_outs hrows
    have hprints := h.round r rows outs hrows houts
    have hplace : place < outs.length := by
      rw [hprints.length]
      exact (List.getElem?_eq_some_iff.mp hrow).1
    have hout := hprints.out place row _ hrow (List.getElem?_eq_getElem hplace)
    exact (hown _ _ _ _ prev hout).mp
      (hall r rows outs hrows houts row ((hselect rows).subset (List.mem_of_getElem? hrow)) _
        (List.getElem_mem hplace) (hname _ _ _ _ hout) prev hprev)
  · intro hall r rows outs hrows houts row hrow out hout hsame prev hprev
    have hprints := h.round r rows outs hrows houts
    obtain ⟨place, hplace⟩ := List.getElem?_of_mem hout
    have hlt : place < (select rows).length := by
      rw [← hprints.length]
      exact (List.getElem?_eq_some_iff.mp hplace).1
    have hitem := List.getElem?_eq_getElem hlt
    have hprint := hprints.out place _ out hitem hplace
    have hkey : key ((select rows)[place]) = key row := by
      rw [← hname _ _ _ _ hprint, hsame]
    have heq : (select rows)[place] = row :=
      List.inj_on_of_nodup_map (hkeys rows (List.mem_of_getElem? hrows))
        ((hselect rows).subset (List.getElem_mem hlt)) hrow hkey
    rw [heq] at hprint hitem
    exact (hown _ _ _ _ prev hprint).mpr (hall r rows hrows place row hitem prev hprev)

theorem oncePerRound_iff (h : PrintsAll select prints shown outputs)
    (hname : ∀ earlier place item out, prints earlier place item out → name out = key item)
    (hselect : ∀ rows, (select rows).Sublist rows)
    (hkeys : ∀ rows ∈ shown, (rows.map key).Nodup) :
    OncePerRound key name shown outputs ↔ ∀ rows ∈ shown, ∀ row ∈ rows, row ∈ select rows := by
  have hcount : ∀ rows ∈ shown, ∀ row ∈ rows,
      (((select rows).map key).count (key row) = 1 ↔ row ∈ select rows) := by
    intro rows hrows row hrow
    have hnodup : ((select rows).map key).Nodup :=
      (hkeys rows hrows).sublist ((hselect rows).map key)
    have hmem : key row ∈ (select rows).map key ↔ row ∈ select rows := by
      constructor
      · intro hkey
        obtain ⟨other, hother, hsame⟩ := List.mem_map.mp hkey
        have heq := List.inj_on_of_nodup_map (hkeys rows hrows) ((hselect rows).subset hother) hrow
          hsame
        rwa [← heq]
      · exact fun hrow => List.mem_map_of_mem hrow
    rw [hnodup.count, ← hmem]
    split_ifs with h <;> simp [h]
  constructor
  · intro hall rows hrows row hrow
    obtain ⟨r, hr⟩ := List.getElem?_of_mem hrows
    obtain ⟨outs, houts⟩ := h.exists_outs hr
    have hone := hall r rows outs hr houts row hrow
    rw [(h.round r rows outs hr houts).map_name (hname _)] at hone
    exact (hcount rows hrows row hrow).mp hone
  · intro hall r rows outs hr houts row hrow
    have hrows := List.mem_of_getElem? hr
    rw [(h.round r rows outs hr houts).map_name (hname _)]
    exact (hcount rows hrows row hrow).mpr (hall rows hrows row hrow)

end Rounds

end Gopher.Lib.Places
