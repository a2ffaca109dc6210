import Gopher.Probe.Snooper.ConfArray

-- The array of a probe as the list of its configurations.

namespace Gopher.Probe.ConfArray

open Gopher.Lib Gopher.Ipc

variable {ι : Type*} {memory after : Memory ι} {id : ι} {confs : SnooperConfs}

-- The slots point to the configurations of the list, one after the other.
structure Holds (memory : Memory ι) (id : ι) (confs : SnooperConfs) : Prop where
  num : memory.num id = confs.length
  slots : ∀ i : Fin SNOOPER_MAX, (memory.slots (id, i)).bind memory.heap = confs[i.val]?
  packed : Packed memory id
  separate : Separate memory.slots memory.heap

-- `malloc` gives memory each time, or never.
def Malloc.Grants (malloc : Malloc) (granted : Bool) : Prop :=
  ∀ heap, (malloc.grant heap).isSome = granted

variable [DecidableEq ι] {malloc : Malloc} {granted : Bool}

theorem Added.holds {conf : SnooperConf} (h : Added id conf memory after)
    (hholds : Holds memory id confs) : Holds after id (confs ++ [conf]) := by
  have hgrown := h.grown
  obtain ⟨place, ptr, hplace, hunused, hslots, hnum, hheap⟩ := h.step
  have hnull : memory.slots (id, place) = none :=
    hholds.packed.above place (Nat.le_of_eq hplace.symm)
  rw [hnull] at hheap
  refine ⟨?_, fun i => ?_, hgrown.packed hholds.packed, hgrown.separate hholds.separate⟩
  · rw [hnum, Function.update_self, hholds.num, List.length_append, List.length_singleton]
  · have hlength := hholds.num
    rw [hslots, hheap]
    by_cases heq : i = place
    · have hi : i.val = confs.length := by
        rw [heq]
        omega
      rw [heq, Function.update_self, ← heq, hi, List.getElem?_concat_length]
      exact Function.update_self _ _ _
    · have hne : i.val ≠ confs.length := fun hi => heq (Fin.ext (by omega))
      have hsame : (confs ++ [conf])[i.val]? = confs[i.val]? := by
        rw [List.getElem?_append]
        split_ifs
        · rfl
        · rw [List.getElem?_eq_none (by rw [List.length_singleton]; omega),
            List.getElem?_eq_none (by omega)]
      rw [Function.update_of_ne fun hpair => heq (Prod.mk.inj hpair).2, hsame, ← hholds.slots i]
      cases hslot : memory.slots (id, i) with
      | none => rfl
      | some found =>
          refine Function.update_of_ne (fun hfound => ?_) _ _
          exact hholds.separate.ne_of_unused hunused (id, i) (hfound ▸ hslot)

-- A step on the array and one on the list end alike.
inductive Alike (id : ι) : Option (Memory ι) → Option SnooperConfs → Prop
  | refused : Alike id none none
  | accepted {memory : Memory ι} {confs : SnooperConfs} :
      Holds memory id confs → Alike id (some memory) (some confs)

theorem addSnooperConf_alike (hmalloc : malloc.Grants granted) (hholds : Holds memory id confs)
    (conf : Option SnooperConf) :
    Alike id (addSnooperConf malloc id conf memory)
      (if SNOOPER_MAX ≤ confs.length then none
      else match conf with
        | none => some confs
        | some conf => appendConf granted confs conf) := by
  have hnum : (memory.probes id).snooperConfNum = confs.length := hholds.num
  by_cases hroom : confs.length < SNOOPER_MAX
  · have hroom' : (memory.probes id).snooperConfNum < SNOOPER_MAX := by rwa [hnum]
    rw [if_neg (Nat.not_le.mpr hroom)]
    cases conf with
    | none =>
        have hadd : addSnooperConf malloc id none memory = some memory := dif_pos hroom'
        rw [hadd]
        exact .accepted hholds
    | some conf =>
        have hasked := hmalloc memory.heap
        cases hgrant : malloc.grant memory.heap with
        | none =>
            have hadd : addSnooperConf malloc id (some conf) memory = none := by
              rw [addSnooperConf]
              dsimp only
              rw [dif_pos hroom', hgrant]
            rw [hgrant] at hasked
            rw [hadd, ← hasked]
            exact .refused
        | some ptr =>
            obtain ⟨after, hadd⟩ : ∃ after,
                addSnooperConf malloc id (some conf) memory = some after := by
              rw [addSnooperConf]
              dsimp only
              rw [dif_pos hroom', hgrant]
              exact ⟨_, rfl⟩
            rw [hgrant] at hasked
            rw [hadd, ← hasked]
            obtain ⟨hnone, -⟩ | ⟨value, hvalue, hadded⟩ := addSnooperConf_cases hadd
            · cases hnone
            · cases hvalue
              exact .accepted (hadded.holds hholds)
  · have hadd : addSnooperConf malloc id conf memory = none := dif_neg (by rwa [hnum])
    rw [if_pos (Nat.le_of_not_lt hroom), hadd]
    exact .refused

theorem addEach_alike (hmalloc : malloc.Grants granted)
    (read : Json → Option (Option SnooperConf)) (objects : List Json)
    (hholds : Holds memory id confs) :
    Holds (addEach malloc id read objects memory).1 id
        (Probe.addEach (addRead granted read) objects confs).1 ∧
      (addEach malloc id read objects memory).2 =
        (Probe.addEach (addRead granted read) objects confs).2 := by
  induction objects generalizing memory confs with
  | nil => exact ⟨hholds, rfl⟩
  | cons object objects ih =>
      rw [addEach, Probe.addEach, addRead]
      cases read object with
      | none => exact ⟨hholds, rfl⟩
      | some conf =>
          have halike := addSnooperConf_alike hmalloc hholds conf
          rw [Option.bind_some, Option.bind_some]
          generalize addSnooperConf malloc id conf memory = result at halike ⊢
          generalize (if SNOOPER_MAX ≤ confs.length then none else _) = expected at halike ⊢
          cases halike with
          | refused => exact ⟨hholds, rfl⟩
          | accepted hafter => exact ih hafter

theorem parseSections_alike (hmalloc : malloc.Grants granted) (json : Json)
    (sections : List SnooperSection) (hholds : Holds memory id confs) :
    Holds (parseSections malloc id json sections memory).1 id
        (Probe.parseSections json (sections.map (·.entry granted)) confs).1 ∧
      (parseSections malloc id json sections memory).2 =
        (Probe.parseSections json (sections.map (·.entry granted)) confs).2 := by
  induction sections generalizing memory confs with
  | nil => exact ⟨hholds, rfl⟩
  | cons sect sections ih =>
      obtain ⟨hafter, hsame⟩ := addEach_alike hmalloc sect.read (sect.items json) hholds
      rw [List.map_cons, SnooperSection.entry, parseSections, Probe.parseSections, parseSection_eq]
      rcases hadd : addEach malloc id sect.read (sect.items json) memory with ⟨after, accepted⟩
      rcases hlist : Probe.addEach (addRead granted sect.read) (sect.items json) confs with
        ⟨added, expected⟩
      rw [hadd, hlist] at hafter hsame
      dsimp only at hsame
      subst hsame
      cases accepted with
      | false => exact ⟨hafter, rfl⟩
      | true => exact ih hafter

theorem holds_cleared (h : Inv memory) : Holds (cleared id memory) id [] where
  num := by
    rw [num_cleared, Function.update_self]
    rfl
  slots i := by
    rw [slots_cleared (h.tidy id), if_pos rfl]
    rfl
  packed := packed_cleared (h.tidy id)
  separate := separate_cleared h.separate

-- In every state of a run, a request leaves the configurations of the list in the array, and
-- reports what the list does.
theorem parseSnooper_refines (hmalloc : malloc.Grants granted) (h : Inv memory) (json : Json) :
    Holds (parseSnooper malloc id json memory).1 id (parseSnooperConfs granted json).1 ∧
      (parseSnooper malloc id json memory).2 = (parseSnooperConfs granted json).2 := by
  rw [parseSnooperConfs, snooperSections_eq]
  exact parseSections_alike hmalloc json SnooperSection.all (holds_cleared h)

end Gopher.Probe.ConfArray
