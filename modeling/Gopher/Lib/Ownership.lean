import Mathlib.Logic.Function.Basic
import Mathlib.Tactic.SplitIfs

-- Slots that own what they point to.

namespace Gopher.Lib

variable {σ π ν : Type*}

-- What a slot points to is in use, and no two slots point to the same place.
structure Separate (slots : σ → Option π) (heap : π → Option ν) : Prop where
  used : ∀ slot ptr, slots slot = some ptr → (heap ptr).isSome
  apart : ∀ slot other ptr, slots slot = some ptr → slots other = some ptr → slot = other

-- `free`, which does nothing for NULL.
def free [DecidableEq π] (held : Option π) (heap : π → Option ν) : π → Option ν :=
  match held with
  | none => heap
  | some ptr => Function.update heap ptr none

namespace Separate

variable {slots after : σ → Option π} {heap : π → Option ν} {ptr : π}

theorem of_none (h : ∀ slot, slots slot = none) : Separate slots heap where
  used slot ptr hslot := by
    rw [h] at hslot
    cases hslot
  apart slot other ptr hslot := by
    rw [h] at hslot
    cases hslot

-- Pointers go from slot to slot, and some of them are lost.
theorem move (h : Separate slots heap) {source : σ → σ} (hsource : Function.Injective source)
    (hafter : ∀ slot ptr, after slot = some ptr → slots (source slot) = some ptr) :
    Separate after heap where
  used slot ptr hslot := h.used (source slot) ptr (hafter slot ptr hslot)
  apart slot other ptr hslot hother :=
    hsource (h.apart _ _ ptr (hafter slot ptr hslot) (hafter other ptr hother))

theorem clear [DecidableEq σ] (h : Separate slots heap) (slot : σ) :
    Separate (Function.update slots slot none) heap := by
  refine h.move Function.injective_id fun other ptr hother => ?_
  by_cases heq : other = slot
  · rw [heq, Function.update_self] at hother
    cases hother
  · rwa [Function.update_of_ne heq] at hother

-- Memory that is not in use is not pointed to.
theorem ne_of_unused (h : Separate slots heap) (hptr : heap ptr = none) (slot : σ) :
    slots slot ≠ some ptr := by
  intro hslot
  have := h.used slot ptr hslot
  rw [hptr] at this
  cases this

-- A slot takes a pointer that no other slot has.
theorem fill [DecidableEq σ] (h : Separate slots heap) (slot : σ) (hused : (heap ptr).isSome)
    (hptr : ∀ other, slots other ≠ some ptr) :
    Separate (Function.update slots slot (some ptr)) heap where
  used other found hother := by
    by_cases heq : other = slot
    · rw [heq, Function.update_self] at hother
      cases hother
      exact hused
    · rw [Function.update_of_ne heq] at hother
      exact h.used other found hother
  apart first second found hfirst hsecond := by
    by_cases hfirstEq : first = slot
    · rw [hfirstEq, Function.update_self] at hfirst
      cases hfirst
      by_cases hsecondEq : second = slot
      · exact hfirstEq.trans hsecondEq.symm
      · rw [Function.update_of_ne hsecondEq] at hsecond
        exact absurd hsecond (hptr second)
    · rw [Function.update_of_ne hfirstEq] at hfirst
      by_cases hsecondEq : second = slot
      · rw [hsecondEq, Function.update_self] at hsecond
        cases hsecond
        exact absurd hfirst (hptr first)
      · rw [Function.update_of_ne hsecondEq] at hsecond
        exact h.apart first second found hfirst hsecond

variable [DecidableEq π]

-- `malloc`, with what is then stored.
theorem alloc (h : Separate slots heap) (ptr : π) (value : ν) :
    Separate slots (Function.update heap ptr (some value)) where
  used slot found hslot := by
    by_cases heq : found = ptr
    · rw [heq, Function.update_self]
      rfl
    · rw [Function.update_of_ne heq]
      exact h.used slot found hslot
  apart := h.apart

theorem free_of_ne {held : Option π} (hne : held ≠ some ptr) : free held heap ptr = heap ptr := by
  cases held with
  | none => rfl
  | some other => exact Function.update_of_ne (fun heq => hne (congrArg some heq.symm)) _ _

-- What a slot points to is freed, and the slot becomes NULL.
theorem release [DecidableEq σ] (h : Separate slots heap) (slot : σ) :
    Separate (Function.update slots slot none) (free (slots slot) heap) where
  used other found hother := by
    by_cases heq : other = slot
    · rw [heq, Function.update_self] at hother
      cases hother
    · rw [Function.update_of_ne heq] at hother
      rw [free_of_ne fun hslot => heq (h.apart other slot found hother hslot)]
      exact h.used other found hother
  apart := (h.clear slot).apart

end Separate

end Gopher.Lib
