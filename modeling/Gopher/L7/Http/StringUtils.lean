import Gopher.L7.DataStream
import Mathlib.Algebra.Group.Nat.Defs

namespace Gopher.L7.Http

def INT_MAX : ℕ := 2147483647

-- What the language gives no meaning to: an access outside an object, and an `int` that
-- is counted over its greatest value.
inductive Fault
  | outside
  | overflow
  deriving DecidableEq, Repr

-- Functions on strings get the bytes of an object from a pointer on. The strings that are
-- searched for are literals, given by their bytes. A result of -1 is `none`.
abbrev Mem := List UInt8

def strlen (mem : Mem) : Except Fault ℕ :=
  match mem.findIdx? fun byte => byte == 0 with
  | none => .error .outside
  | some len => .ok len

-- Whether `strncmp` with the length of the second string gives 0.
def strncmpEq : Mem → List UInt8 → Except Fault Bool
  | _, [] => .ok true
  | [], _ :: _ => .error .outside
  | byte :: mem, byte' :: sub =>
      if byte ≠ byte' then .ok false
      else if byte = 0 then .ok true
      else strncmpEq mem sub

-- `strncpy` stops at the end of the string and fills up with zeros.
def substr (src : Mem) (startPos len : ℕ) : Except Fault Mem :=
  let copied := ((src.drop startPos).take len).takeWhile fun byte => byte != 0
  if copied.length < len ∧ (src.drop startPos).length ≤ copied.length then .error .outside
  else .ok (copied ++ List.replicate (len - copied.length) 0 ++ [0])

-- The loop of `find_str` over the string in front of its end.
def findStrLoop (text sub : List UInt8) (i : ℕ) : Except Fault (Option ℕ) :=
  if i + sub.length ≤ text.length then
    if sub.isPrefixOf (text.drop i) then .ok (some i)
    else if i = INT_MAX then .error .overflow
    else findStrLoop text sub (i + 1)
  else .ok none
termination_by text.length + 1 - i

-- The loop starts at an `int`. A negative one is compared as a `size_t`, beyond any length.
def findStr (str : Mem) (sub : List UInt8) (startPos : ℕ) : Except Fault (Option ℕ) := do
  let len ← strlen str
  let start := Int.bmod startPos (2 ^ 32)
  if len < sub.length ∨ start < 0 then return none
  else findStrLoop (str.take len) sub start.toNat

-- The loop of `rfind_str`, which counts upwards, over the bytes from its index on.
def rfindStrLoop (sub : List UInt8) : Mem → ℕ → Except Fault (Option ℕ)
  | [], i => if sub = [] then .ok (some i) else .error .outside
  | byte :: mem, i => do
      if ← strncmpEq (byte :: mem) sub then return some i
      else if i = INT_MAX then .error .overflow
      else rfindStrLoop sub mem (i + 1)

def rfindStr (str : Mem) (sub : List UInt8) : Except Fault (Option ℕ) := do
  let len ← strlen str
  let start := Int.bmod (len - sub.length : ℕ) (2 ^ 32)
  if len < sub.length ∨ start < 0 then return none
  else rfindStrLoop sub (str.drop start.toNat) start.toNat

-- The entries up to NULL, which is `none`.
def getArrayLen {α : Type} : List (Option α) → Except Fault ℕ
  | [] => .error .outside
  | none :: _ => .ok 0
  | some _ :: arr => (getArrayLen arr).map (· + 1)

section FindStr

theorem findStr_eq {str : Mem} {sub : List UInt8} {startPos len : ℕ}
    (hlen : strlen str = .ok len) :
    findStr str sub startPos =
      if len < sub.length ∨ Int.bmod startPos (2 ^ 32) < 0 then .ok none
      else findStrLoop (str.take len) sub (Int.bmod startPos (2 ^ 32)).toNat := by
  unfold findStr
  rw [hlen]
  rfl

-- A string lies in a text at a place.
def OccursAt (sub text : List UInt8) (pos : ℕ) : Prop := sub <+: text.drop pos

theorem OccursAt.le {sub text : List UInt8} {pos : ℕ} (h : OccursAt sub text pos)
    (hne : sub ≠ []) : pos + sub.length ≤ text.length := by
  have hlen := List.IsPrefix.length_le h
  have hpos : 0 < sub.length := List.length_pos_of_ne_nil hne
  rw [List.length_drop] at hlen
  omega

theorem findStrLoop_eq_none_iff {text sub : List UInt8} {i : ℕ} (hne : sub ≠ [])
    (hi : i ≤ INT_MAX) :
    findStrLoop text sub i = .ok none ↔
      (∀ pos, i ≤ pos → ¬OccursAt sub text pos) ∧
        (i + sub.length ≤ text.length → text.length < INT_MAX + sub.length) := by
  fun_induction findStrLoop text sub i with
  | case1 i hle hprefix =>
      have hoccurs : OccursAt sub text i := List.isPrefixOf_iff_prefix.mp hprefix
      constructor
      · intro h
        cases h
      · intro h
        exact absurd hoccurs (h.1 i (Nat.le_refl i))
  | case2 hle hprefix =>
      constructor
      · intro h
        cases h
      · intro h
        have hlt := h.2 hle
        omega
  | case3 i hle hprefix hmax ih =>
      have hmiss : ¬OccursAt sub text i := fun h => hprefix (List.isPrefixOf_iff_prefix.mpr h)
      rw [ih (by omega)]
      constructor
      · rintro ⟨hnone, hlt⟩
        refine ⟨fun pos hpos => ?_, fun _ => ?_⟩
        · rcases Nat.eq_or_lt_of_le hpos with rfl | hpos
          · exact hmiss
          · exact hnone pos hpos
        · by_cases hnext : i + 1 + sub.length ≤ text.length
          · exact hlt hnext
          · omega
      · rintro ⟨hnone, hlt⟩
        exact ⟨fun pos hpos => hnone pos (by omega), fun _ => hlt hle⟩
  | case4 i hle =>
      refine iff_of_true rfl ⟨fun pos hpos hoccurs => ?_, fun h => absurd h hle⟩
      have hend := hoccurs.le hne
      omega

end FindStr

end Gopher.L7.Http
