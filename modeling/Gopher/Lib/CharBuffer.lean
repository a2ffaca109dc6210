import Gopher.Lib.Text
import Mathlib.Data.List.TakeWhile
import Mathlib.Tactic.SplitIfs

namespace Gopher.Lib

-- An array of characters; its length is the room there is.
abbrev CharBuffer := List Char

namespace CharBuffer

-- `none` is a write behind the end.
def put (buffer : CharBuffer) (start : ℕ) (text : Text) : Option CharBuffer :=
  if buffer.length < start + text.length then none
  else some (buffer.take start ++ text ++ buffer.drop (start + text.length))

-- `vsnprintf` into `size` characters: what fits and a NUL. It returns the length of the text.
def vsnprintf (buffer : CharBuffer) (start size : ℕ) (text : Text) : Option CharBuffer :=
  if size = 0 then some buffer else buffer.put start (truncated size text ++ ['\x00'])

-- The string that starts at a place, `none` if it does not end inside the buffer.
def cString (buffer : CharBuffer) (start : ℕ) : Option Text :=
  if '\x00' ∈ buffer.drop start then some ((buffer.drop start).takeWhile (· ≠ '\x00')) else none

-- The text stands in the buffer from `start` on, and nothing in front of it has changed.
structure Printed (before : CharBuffer) (start : ℕ) (text : Text) (after : CharBuffer) : Prop where
  length_eq : after.length = before.length
  take_eq : after.take (start + text.length) = before.take start ++ text

-- The text ends with a NUL. Where there is none, nothing was written.
structure Ended (before : CharBuffer) (start : ℕ) (text : Text) (after : CharBuffer) : Prop where
  of_nil : text = [] → after = before
  printed : text ≠ [] → Printed before start (text ++ ['\x00']) after

variable {before middle after : CharBuffer} {start size : ℕ} {text rest : Text}

theorem Printed.refl (before : CharBuffer) (start : ℕ) : Printed before start [] before :=
  ⟨rfl, by rw [List.length_nil, Nat.add_zero, List.append_nil]⟩

theorem Printed.append (hfirst : Printed before start text middle)
    (hsecond : Printed middle (start + text.length) rest after) :
    Printed before start (text ++ rest) after := by
  refine ⟨hsecond.length_eq.trans hfirst.length_eq, ?_⟩
  rw [List.length_append, ← Nat.add_assoc, hsecond.take_eq, hfirst.take_eq, List.append_assoc]

theorem Printed.left (hstart : start ≤ before.length)
    (h : Printed before start (text ++ rest) after) : Printed before start text after := by
  refine ⟨h.length_eq, ?_⟩
  have htake := congrArg (List.take (start + text.length)) h.take_eq
  rw [List.take_take, List.length_append, min_eq_left (by omega), ← List.append_assoc,
    List.take_left' (by rw [List.length_append, List.length_take]; omega)] at htake
  exact htake

theorem Printed.eq_append (h : Printed before start text after) :
    after = before.take start ++ text ++ after.drop (start + text.length) := by
  rw [← h.take_eq, List.take_append_drop]

theorem Printed.of_eq_append (hstart : start ≤ before.length) (hlength : after.length = before.length)
    (h : after = before.take start ++ text ++ rest) : Printed before start text after := by
  have hfront : (before.take start ++ text).length = start + text.length := by
    rw [List.length_append, List.length_take]
    omega
  exact ⟨hlength, by rw [h, List.take_left' hfront]⟩

theorem Printed.of_put (hroom : start + text.length ≤ before.length) :
    ∃ after, before.put start text = some after ∧ Printed before start text after := by
  have hfront : (before.take start ++ text).length = start + text.length := by
    rw [List.length_append, List.length_take]
    omega
  refine ⟨_, if_neg (by omega), ?_, ?_⟩
  · rw [List.length_append, hfront, List.length_drop]
    omega
  · rw [List.take_left' hfront]

-- The string that was printed is the string that is read.
theorem Printed.cString (hstart : start ≤ before.length) (htext : '\x00' ∉ text)
    (h : Printed before start (text ++ ['\x00']) after) : after.cString start = some text := by
  have hsplit := List.take_append_drop (start + (text ++ ['\x00']).length) after
  rw [h.take_eq, List.append_assoc] at hsplit
  have hdrop : after.drop start = text ++ '\x00' ::
      after.drop (start + (text ++ ['\x00']).length) := by
    have hbehind := congrArg (List.drop start) hsplit
    rw [List.drop_left' (by rw [List.length_take]; omega), List.append_assoc] at hbehind
    exact hbehind.symm
  rw [CharBuffer.cString, hdrop, if_pos (by simp), List.takeWhile_append_of_pos]
  · simp
  · intro char hchar
    exact decide_eq_true fun hnul => htext (hnul ▸ hchar)

theorem Ended.refl (before : CharBuffer) (start : ℕ) : Ended before start [] before :=
  ⟨fun _ => rfl, fun hne => absurd rfl hne⟩

-- The second text takes the place of the NUL behind the first.
theorem Ended.append (hstart : start ≤ before.length) (hfirst : Ended before start text middle)
    (hsecond : Ended middle (start + text.length) rest after) :
    Ended before start (text ++ rest) after := by
  by_cases htext : text = []
  · subst htext
    rwa [hfirst.of_nil rfl] at hsecond
  by_cases hrest : rest = []
  · subst hrest
    rwa [hsecond.of_nil rfl, List.append_nil]
  refine ⟨fun hnil => absurd (List.append_eq_nil_iff.mp hnil).1 htext, fun _ => ?_⟩
  rw [List.append_assoc]
  exact ((hfirst.printed htext).left hstart).append (hsecond.printed hrest)

-- With room for `size` characters nothing is written behind them.
theorem Printed.of_vsnprintf (hroom : start + size ≤ before.length) (text : Text) :
    ∃ after, before.vsnprintf start size text = some after ∧
      Printed before start (truncated size text) after ∧
      (text.length < size → Printed before start (text ++ ['\x00']) after) := by
  unfold vsnprintf
  by_cases hzero : size = 0
  · refine ⟨before, if_pos hzero, ?_, fun hlt => absurd hlt (by omega)⟩
    rw [hzero, truncated, Nat.zero_sub, List.take_zero]
    exact .refl before start
  · rw [if_neg hzero]
    have hlength : (truncated size text ++ ['\x00']).length ≤ size := by
      rw [List.length_append, truncated, List.length_take, List.length_singleton]
      omega
    obtain ⟨after, hput, hprinted⟩ := Printed.of_put
      (show start + (truncated size text ++ ['\x00']).length ≤ before.length by omega)
    refine ⟨after, hput, hprinted.left (by omega), fun hlt => ?_⟩
    rw [truncated, List.take_of_length_le (by omega)] at hprinted
    exact hprinted

end CharBuffer

end Gopher.Lib
