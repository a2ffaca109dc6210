import Gopher.Lib.CharBuffer

-- A text printed part by part into a buffer by operations that each look at the room left.

namespace Gopher.Lib

open CharBuffer

-- A place in a buffer, and the room there is from it on as the program counts it.
structure Dest where
  buffer : CharBuffer
  place : ℕ
  size : ℤ

structure Dest.HasRoom (dest : Dest) : Prop where
  size_nonneg : 0 ≤ dest.size
  inside : dest.place + dest.size ≤ dest.buffer.length

-- `none` is a write outside the buffer. The flag says whether the operation was done.
abbrev Fill := Dest → Option (Dest × Bool)

namespace Fill

def done : Fill := fun dest => some (dest, true)

def fail : Fill := fun dest => some (dest, false)

def andThen (first second : Fill) : Fill := fun dest => do
  let (dest, isDone) ← first dest
  if isDone then second dest else return (dest, false)

-- The program moves its place without printing.
def move (offset : ℤ) : Fill := fun dest =>
  some ({ dest with place := (dest.place + offset).toNat, size := dest.size - offset }, true)

-- `memcpy`, whatever room the program counts.
def store (text : Text) : Fill := fun dest => do
  let buffer ← dest.buffer.put dest.place text
  return (⟨buffer, dest.place + text.length, dest.size - text.length⟩, true)

-- `snprintf`, done if its result is less than the room. A negative room would be cast to a huge
-- one, which bounds nothing.
def snprintf (text : Text) : Fill := fun dest => do
  if dest.size < 0 then none
  let buffer ← dest.buffer.vsnprintf dest.place dest.size.toNat text
  if dest.size ≤ text.length then return ({ dest with buffer := buffer }, false)
  return (⟨buffer, dest.place + text.length, dest.size - text.length⟩, true)

-- The text stands at the place, with `mark` behind it, and the place has moved behind the text.
structure Moved (dest : Dest) (text mark : Text) (after : Dest) : Prop where
  printed : Printed dest.buffer dest.place (text ++ mark) after.buffer
  place_eq : after.place = dest.place + text.length
  size_eq : after.size = dest.size - text.length

-- The operation prints the text if there is room for it and `slack` more. `mark` is what it
-- leaves behind the text, such as the NUL of `snprintf`.
structure Stores (fill : Fill) (text mark : Text) (slack : ℕ) : Prop where
  fits : ∀ {dest : Dest}, dest.HasRoom → (text.length + slack : ℕ) ≤ dest.size →
    ∃ after, fill dest = some (after, true) ∧ Moved dest text mark after

-- Without that room it says so.
structure Prints (fill : Fill) (text mark : Text) (slack : ℕ) : Prop
    extends Stores fill text mark slack where
  cut : ∀ {dest : Dest}, dest.HasRoom → dest.size < (text.length + slack : ℕ) →
    ∃ after, fill dest = some (after, false) ∧ after.buffer.length = dest.buffer.length

variable {first second fill : Fill} {text rest mark behind : Text} {slack slackBehind : ℕ}

theorem Moved.hasRoom {dest after : Dest} (h : Moved dest text mark after) (hroom : dest.HasRoom)
    (hle : text.length ≤ dest.size) : after.HasRoom := by
  have hinside := hroom.inside
  refine ⟨?_, ?_⟩
  · rw [h.size_eq]
    omega
  · rw [h.place_eq, h.size_eq, h.printed.length_eq]
    omega

theorem Moved.trans {dest middle after : Dest} (hroom : dest.HasRoom)
    (hfirst : Moved dest text mark middle) (hsecond : Moved middle rest behind after) :
    Moved dest (text ++ rest) behind after := by
  have hstart : dest.place ≤ dest.buffer.length := by
    have hsize := hroom.size_nonneg
    have hinside := hroom.inside
    omega
  have hprinted := hsecond.printed
  rw [hfirst.place_eq] at hprinted
  refine ⟨?_, ?_, ?_⟩
  · rw [List.append_assoc]
    exact (hfirst.printed.left hstart).append hprinted
  · rw [hsecond.place_eq, hfirst.place_eq, List.length_append, Nat.add_assoc]
  · rw [hsecond.size_eq, hfirst.size_eq, List.length_append]
    omega

theorem Stores.mono (h : Stores fill text mark slack) {more : ℕ} (hle : slack ≤ more) :
    Stores fill text mark more := by
  constructor
  intro dest hroom hroomy
  exact h.fits hroom (by omega)

theorem Stores.andThen (hfirst : Stores first text mark slack)
    (hsecond : Stores second rest behind slackBehind)
    (hslack : slack ≤ rest.length + slackBehind) :
    Stores (first.andThen second) (text ++ rest) behind slackBehind := by
  constructor
  intro dest hroom hle
  rw [List.length_append] at hle
  obtain ⟨middle, hrun, hmiddle⟩ := hfirst.fits hroom (by omega)
  have hsize := hmiddle.size_eq
  obtain ⟨after, hrun', hafter⟩ := hsecond.fits (hmiddle.hasRoom hroom (by omega)) (by omega)
  refine ⟨after, ?_, hmiddle.trans hroom hafter⟩
  simp [Fill.andThen, hrun, hrun']

-- What the first operation has made sure of is enough for one that does not look.
theorem Prints.andThen_stores {more : ℕ} (hfirst : Prints first text mark (rest.length + more))
    (hsecond : Stores second rest behind slackBehind) (hle : slackBehind ≤ more) :
    Prints (first.andThen second) (text ++ rest) behind more := by
  have hlength : (text ++ rest).length + more = text.length + (rest.length + more) := by
    rw [List.length_append, Nat.add_assoc]
  constructor
  · constructor
    intro dest hroom hfits
    rw [hlength] at hfits
    obtain ⟨middle, hrun, hmiddle⟩ := hfirst.fits hroom hfits
    have hsize := hmiddle.size_eq
    obtain ⟨after, hrun', hafter⟩ := hsecond.fits (hmiddle.hasRoom hroom (by omega)) (by omega)
    refine ⟨after, ?_, hmiddle.trans hroom hafter⟩
    simp [Fill.andThen, hrun, hrun']
  · intro dest hroom hlt
    rw [hlength] at hlt
    obtain ⟨after, hrun, hlength⟩ := hfirst.cut hroom hlt
    refine ⟨after, ?_, hlength⟩
    simp [Fill.andThen, hrun]

theorem Prints.congr (h : Prints fill text mark slack) {other : Fill}
    (heq : ∀ dest, other dest = fill dest) : Prints other text mark slack := by
  rw [funext heq]
  exact h

-- What the first operation leaves free is enough for the second.
theorem Prints.andThen (hfirst : Prints first text mark slack)
    (hsecond : Prints second rest behind slackBehind)
    (hslack : slack ≤ rest.length + slackBehind) :
    Prints (first.andThen second) (text ++ rest) behind slackBehind := by
  refine ⟨hfirst.toStores.andThen hsecond.toStores hslack, ?_⟩
  intro dest hroom hlt
  rw [List.length_append] at hlt
  by_cases hle : (text.length + slack : ℕ) ≤ dest.size
  · obtain ⟨middle, hrun, hmiddle⟩ := hfirst.fits hroom hle
    have hsize := hmiddle.size_eq
    obtain ⟨after, hrun', hlength⟩ := hsecond.cut (hmiddle.hasRoom hroom (by omega)) (by omega)
    refine ⟨after, ?_, hlength.trans hmiddle.printed.length_eq⟩
    simp [Fill.andThen, hrun, hrun']
  · obtain ⟨after, hrun, hlength⟩ := hfirst.cut hroom (by omega)
    refine ⟨after, ?_, hlength⟩
    simp [Fill.andThen, hrun]

-- A check of the room in front of operations that do not look at it.
theorem Stores.prints_of_check (h : Stores fill text mark slack) {check : Dest → Prop}
    [DecidablePred check]
    (hcheck : ∀ dest, check dest ↔ dest.size < (text.length + slack : ℕ)) :
    Prints (fun dest => if check dest then fail dest else fill dest) text mark slack := by
  constructor
  · constructor
    intro dest hroom hle
    rw [if_neg (by rw [hcheck]; omega)]
    exact h.fits hroom hle
  · intro dest hroom hlt
    rw [if_pos ((hcheck dest).mpr hlt)]
    exact ⟨dest, rfl, rfl⟩

theorem prints_done : Prints done [] [] 0 := by
  constructor
  · constructor
    intro dest hroom _
    exact ⟨dest, rfl, .refl _ _, rfl, (Int.sub_zero _).symm⟩
  · intro dest hroom hlt
    have hsize := hroom.size_nonneg
    rw [List.length_nil] at hlt
    omega

theorem andThen_assoc (fill : Fill) :
    (first.andThen second).andThen fill = first.andThen (second.andThen fill) := by
  funext dest
  unfold Fill.andThen
  cases first dest with
  | none => rfl
  | some result =>
      obtain ⟨after, isDone⟩ := result
      cases isDone <;> rfl

theorem andThen_done (fill : Fill) : fill.andThen done = fill := by
  funext dest
  unfold Fill.andThen done
  cases fill dest with
  | none => rfl
  | some result =>
      obtain ⟨after, isDone⟩ := result
      cases isDone <;> rfl

-- The last character is taken back: it stands behind the text, and the next one goes over it.
theorem Prints.take_back {c : Char} (h : Prints fill (text ++ [c]) [] slack) :
    Prints (fill.andThen (move (-1))) text [c] (slack + 1) := by
  constructor
  · constructor
    intro dest hroom hle
    obtain ⟨after, hrun, hmoved⟩ := h.fits hroom
      (by rw [List.length_append, List.length_singleton]; omega)
    have hplace := hmoved.place_eq
    have hsize := hmoved.size_eq
    have hprinted := hmoved.printed
    rw [List.length_append, List.length_singleton] at hplace hsize
    rw [List.append_nil] at hprinted
    refine ⟨{ after with place := (after.place + (-1) : ℤ).toNat, size := after.size - (-1) }, ?_,
      hprinted, ?_, ?_⟩
    · simp [Fill.andThen, hrun, move]
    · dsimp only
      omega
    · dsimp only
      omega
  · intro dest hroom hlt
    obtain ⟨after, hrun, hlength⟩ := h.cut hroom
      (by rw [List.length_append, List.length_singleton]; omega)
    refine ⟨after, ?_, hlength⟩
    simp [Fill.andThen, hrun]

-- The operation says that it is not done, whatever room there is.
def Fails (fill : Fill) : Prop :=
  ∀ dest, dest.HasRoom →
    ∃ after, fill dest = some (after, false) ∧ after.buffer.length = dest.buffer.length

theorem fails_fail : Fails fail := fun dest _ => ⟨dest, rfl, rfl⟩

theorem Fails.andThen (h : Fails first) : Fails (first.andThen second) := by
  intro dest hroom
  obtain ⟨after, hrun, hlength⟩ := h dest hroom
  refine ⟨after, ?_, hlength⟩
  simp [Fill.andThen, hrun]

theorem Prints.andThen_fails (hfirst : Prints first text mark slack) (hsecond : Fails second) :
    Fails (first.andThen second) := by
  intro dest hroom
  by_cases hle : (text.length + slack : ℕ) ≤ dest.size
  · obtain ⟨middle, hrun, hmiddle⟩ := hfirst.fits hroom hle
    obtain ⟨after, hrun', hlength⟩ := hsecond middle (hmiddle.hasRoom hroom (by omega))
    refine ⟨after, ?_, hlength.trans hmiddle.printed.length_eq⟩
    simp [Fill.andThen, hrun, hrun']
  · obtain ⟨after, hrun, hlength⟩ := hfirst.cut hroom (by omega)
    refine ⟨after, ?_, hlength⟩
    simp [Fill.andThen, hrun]

theorem stores_store (text : Text) : Stores (store text) text [] 0 := by
  constructor
  intro dest hroom hle
  have hinside := hroom.inside
  obtain ⟨buffer, hput, hprinted⟩ := Printed.of_put
    (show dest.place + text.length ≤ dest.buffer.length by omega)
  refine ⟨⟨buffer, dest.place + text.length, dest.size - text.length⟩, ?_, ?_, rfl, rfl⟩
  · simp [store, hput]
  · rw [List.append_nil]
    exact hprinted

theorem prints_snprintf (text : Text) : Prints (snprintf text) text ['\x00'] 1 := by
  have hrun : ∀ {dest : Dest}, dest.HasRoom → ∃ buffer,
      dest.buffer.vsnprintf dest.place dest.size.toNat text = some buffer ∧
        buffer.length = dest.buffer.length ∧ (text.length < dest.size.toNat →
          Printed dest.buffer dest.place (text ++ ['\x00']) buffer) := by
    intro dest hroom
    have hsize := hroom.size_nonneg
    have hinside := hroom.inside
    obtain ⟨buffer, hbuffer, hcut, hwhole⟩ := Printed.of_vsnprintf
      (show dest.place + dest.size.toNat ≤ dest.buffer.length by omega) text
    exact ⟨buffer, hbuffer, hcut.length_eq, hwhole⟩
  constructor
  · constructor
    intro dest hroom hle
    obtain ⟨buffer, hbuffer, -, hwhole⟩ := hrun hroom
    refine ⟨⟨buffer, dest.place + text.length, dest.size - text.length⟩, ?_,
      hwhole (by omega), rfl, rfl⟩
    rw [snprintf, if_neg (by omega), hbuffer]
    simp only [Option.bind_eq_bind, Option.bind_some, pure]
    rw [if_neg (by omega)]
  · intro dest hroom hlt
    have hsize := hroom.size_nonneg
    obtain ⟨buffer, hbuffer, hlength, -⟩ := hrun hroom
    refine ⟨{ dest with buffer := buffer }, ?_, hlength⟩
    rw [snprintf, if_neg (by omega), hbuffer]
    simp only [Option.bind_eq_bind, Option.bind_some, pure]
    rw [if_pos (by omega)]

end Fill

end Gopher.Lib
