import Mathlib.Data.Nat.Notation
import Mathlib.Tactic.SplitIfs

namespace Gopher.Lib

variable {σ τ α β : Type}

-- A position in a buffer, with the bytes from there to the end.
structure BufPtr where
  pos : ℕ
  rest : List UInt8
  deriving DecidableEq, Repr

namespace BufPtr

def skip (count : ℕ) (buf : BufPtr) : BufPtr := ⟨buf.pos + count, buf.rest.drop count⟩

-- The same position when the buffer goes on.
def extend (more : List UInt8) (buf : BufPtr) : BufPtr := ⟨buf.pos, buf.rest ++ more⟩

end BufPtr

-- Why a scanner stops: the bytes cannot be accepted, or they end too early.
inductive Stop
  | malformed
  | incomplete
  deriving DecidableEq, Repr

-- A scanner with a record that it fills. What it has written stays when it stops.
def Scan (σ α : Type) := σ → BufPtr → σ × Except Stop (α × BufPtr)

namespace Scan

def pure (value : α) : Scan σ α := fun state buf => (state, .ok (value, buf))

def bind (scan : Scan σ α) (next : α → Scan σ β) : Scan σ β := fun state buf =>
  match scan state buf with
  | (state, .error stop) => (state, .error stop)
  | (state, .ok (value, buf)) => next value state buf

instance : Monad (Scan σ) where
  pure := Scan.pure
  bind := Scan.bind

def modify (update : σ → σ) : Scan σ Unit := fun state buf => (update state, .ok ((), buf))

def fail (stop : Stop) : Scan σ α := fun state _ => (state, .error stop)

def get : Scan σ σ := fun state buf => (state, .ok (state, buf))

-- A scanner that fills nothing.
def bytes (scan : BufPtr → Except Stop (α × BufPtr)) : Scan σ α := fun state buf =>
  (state, scan buf)

-- A scanner of a part of the record.
def focus (part : σ → τ) (update : σ → τ → σ) (scan : Scan τ α) : Scan σ α := fun state buf =>
  let (inner, result) := scan (part state) buf
  (update state inner, result)

-- A scanner that has decided does not change its mind when more bytes come.
def Incremental (scan : Scan σ α) : Prop :=
  ∀ state buf more, (scan state buf).2 ≠ .error .incomplete →
    scan state (buf.extend more) =
      ((scan state buf).1, (scan state buf).2.map (Prod.map id (BufPtr.extend more)))

-- It takes these bytes, whatever comes behind them, and gives this value.
def Reads (scan : Scan σ α) (state : σ) (pos : ℕ) (text rest : List UInt8) (value : α)
    (after : σ) : Prop :=
  scan state ⟨pos, text ++ rest⟩ = (after, .ok (value, ⟨pos + text.length, rest⟩))

section Incremental

variable {scan : Scan σ α} {next : α → Scan σ β}

theorem Incremental.pure (value : α) : Incremental (Pure.pure value : Scan σ α) :=
  fun _ _ _ _ => rfl

theorem Incremental.modify (update : σ → σ) : Incremental (Scan.modify update) :=
  fun _ _ _ _ => rfl

theorem Incremental.fail (stop : Stop) : Incremental (Scan.fail stop : Scan σ α) :=
  fun _ _ _ _ => rfl

theorem Incremental.get : Incremental (Scan.get : Scan σ σ) :=
  fun _ _ _ _ => rfl

theorem Incremental.bind (hscan : Incremental scan) (hnext : ∀ value, Incremental (next value)) :
    Incremental (scan >>= next) := by
  intro state buf more h
  have hfirst := hscan state buf more
  change (Scan.bind scan next state buf).2 ≠ _ at h
  change Scan.bind scan next state (buf.extend more) = ((Scan.bind scan next state buf).1,
    (Scan.bind scan next state buf).2.map _)
  unfold Scan.bind at h ⊢
  generalize scan state buf = result at hfirst h ⊢
  obtain ⟨after, stop | ⟨value, buf'⟩⟩ := result
  · have hstop : stop ≠ .incomplete := fun heq => h (congrArg Except.error heq)
    rw [hfirst fun heq => hstop (Except.error.inj heq)]
    rfl
  · rw [hfirst fun heq => by cases heq]
    exact hnext value after buf' more h

theorem Incremental.ite {condition : Prop} [Decidable condition] {other : Scan σ α}
    (hscan : Incremental scan) (hother : Incremental other) :
    Incremental (if condition then scan else other) := by
  split_ifs
  · exact hscan
  · exact hother

theorem Incremental.focus {part : σ → τ} {update : σ → τ → σ} {inner : Scan τ α}
    (h : Incremental inner) : Incremental (Scan.focus part update inner) := by
  intro state buf more hne
  have hinner := h (part state) buf more hne
  unfold Scan.focus
  rw [hinner]

-- For a scanner that fills nothing it is enough to look at the bytes.
theorem Incremental.bytes {scan : BufPtr → Except Stop (α × BufPtr)}
    (h : ∀ buf more, scan buf ≠ .error .incomplete →
      scan (buf.extend more) = (scan buf).map (Prod.map id (BufPtr.extend more))) :
    Incremental (Scan.bytes scan : Scan σ α) :=
  fun state buf more hne => congrArg (Prod.mk state) (h buf more hne)

end Incremental

section Reads

variable {scan : Scan σ α} {next : α → Scan σ β} {state middle after : σ} {pos : ℕ}
  {text text' rest : List UInt8} {value : α} {value' : β}

theorem Reads.pure (value : α) : Reads (Pure.pure value) state pos [] rest value state := rfl

theorem Reads.get : Reads Scan.get state pos [] rest state state := rfl

theorem Reads.modify (update : σ → σ) :
    Reads (Scan.modify update) state pos [] rest () (update state) := rfl

theorem Reads.bind (hscan : Reads scan state pos text (text' ++ rest) value middle)
    (hnext : Reads (next value) middle (pos + text.length) text' rest value' after) :
    Reads (scan >>= next) state pos (text ++ text') rest value' after := by
  change Scan.bind scan next state _ = _
  unfold Reads at hscan hnext
  unfold Scan.bind
  rw [List.append_assoc, hscan]
  dsimp only
  rw [hnext, List.length_append, Nat.add_assoc]

theorem Reads.focus {part : σ → τ} {update : σ → τ → σ} {inner : Scan τ α} {filled : τ}
    (h : Reads inner (part state) pos text rest value filled) :
    Reads (Scan.focus part update inner) state pos text rest value (update state filled) := by
  unfold Reads Scan.focus
  rw [h]

theorem Reads.of_eq {pos' : ℕ} {after' : σ} (h : Reads scan state pos text rest value after)
    (hpos : pos' = pos) (hafter : after' = after) :
    Reads scan state pos' text rest value after' := by
  rw [hpos, hafter]
  exact h

end Reads

end Scan

section ScanUntil

-- The bytes in front of the first one to stop at. All of them have to be legal.
def scanUntil (stop legal : UInt8 → Bool) : ℕ → List UInt8 → Except Stop (List UInt8 × BufPtr)
  | _, [] => .error .incomplete
  | pos, byte :: rest =>
      if stop byte then .ok ([], ⟨pos, byte :: rest⟩)
      else if legal byte then
        (scanUntil stop legal (pos + 1) rest).map (Prod.map (byte :: ·) id)
      else .error .malformed

variable {stop legal : UInt8 → Bool} {pos : ℕ} {taken rest : List UInt8} {byte : UInt8}

-- Bytes that are passed over may be passed over beforehand.
theorem scanUntil_append (hstop : ∀ byte ∈ taken, stop byte = false)
    (hlegal : ∀ byte ∈ taken, legal byte = true) :
    scanUntil stop legal pos (taken ++ rest) =
      (scanUntil stop legal (pos + taken.length) rest).map (Prod.map (taken ++ ·) id) := by
  induction taken generalizing pos with
  | nil =>
      rw [List.nil_append]
      cases scanUntil stop legal pos rest with
      | error stop => rfl
      | ok found => rfl
  | cons byte taken ih =>
      obtain ⟨hbyte, hstop⟩ := List.forall_mem_cons.mp hstop
      obtain ⟨hbyte', hlegal⟩ := List.forall_mem_cons.mp hlegal
      have hlen : pos + 1 + taken.length = pos + (byte :: taken).length := by
        simp only [List.length_cons]
        omega
      rw [List.cons_append, scanUntil, hbyte, hbyte', ih hstop hlegal, hlen]
      cases scanUntil stop legal (pos + (byte :: taken).length) rest with
      | error stop => rfl
      | ok found => rfl

theorem scanUntil_stop (h : stop byte = true) :
    scanUntil stop legal pos (byte :: rest) = .ok ([], ⟨pos, byte :: rest⟩) := by
  rw [scanUntil, h, if_pos rfl]

theorem scanUntil_extend (more : List UInt8)
    (h : scanUntil stop legal pos rest ≠ .error .incomplete) :
    scanUntil stop legal pos (rest ++ more) =
      (scanUntil stop legal pos rest).map (Prod.map id (BufPtr.extend more)) := by
  induction rest generalizing pos with
  | nil => exact absurd rfl h
  | cons byte rest ih =>
      rw [List.cons_append, scanUntil, scanUntil]
      rw [scanUntil] at h
      cases hstop : stop byte with
      | true => rfl
      | false =>
          cases hlegal : legal byte with
          | false => rfl
          | true =>
              rw [hstop, hlegal] at h
              have hrest : scanUntil stop legal (pos + 1) rest ≠ .error .incomplete := by
                intro heq
                rw [heq] at h
                exact h rfl
              have hmore := ih hrest
              simp only [Bool.false_eq_true, if_false, if_true, hmore]
              cases scanUntil stop legal (pos + 1) rest with
              | error stop => rfl
              | ok found => rfl

end ScanUntil

end Gopher.Lib
