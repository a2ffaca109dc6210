import Mathlib.Data.List.GetD
import Mathlib.Tactic.SplitIfs

namespace Gopher.Lib

-- Byte-addressed memory, little-endian.
abbrev Memory := ℕ → UInt8

namespace Memory

def write (memory : Memory) (address : ℕ) (bytes : List UInt8) : Memory :=
  fun i => if address ≤ i then bytes.getD (i - address) (memory i) else memory i

def bytes (memory : Memory) (address len : ℕ) : List UInt8 :=
  (List.range len).map fun i => memory (address + i)

def readU16 (memory : Memory) (address : ℕ) : ℕ :=
  (memory address).toNat + 256 * (memory (address + 1)).toNat

def readU32 (memory : Memory) (address : ℕ) : UInt32 :=
  UInt32.ofNat (readU16 memory address + 65536 * readU16 memory (address + 2))

def encodeU16 (n : ℕ) : List UInt8 :=
  [UInt8.ofNat n, UInt8.ofNat (n / 256)]

def encodeU32 (n : UInt32) : List UInt8 :=
  encodeU16 n.toNat ++ encodeU16 (n.toNat / 65536)

@[simp] theorem length_encodeU16 (n : ℕ) : (encodeU16 n).length = 2 := rfl

@[simp] theorem length_encodeU32 (n : UInt32) : (encodeU32 n).length = 4 := rfl

@[simp] theorem length_bytes (memory : Memory) (address len : ℕ) :
    (memory.bytes address len).length = len := by
  simp [bytes]

-- The memory holds `content` from `address` on.
def Holds (memory : Memory) (address : ℕ) (content : List UInt8) : Prop :=
  ∀ i (hi : i < content.length), memory (address + i) = content[i]

theorem holds_append {memory : Memory} {address : ℕ} {first second : List UInt8} :
    memory.Holds address (first ++ second) ↔
      memory.Holds address first ∧ memory.Holds (address + first.length) second := by
  constructor
  · intro h
    refine ⟨fun i hi => ?_, fun i hi => ?_⟩
    · have := h i (by simp; omega)
      rwa [List.getElem_append_left hi] at this
    · have := h (first.length + i) (by simpa using hi)
      rw [List.getElem_append_right (by omega)] at this
      simpa [Nat.add_assoc] using this
  · rintro ⟨hfirst, hsecond⟩ i hi
    by_cases hlt : i < first.length
    · rw [List.getElem_append_left hlt]
      exact hfirst i hlt
    · have := hsecond (i - first.length) (by simp at hi; omega)
      rw [List.getElem_append_right (by omega), ← this]
      congr 1
      omega

theorem bytes_of_holds {memory : Memory} {address : ℕ} {content : List UInt8}
    (h : memory.Holds address content) : memory.bytes address content.length = content := by
  apply List.ext_getElem (by simp)
  intro i _ hi
  simpa [bytes] using h i hi

theorem readU16_of_holds {memory : Memory} {address n : ℕ}
    (h : memory.Holds address (encodeU16 n)) : memory.readU16 address = n % 65536 := by
  have hlow := h 0 (by simp)
  have hhigh := h 1 (by simp)
  simp only [encodeU16, Nat.add_zero, List.getElem_cons_zero, List.getElem_cons_succ] at hlow hhigh
  simp only [readU16, hlow, hhigh, UInt8.toNat_ofNat']
  omega

theorem readU32_of_holds {memory : Memory} {address : ℕ} {n : UInt32}
    (h : memory.Holds address (encodeU32 n)) : memory.readU32 address = n := by
  rw [encodeU32, holds_append, length_encodeU16] at h
  rw [readU32, readU16_of_holds h.1, readU16_of_holds h.2]
  have hlt := n.toNat_lt
  apply UInt32.toNat_inj.mp
  rw [UInt32.toNat_ofNat_of_lt']
  · omega
  · have : UInt32.size = 4294967296 := rfl
    omega

theorem write_holds (memory : Memory) (address : ℕ) (content : List UInt8) :
    (memory.write address content).Holds address content := by
  intro i hi
  simp [write, hi]

theorem write_of_outside (memory : Memory) {address i : ℕ} {content : List UInt8}
    (h : i < address ∨ address + content.length ≤ i) :
    memory.write address content i = memory i := by
  unfold write
  split_ifs with hle
  · exact List.getD_eq_default _ _ (by omega)
  · rfl

@[simp] theorem write_nil (memory : Memory) (address : ℕ) : memory.write address [] = memory := by
  funext i
  exact write_of_outside memory (by simp only [List.length_nil]; omega)

theorem write_append (memory : Memory) (address : ℕ) (first second : List UInt8) :
    (memory.write address first).write (address + first.length) second =
      memory.write address (first ++ second) := by
  funext i
  by_cases hbefore : i < address + first.length
  · rw [write_of_outside _ (.inl hbefore)]
    unfold write
    split_ifs with hle
    · rw [List.getD_append _ _ _ _ (by omega)]
    · rfl
  · unfold write
    simp only [show address + first.length ≤ i by omega, show address ≤ i by omega, ite_true]
    rw [List.getD_append_right _ _ _ _ (by omega)]
    congr 1
    · omega
    · exact List.getD_eq_default _ _ (by omega)

theorem write_comm (memory : Memory) {first second : ℕ} {content other : List UInt8}
    (h : first + content.length ≤ second) :
    (memory.write second other).write first content =
      (memory.write first content).write second other := by
  funext i
  by_cases hi : i < second
  · rw [write_of_outside _ (.inl hi)]
    unfold write
    simp only [show ¬second ≤ i by omega, ite_false]
  · rw [write_of_outside _ (.inr (show first + content.length ≤ i by omega))]
    unfold write
    simp only [show second ≤ i by omega, show first ≤ i by omega, ite_true]
    rw [List.getD_eq_default content _ (by omega)]

theorem holds_congr {memory other : Memory} {address : ℕ} {content : List UInt8}
    (heq : ∀ i, i < address + content.length → memory i = other i)
    (h : memory.Holds address content) : other.Holds address content := by
  intro i hi
  rw [← heq (address + i) (by omega)]
  exact h i hi

end Memory

end Gopher.Lib
