import Mathlib.Tactic.Common
import UsbGadget.Host

/-!
# Bits of words that were written

What each bit, and each low field, of a word is after `Word.set`, `Word.clear`, `Word.setLow` and
`Word.only`, and what follows for the two words that give a packet back to the engine
(`Controller.fetchedWord` and `Controller.filledWord`).
-/

namespace UsbGadget

namespace Word

theorem bit_eq_testBit (w : Word) (i : Nat) : w.bit i = w.toNat.testBit i := by
  rw [bit, Nat.testBit_eq_decide_div_mod_eq, Nat.shiftRight_eq_div_pow]
  rfl

theorem bit_eq_getLsbD (w : Word) (i : Nat) : w.bit i = w.toBitVec.getLsbD i :=
  bit_eq_testBit w i

theorem bit_ofNat (n i : Nat) : bit (.ofNat n) i = (decide (i < 32) && n.testBit i) := by
  rw [bit_eq_testBit, UInt32.toNat_ofNat', Nat.testBit_mod_two_pow]

@[simp] theorem bit_zero (i : Nat) : (0 : Word).bit i = false := by simp [bit_eq_testBit]

theorem bit_of_eq_zero {w : Word} (h : w = 0) (i : Nat) : w.bit i = false := by rw [h, bit_zero]

@[simp] theorem bit_only (i j : Nat) : (only i).bit j = (decide (j < 32) && decide (i = j)) := by
  rw [only, bit_ofNat, Nat.one_shiftLeft, Nat.testBit_two_pow]

/-- Adding the value of a bit that is clear sets that bit. -/
theorem toBitVec_add_bit {w : Word} {i : Nat} (h : w.bit i = false) :
    (UInt32.ofNat (w.toNat + (1 <<< i))).toBitVec = w.toBitVec ||| (only i).toBitVec := by
  -- no bit is set on both sides, so nothing is carried
  have hsum : UInt32.ofNat (w.toNat + (1 <<< i)) = w + only i := by
    apply UInt32.toNat_inj.1
    simp [only, UInt32.toNat_add]
  rw [hsum, UInt32.toBitVec_add]
  apply BitVec.add_eq_or_of_and_eq_zero
  apply BitVec.eq_of_getLsbD_eq
  intro j _
  have hj := bit_only i j
  rw [bit_eq_getLsbD] at hj h
  by_cases hij : i = j
  · subst hij
    simp [h]
  · simp [hj, hij]

@[simp] theorem bit_set (w : Word) (i j : Nat) :
    (w.set i).bit j = (w.bit j || (decide (j < 32) && decide (i = j))) := by
  by_cases h : w.bit i = true
  · rw [set, if_pos h]
    by_cases hij : i = j
    · subst hij
      simp [h]
    · simp [hij]
  · have hb := bit_only i j
    rw [set, if_neg h, bit_eq_getLsbD, toBitVec_add_bit (by simpa using h), BitVec.getLsbD_or,
      ← bit_eq_getLsbD, ← bit_eq_getLsbD, hb]

theorem bit_set_of_lt (w : Word) {i j : Nat} (hj : j < 32) :
    (w.set i).bit j = (w.bit j || j == i) := by
  rw [bit_set, decide_eq_true hj, Bool.true_and, beq_eq_decide, decide_eq_decide.2 eq_comm]

theorem toNat_clear {w : Word} {i : Nat} (h : w.bit i = true) :
    (w.clear i).toNat + (1 <<< i) = w.toNat := by
  have hle : 1 <<< i ≤ w.toNat := by
    rw [Nat.one_shiftLeft]
    exact Nat.ge_two_pow_of_testBit (by rwa [← bit_eq_testBit])
  rw [clear, if_pos h, UInt32.toNat_ofNat_of_lt' (Nat.lt_of_le_of_lt (Nat.sub_le _ _) w.toNat_lt),
    Nat.sub_add_cancel hle]

theorem bit_clear_self (w : Word) (i : Nat) : (w.clear i).bit i = false := by
  by_cases h : w.bit i = true
  · -- adding the bit's value to the cleared word flips the bit, and gives back the word
    have hsum := Nat.testBit_two_pow_add_eq (w.clear i).toNat i
    rw [Nat.add_comm, ← Nat.one_shiftLeft, toNat_clear h, ← bit_eq_testBit, ← bit_eq_testBit,
      h] at hsum
    simpa using hsum
  · simp [clear, h]

theorem set_clear {w : Word} {i : Nat} (h : w.bit i = true) : (w.clear i).set i = w := by
  rw [set, if_neg (by simp [bit_clear_self]), toNat_clear h, UInt32.ofNat_toNat]

@[simp] theorem bit_clear (w : Word) (i j : Nat) :
    (w.clear i).bit j = (w.bit j && !decide (i = j)) := by
  by_cases hij : i = j
  · subst hij
    simp [bit_clear_self]
  by_cases h : w.bit i = true
  · have hj := bit_set (w.clear i) i j
    rw [set_clear h] at hj
    simp [hj, hij]
  · simp [clear, h, hij]

/-! ### Low fields -/

theorem testBit_field_zero (w : Word) (width j : Nat) :
    (w.field 0 width).testBit j = (decide (j < width) && w.bit j) := by
  rw [field, Nat.shiftRight_zero, Nat.one_shiftLeft, Nat.testBit_mod_two_pow, bit_eq_testBit]

theorem field_zero_congr {v w : Word} {width : Nat} (h : ∀ j < width, v.bit j = w.bit j) :
    v.field 0 width = w.field 0 width := by
  apply Nat.eq_of_testBit_eq
  intro j
  rw [testBit_field_zero, testBit_field_zero]
  by_cases hj : j < width
  · rw [h j hj]
  · simp [hj]

theorem toNat_setLow (w : Word) (v : Nat) :
    (w.setLow 10 v).toNat = w.toNat - w.toNat % 1024 + v % 1024 := by
  have hlt := w.toNat_lt
  have hv := Nat.mod_lt v (show 0 < 1024 by decide)
  rw [setLow, UInt32.toNat_ofNat_of_lt'] <;> simp only [Nat.reduceShiftLeft]
  show _ < 4294967296
  omega

theorem field_setLow (w : Word) (v : Nat) : (w.setLow 10 v).field 0 10 = v % 1024 := by
  simp only [field, toNat_setLow, Nat.shiftRight_zero, Nat.reduceShiftLeft]
  omega

theorem bit_setLow (w : Word) (v : Nat) {i : Nat} (hi : 10 ≤ i) :
    (w.setLow 10 v).bit i = w.bit i := by
  have hhigh : (w.setLow 10 v).toNat >>> 10 = w.toNat >>> 10 := by
    rw [toNat_setLow]
    omega
  obtain ⟨k, rfl⟩ := Nat.exists_eq_add_of_le hi
  rw [bit, bit, Nat.shiftRight_add, Nat.shiftRight_add, hhigh]

end Word

/-! ### Packets that come back -/

namespace Controller

open BufferControl

@[simp] theorem bit_fetchedWord (w : Word) (i : Nat) :
    (fetchedWord w).bit i =
      (w.bit i && !decide (availableBit = i) && !decide (fullBit = i)) := by
  rw [fetchedWord, Word.bit_clear, Word.bit_clear]

/-- A filled buffer belongs to the engine, and its length is the packet's. -/
theorem ofWord_filledWord (w : Word) (length : Nat) :
    (ofWord (filledWord w length)).available = false ∧
      (ofWord (filledWord w length)).length = length % 1024 := by
  have hlen : (filledWord w length).field 0 lengthWidth = length % 1024 := by
    rw [← Word.field_setLow (w.clear availableBit) length, filledWord]
    apply Word.field_zero_congr
    intro j hj
    rw [lengthWidth] at hj
    rw [Word.bit_set, decide_eq_false (show ¬ fullBit = j by rw [fullBit]; omega)]
    simp [lengthWidth]
  have havail : (filledWord w length).bit availableBit = false := by
    rw [filledWord, Word.bit_set, lengthWidth, Word.bit_setLow _ _ (by decide), Word.bit_clear]
    simp [fullBit, availableBit]
  exact ⟨havail, hlen⟩

end Controller

end UsbGadget
