import UsbGadget.Word

/-!
# Plain byte memory

`Memory size` is a block of bytes. Every access is total: a read past the end gives 0 and a write
past the end is dropped, so what an access touches is exactly the part of it that is inside.
Words are little-endian.

Main statements: `byte_writeBytes` says what every byte is after a write, `Memory.ext_byte` that
the bytes are all there is, `readBytes_writeBytes` and `word_writeWord` that what was written is
read back, and `writeBytes_comm` that the order of writes to different places does not matter.
-/

namespace UsbGadget

/-- A block of `size` bytes. -/
structure Memory (size : Nat) where
  /-- The bytes, by offset. -/
  cells : Vector UInt8 size
deriving DecidableEq

namespace Memory

variable {size : Nat}

/-- Memory in which every byte is 0. -/
def zero : Memory size := ⟨Vector.replicate size 0⟩

/-- The byte at an offset; 0 past the end. -/
def byte (m : Memory size) (offset : Nat) : UInt8 := m.cells[offset]?.getD 0

/-- Replaces the byte at an offset; nothing happens past the end. -/
def writeByte (m : Memory size) (offset : Nat) (b : UInt8) : Memory size :=
  ⟨m.cells.setIfInBounds offset b⟩

/-- Replaces the bytes from an offset on. -/
def writeBytes (m : Memory size) (offset : Nat) : List UInt8 → Memory size
  | [] => m
  | b :: bs => (m.writeByte offset b).writeBytes (offset + 1) bs

/-- The `count` bytes from an offset on. -/
def readBytes (m : Memory size) (offset count : Nat) : List UInt8 :=
  (List.range count).map fun i => m.byte (offset + i)

/-- The little-endian word at an offset. -/
def word (m : Memory size) (offset : Nat) : Word :=
  Word.ofBytes (m.byte offset) (m.byte (offset + 1)) (m.byte (offset + 2)) (m.byte (offset + 3))

/-- Replaces the word at an offset. -/
def writeWord (m : Memory size) (offset : Nat) (w : Word) : Memory size :=
  m.writeBytes offset w.bytes

/-- All words of the memory, each with its offset. -/
def words (m : Memory size) : List (Nat × Word) :=
  (List.range (size / 4)).map fun i => (4 * i, m.word (4 * i))

/-! ### What a write leaves -/

@[simp] theorem byte_zero (i : Nat) : (zero : Memory size).byte i = 0 := by
  by_cases h : i < size
  · simp [byte, zero, h]
  · simp [byte, zero, h]

theorem byte_of_size_le (m : Memory size) {i : Nat} (h : size ≤ i) : m.byte i = 0 := by
  simp [byte, Nat.not_lt.2 h]

theorem byte_writeByte (m : Memory size) (offset i : Nat) (b : UInt8) :
    (m.writeByte offset b).byte i = if i = offset ∧ i < size then b else m.byte i := by
  by_cases hi : i < size
  · by_cases ho : i = offset
    · subst ho
      simp [byte, writeByte, hi]
    · simp [byte, writeByte, hi, ho, Ne.symm ho]
  · rw [byte_of_size_le _ (Nat.not_lt.1 hi), byte_of_size_le _ (Nat.not_lt.1 hi)]
    simp [hi]

/-- After a write the bytes inside its interval are those written and all others are as before. -/
theorem byte_writeBytes (m : Memory size) (offset i : Nat) (bs : List UInt8) :
    (m.writeBytes offset bs).byte i =
      if offset ≤ i ∧ i < offset + bs.length ∧ i < size then bs[i - offset]?.getD 0
      else m.byte i := by
  induction bs generalizing m offset with
  | nil => simp [writeBytes]; omega
  | cons b bs ih =>
    rw [writeBytes, ih, byte_writeByte]
    simp only [List.length_cons]
    by_cases h : offset + 1 ≤ i ∧ i < offset + 1 + bs.length ∧ i < size
    · rw [if_pos h, if_pos (by omega), show i - offset = i - (offset + 1) + 1 by omega]
      simp
    · rw [if_neg h]
      by_cases ho : i = offset ∧ i < size
      · rw [if_pos ho, if_pos (by omega)]
        simp [ho.1]
      · rw [if_neg ho, if_neg (by omega)]

/-- A memory is determined by its bytes. -/
theorem ext_byte {m n : Memory size} (h : ∀ i < size, m.byte i = n.byte i) : m = n := by
  obtain ⟨a⟩ := m
  obtain ⟨b⟩ := n
  congr 1
  apply Vector.ext
  intro i hi
  simpa [byte, hi] using h i hi

theorem writeBytes_append (m : Memory size) (offset : Nat) (bs cs : List UInt8) :
    m.writeBytes offset (bs ++ cs) =
      (m.writeBytes offset bs).writeBytes (offset + bs.length) cs := by
  induction bs generalizing m offset with
  | nil => rfl
  | cons b bs ih =>
    rw [List.cons_append, writeBytes, ih, writeBytes, List.length_cons, Nat.add_right_comm,
      Nat.add_assoc]

/-- Writes to different places can be made in either order. -/
theorem writeBytes_comm (m : Memory size) {i j : Nat} {bs cs : List UInt8}
    (h : i + bs.length ≤ j ∨ j + cs.length ≤ i) :
    (m.writeBytes i bs).writeBytes j cs = (m.writeBytes j cs).writeBytes i bs := by
  apply ext_byte
  intro k _
  simp only [byte_writeBytes]
  by_cases hcs : j ≤ k ∧ k < j + cs.length ∧ k < size
  · rw [if_pos hcs, if_neg (by omega), if_pos hcs]
  · rw [if_neg hcs, if_neg hcs]

/-- Two writes and two more can be exchanged if none of the first meets one of the others. -/
theorem writeBytes_comm_two (m : Memory size) {o w o' w' : Nat}
    {packet word packet' word' : List UInt8}
    (hpackets : o + packet.length ≤ o' ∨ o' + packet'.length ≤ o)
    (hpacket : o + packet.length ≤ w' ∨ w' + word'.length ≤ o)
    (hword : w + word.length ≤ o' ∨ o' + packet'.length ≤ w)
    (hwords : w + word.length ≤ w' ∨ w' + word'.length ≤ w) :
    (((m.writeBytes o packet).writeBytes w word).writeBytes o' packet').writeBytes w' word' =
      (((m.writeBytes o' packet').writeBytes w' word').writeBytes o packet).writeBytes w word :=
  calc
    _ = (((m.writeBytes o packet).writeBytes o' packet').writeBytes w word).writeBytes w' word' :=
      by rw [writeBytes_comm _ hword]
    _ = (((m.writeBytes o' packet').writeBytes o packet).writeBytes w' word').writeBytes w word :=
      by rw [m.writeBytes_comm hpackets, writeBytes_comm _ hwords]
    _ = (((m.writeBytes o' packet').writeBytes w' word').writeBytes o packet).writeBytes w word :=
      by rw [writeBytes_comm _ hpacket]

@[simp] theorem length_readBytes (m : Memory size) (offset count : Nat) :
    (m.readBytes offset count).length = count := by simp [readBytes]

/-- What was written inside the memory is read back. -/
theorem readBytes_writeBytes (m : Memory size) (offset : Nat) (bs : List UInt8)
    (h : offset + bs.length ≤ size) :
    (m.writeBytes offset bs).readBytes offset bs.length = bs := by
  apply List.ext_getElem
  · simp
  · intro i _ hi
    simp only [readBytes, List.getElem_map, List.getElem_range, byte_writeBytes]
    rw [if_pos (by omega), Nat.add_sub_cancel_left]
    simp [hi]

theorem readBytes_writeBytes_of_disjoint (m : Memory size) {offset start count : Nat}
    {bs : List UInt8} (h : start + count ≤ offset ∨ offset + bs.length ≤ start) :
    (m.writeBytes offset bs).readBytes start count = m.readBytes start count := by
  apply List.ext_getElem
  · simp
  · intro i hi _
    simp only [length_readBytes] at hi
    simp only [readBytes, List.getElem_map, List.getElem_range, byte_writeBytes]
    rw [if_neg (by omega)]

theorem byte_writeBytes_add (m : Memory size) (offset : Nat) {bs : List UInt8} {i : Nat}
    (hi : i < bs.length) (h : offset + i < size) :
    (m.writeBytes offset bs).byte (offset + i) = bs[i] := by
  rw [byte_writeBytes, if_pos (by omega), Nat.add_sub_cancel_left]
  simp [hi]

/-- The word written at an offset is read back. -/
theorem word_writeWord (m : Memory size) (offset : Nat) (w : Word) (h : offset + 4 ≤ size) :
    (m.writeWord offset w).word offset = w := by
  have at' : ∀ i (hi : i < w.bytes.length),
      (m.writeBytes offset w.bytes).byte (offset + i) = w.bytes[i] := fun i hi =>
    byte_writeBytes_add m offset hi (by have := w.length_bytes; omega)
  have h₀ := at' 0 (by simp)
  rw [Nat.add_zero] at h₀
  rw [word, writeWord, h₀, at' 1 (by simp), at' 2 (by simp), at' 3 (by simp)]
  exact Word.ofBytes_bytes w

theorem word_writeBytes_of_disjoint (m : Memory size) {offset start : Nat} {bs : List UInt8}
    (h : start + 4 ≤ offset ∨ offset + bs.length ≤ start) :
    (m.writeBytes offset bs).word start = m.word start := by
  simp only [word, byte_writeBytes]
  rw [if_neg (by omega), if_neg (by omega), if_neg (by omega), if_neg (by omega)]

@[simp] theorem word_zero (offset : Nat) : (zero : Memory size).word offset = 0 := by
  simp [word, Word.ofBytes]

end Memory

end UsbGadget
