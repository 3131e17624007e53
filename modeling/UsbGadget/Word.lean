/-!
# Words, their bits and their bytes

A hardware register is a 32-bit `Word`. Bits and bit fields are read and written by arithmetic on
the word's value, so a statement about a field is a statement about a quotient and a remainder;
`1 <<< i` is the value of bit `i`.

* `Word.bit` and `Word.field` read, `Word.set`, `Word.clear` and `Word.setLow` write, and
  `Word.ofBits` makes a word from its bits;
* `Word.bytes` and `Word.ofBytes` are the little-endian form in memory (`Word.ofBytes_bytes`);
* `halfBytes` and `halfOfBytes` are the same for the 16-bit numbers in USB records.
-/

namespace UsbGadget

/-- A 32-bit hardware word. -/
abbrev Word := UInt32

namespace Word

/-- Bit `i` of a word. -/
def bit (w : Word) (i : Nat) : Bool := (w.toNat >>> i) % 2 == 1

/-- The `width` bits of a word from bit `low` up. -/
def field (w : Word) (low width : Nat) : Nat := (w.toNat >>> low) % (1 <<< width)

/-- The word in which only bit `i` is set. -/
def only (i : Nat) : Word := UInt32.ofNat (1 <<< i)

/-- Sets bit `i` and keeps the others. -/
def set (w : Word) (i : Nat) : Word := if w.bit i then w else UInt32.ofNat (w.toNat + (1 <<< i))

/-- The word in which the given bits are set. -/
def ofBits (bits : List Nat) : Word := bits.foldl set 0

/-- Clears bit `i` and keeps the others. -/
def clear (w : Word) (i : Nat) : Word :=
  if w.bit i then UInt32.ofNat (w.toNat - (1 <<< i)) else w

/-- Replaces the lowest `width` bits by those of `v` and keeps the others. -/
def setLow (w : Word) (width v : Nat) : Word :=
  UInt32.ofNat (w.toNat - w.toNat % (1 <<< width) + v % (1 <<< width))

/-- The value of bit `i` if the flag is up, else 0: a one-bit field in place. -/
def flag (b : Bool) (i : Nat) : Nat := b.toNat <<< i

/-- The four bytes of a word, lowest first. -/
def bytes (w : Word) : List UInt8 :=
  [UInt8.ofNat w.toNat, UInt8.ofNat (w.toNat / 256), UInt8.ofNat (w.toNat / 65536),
    UInt8.ofNat (w.toNat / 16777216)]

/-- The word with the given bytes, lowest first. -/
def ofBytes (b₀ b₁ b₂ b₃ : UInt8) : Word :=
  UInt32.ofNat (b₀.toNat + 256 * b₁.toNat + 65536 * b₂.toNat + 16777216 * b₃.toNat)

@[simp] theorem length_bytes (w : Word) : w.bytes.length = 4 := rfl

/-- A word is made of its bytes. -/
theorem ofBytes_bytes (w : Word) :
    ofBytes (UInt8.ofNat w.toNat) (UInt8.ofNat (w.toNat / 256)) (UInt8.ofNat (w.toNat / 65536))
      (UInt8.ofNat (w.toNat / 16777216)) = w := by
  apply UInt32.toNat_inj.mp
  have h := w.toNat_lt
  simp only [ofBytes, UInt32.toNat_ofNat', UInt8.toNat_ofNat']
  omega

end Word

/-- The two bytes of a 16-bit number, lowest first. -/
def halfBytes (h : UInt16) : List UInt8 := [UInt8.ofNat h.toNat, UInt8.ofNat (h.toNat / 256)]

/-- The 16-bit number with the given bytes, lowest first. -/
def halfOfBytes (b₀ b₁ : UInt8) : UInt16 := UInt16.ofNat (b₀.toNat + 256 * b₁.toNat)

@[simp] theorem length_halfBytes (h : UInt16) : (halfBytes h).length = 2 := rfl

theorem halfOfBytes_halfBytes (h : UInt16) :
    halfOfBytes (UInt8.ofNat h.toNat) (UInt8.ofNat (h.toNat / 256)) = h := by
  apply UInt16.toNat_inj.mp
  have hlt := h.toNat_lt
  simp only [halfOfBytes, UInt16.toNat_ofNat', UInt8.toNat_ofNat']
  omega

end UsbGadget
