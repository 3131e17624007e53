import UsbGadget.Word

/-!
# UTF-16 code units

String descriptors carry text as UTF-16. A character of the basic plane is one unit, any other
character is a pair: a high surrogate and a low one.
-/

namespace UsbGadget.Utf16

/-- The units of one character. -/
def ofChar (c : Char) : List UInt16 :=
  if c.toNat < 0x10000 then [UInt16.ofNat c.toNat]
  else
    [UInt16.ofNat (0xD800 + (c.toNat - 0x10000) / 0x400),
      UInt16.ofNat (0xDC00 + (c.toNat - 0x10000) % 0x400)]

/-- The units of a list of characters. -/
def ofChars (cs : List Char) : List UInt16 := cs.flatMap ofChar

/-- The units of a text. -/
def encode (s : String) : List UInt16 := ofChars s.toList

/-- How many units a text takes. -/
def length (s : String) : Nat := (encode s).length

/-- The units as bytes, each unit lowest byte first. -/
def bytes (units : List UInt16) : List UInt8 := units.flatMap halfBytes

theorem bytes_cons (u : UInt16) (us : List UInt16) :
    bytes (u :: us) = halfBytes u ++ bytes us := rfl

@[simp] theorem length_bytes (units : List UInt16) : (bytes units).length = 2 * units.length := by
  induction units with
  | nil => rfl
  | cons u us ih =>
    rw [bytes_cons, List.length_append, ih, length_halfBytes, List.length_cons]
    omega

end UsbGadget.Utf16
