import UsbGadget.Text.Utf16
import UsbGadget.Usb.Record

/-!
# String descriptors

A string descriptor is its own length, the kind and the text in UTF-16. Descriptors go out in one
packet of endpoint 0, so a text has to fit in `packetLimit` bytes. String 0 is special: it lists the
languages that the device speaks.
-/

namespace UsbGadget

/-- The most bytes that one packet of endpoint 0 carries. -/
def packetLimit : Nat := 64

/-- The language code of US English. -/
def languageEnglish : UInt16 := 0x0409

/-- String 0: the device speaks US English. -/
def languageDescriptor : List UInt8 :=
  [4, DescriptorKind.string.byte] ++ halfBytes languageEnglish

/-- How many bytes the descriptor of a text takes. -/
def stringDescriptorLength (s : String) : Nat := 2 + 2 * Utf16.length s

/-- The descriptor of a text. -/
def stringDescriptor (s : String) : List UInt8 :=
  UInt8.ofNat (stringDescriptorLength s) :: DescriptorKind.string.byte ::
    Utf16.bytes (Utf16.encode s)

@[simp] theorem length_stringDescriptor (s : String) :
    (stringDescriptor s).length = stringDescriptorLength s := by
  simp [stringDescriptor, stringDescriptorLength, Utf16.length]
  omega

end UsbGadget
