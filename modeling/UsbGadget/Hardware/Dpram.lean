import UsbGadget.Usb.Direction

/-!
# The layout of the packet memory

The controller and the processor share 4096 bytes of memory. Below `ep0Buffer` lie the SETUP packet
and the endpoints' control registers; from there up lie the packet buffers, in slots of 64 bytes.

* `BufferAddress.offset` turns an address of the processor into an offset;
* `bufferControlIndex` and `endpointControlIndex` number the control registers;
* `dataBuffer` numbers the slots after those of endpoint 0.
-/

namespace UsbGadget

namespace Dpram

/-- Where the processor sees the memory. -/
def base : UInt32 := 0x50100000

/-- Size of the memory in bytes. -/
def size : Nat := 4096

/-- Offset of the buffer of endpoint 0, which both of its directions share. -/
def ep0Buffer : Nat := 0x100

/-- Offset of the first buffer for other endpoints. -/
def dataBuffers : Nat := 0x180

/-- Size and alignment of a packet buffer. -/
def bufferSize : Nat := 64

/-- How many buffer control registers there are. -/
def bufferControls : Nat := 32

/-- How many endpoint control registers there are; endpoint 0 has none. -/
def endpointControls : Nat := 30

/-- Offset of an endpoint control register. -/
def endpointControlOffset (index : Nat) : Nat := 0x08 + 4 * index

/-- Offset of a buffer control register. -/
def bufferControlOffset (index : Nat) : Nat := 0x80 + 4 * index

/-- The buffer control register of an endpoint: the registers come in pairs, IN first. -/
def bufferControlIndex (number : UInt8) (d : Direction) : Nat :=
  2 * (number.toNat % 16) + d.place

/-- The endpoint control register of an endpoint, in pairs as well; endpoint 0 has none. -/
def endpointControlIndex (number : UInt8) (d : Direction) : Option Nat :=
  if number.toNat % 16 = 0 then none else some (2 * (number.toNat % 16 - 1) + d.place)

end Dpram

/-- A place in the packet memory, as the processor sees it. -/
structure BufferAddress where
  /-- The address. -/
  raw : UInt32
deriving DecidableEq, Repr

namespace BufferAddress

/-- The offset of an address from `base`. Exclusive or with the base clears the base's bits from
an address inside the memory, and leaves any other address at 4096 or more. -/
def offset (a : BufferAddress) (base : UInt32) : Option Nat :=
  let o := (a.raw ^^^ base).toNat
  if o < Dpram.size then some o else none

end BufferAddress

namespace Dpram

/-- The buffer of endpoint 0. -/
def ep0BufferAddress : BufferAddress := ⟨base + UInt32.ofNat ep0Buffer⟩

/-- The buffer with the given index among those after endpoint 0's. -/
def dataBuffer (index : UInt32) : BufferAddress :=
  ⟨base + UInt32.ofNat dataBuffers + index * UInt32.ofNat bufferSize⟩

end Dpram

end UsbGadget
