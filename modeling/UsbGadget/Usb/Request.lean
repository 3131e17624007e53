import UsbGadget.Memory
import UsbGadget.Usb.Direction

/-!
# SETUP packets and standard requests

A control transfer opens with an 8-byte SETUP packet. Only requests of the standard type are
decoded further: `SetupPacket.standardRequest?` is the request that a packet makes, if it is one
that the standard defines.
-/

namespace UsbGadget

/-- The requests that the USB standard defines for every device. -/
inductive StandardRequest where
  | getStatus
  | clearFeature
  | setFeature
  | setAddress
  | getDescriptor
  | setDescriptor
  | getConfiguration
  | setConfiguration
  | getInterface
  | setInterface
  | synchFrame
deriving DecidableEq, Repr

namespace StandardRequest

/-- The code of a request in byte 1 of a SETUP packet. -/
def code : StandardRequest → Nat
  | getStatus => 0
  | clearFeature => 1
  | setFeature => 3
  | setAddress => 5
  | getDescriptor => 6
  | setDescriptor => 7
  | getConfiguration => 8
  | setConfiguration => 9
  | getInterface => 10
  | setInterface => 11
  | synchFrame => 12

/-- Every standard request. -/
def all : List StandardRequest :=
  [getStatus, clearFeature, setFeature, setAddress, getDescriptor, setDescriptor,
    getConfiguration, setConfiguration, getInterface, setInterface, synchFrame]

/-- The request with the given code. -/
def ofCode? (n : Int) : Option StandardRequest := all.find? fun r => r.code == n

theorem ofCode?_code (r : StandardRequest) : ofCode? r.code = some r := by cases r <;> rfl

end StandardRequest

/-- The packet that opens a control transfer. -/
structure SetupPacket where
  /-- Direction in bit 7, request type in bits 6:5, recipient below. -/
  requestType : UInt8
  /-- Code of the request. -/
  request : UInt8
  /-- Argument of the request. -/
  value : UInt16
  /-- Second argument of the request. -/
  index : UInt16
  /-- How many bytes the host will send, or is ready to take, in the data phase. -/
  length : UInt16
deriving DecidableEq, Repr

namespace SetupPacket

/-- The bits of `requestType` that tell standard, class and vendor requests apart. -/
def typeMask : UInt8 := 0x60

/-- What the type bits of a standard request are. -/
def typeStandard : UInt8 := 0x00

/-- The direction of the data phase. -/
def direction (p : SetupPacket) : Direction := .ofByte p.requestType

/-- The request is one that the standard defines, going by its type bits. -/
def isStandard (p : SetupPacket) : Bool := p.requestType &&& typeMask == typeStandard

/-- The standard request that has this packet's code, whatever the packet's type. -/
def namedRequest? (p : SetupPacket) : Option StandardRequest :=
  StandardRequest.ofCode? p.request.toNat

/-- The standard request that this packet makes. -/
def standardRequest? (p : SetupPacket) : Option StandardRequest :=
  if p.isStandard then p.namedRequest? else none

/-- The packet as it goes over the bus. -/
def bytes (p : SetupPacket) : List UInt8 :=
  [p.requestType, p.request] ++ halfBytes p.value ++ halfBytes p.index ++ halfBytes p.length

/-- Reads a packet, which has exactly eight bytes. -/
def ofBytes? : List UInt8 → Option SetupPacket
  | [b₀, b₁, b₂, b₃, b₄, b₅, b₆, b₇] =>
    some ⟨b₀, b₁, halfOfBytes b₂ b₃, halfOfBytes b₄ b₅, halfOfBytes b₆ b₇⟩
  | _ => none

/-- The packet that lies at the start of a memory. -/
def inMemory {size : Nat} (m : Memory size) : SetupPacket :=
  ⟨m.byte 0, m.byte 1, halfOfBytes (m.byte 2) (m.byte 3), halfOfBytes (m.byte 4) (m.byte 5),
    halfOfBytes (m.byte 6) (m.byte 7)⟩

theorem ofBytes?_bytes (p : SetupPacket) : ofBytes? p.bytes = some p := by
  simp only [bytes, halfBytes, List.cons_append, List.nil_append, ofBytes?,
    halfOfBytes_halfBytes]

/-- The packet in memory is the one that its first eight bytes spell. -/
theorem ofBytes?_readBytes {size : Nat} (m : Memory size) :
    ofBytes? (m.readBytes 0 8) = some (inMemory m) := by
  simp [Memory.readBytes, List.range, List.range.loop, ofBytes?, inMemory]

end SetupPacket

end UsbGadget
