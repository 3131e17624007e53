import UsbGadget.Description.Endpoint
import UsbGadget.Hardware.Controller

/-!
# Endpoints of an open device

An `Endpoint` is what the engine keeps about an endpoint while the device is open: where its packets
and its control words lie, who is told when a packet is done, and the identifier that its next
packet will carry.

* `Endpoint.enable` and `Endpoint.arm` are what switching an endpoint on, and handing one of its
  packets to the controller, do to the packet memory;
* `Endpoint.completedData` reads a packet that came back.
-/

namespace UsbGadget

/-- Who is told when a packet of an endpoint is done. -/
inductive Owner where
  /-- The engine itself, which keeps the control transfer going. -/
  | control
  /-- The handler of whoever described the endpoint, if there is one. -/
  | caller (handler : Option Handler)

/-- One endpoint of an open device. -/
structure Endpoint where
  /-- Number of the interface that it belongs to. -/
  interface : UInt8
  /-- Direction and number. -/
  address : UInt8
  /-- Largest packet. -/
  maxPacketSize : Nat
  /-- Who is told when a packet is done. -/
  owner : Owner
  /-- Identifier of the next packet. -/
  nextPid : Pid
  /-- How the endpoint moves its data. -/
  transfer : TransferType
  /-- Offset of its packet buffer. -/
  bufferOffset : Nat
  /-- Index of its buffer control register. -/
  bufferControl : Nat
  /-- Index of its endpoint control register; endpoint 0 has none. -/
  endpointControl : Option Nat

namespace Endpoint

/-- Who owns a described endpoint: endpoint 0 of interface 0 is the control endpoint. -/
def ownerOf (interface : UInt8) (e : EndpointDescription) : Owner :=
  if interface = 0 ∧ e.number = 0 then .control else .caller e.handler

/-- The endpoint that a description of an interface's endpoint stands for. -/
def ofDescription (interface : UInt8) (e : EndpointDescription) : Except Refusal Endpoint :=
  e.bufferOffset.map fun bufferOffset =>
    { interface := interface
      address := e.address
      maxPacketSize := e.maxPacketSize.toNat
      owner := ownerOf interface e
      nextPid := .data0
      transfer := e.attributes.transfer
      bufferOffset := bufferOffset
      bufferControl := e.bufferControl
      endpointControl := e.endpointControl }

/-- The direction of the endpoint's transfers. -/
def direction (e : Endpoint) : Direction := .ofByte e.address

/-- The endpoint after one more packet was armed. -/
def advance (e : Endpoint) : Endpoint := { e with nextPid := e.nextPid.next }

/-- As much of the data as fits in a packet. -/
def clip (e : Endpoint) (data : List UInt8) : List UInt8 := data.take e.maxPacketSize

/-- The control word that switches the endpoint on. -/
def controlWord (e : Endpoint) : Word := EndpointControl.word ⟨e.transfer, e.bufferOffset⟩

/-- The control word that hands a packet of the given length to the controller. An IN packet is
full, an OUT packet is for the host to fill. -/
def armWord (e : Endpoint) (length : Nat) : Word :=
  BufferControl.word ⟨e.direction == .input, e.nextPid, true, length⟩

/-- Switches the endpoint on. Endpoint 0 has no control register and is always on. -/
def enable (e : Endpoint) (dpram : Memory Dpram.size) : Memory Dpram.size :=
  match e.endpointControl with
  | none => dpram
  | some index => dpram.writeWord (Dpram.endpointControlOffset index) e.controlWord

/-- Hands a packet to the controller: an IN packet's data is copied to the buffer first. -/
def arm (e : Endpoint) (data : List UInt8) (dpram : Memory Dpram.size) : Memory Dpram.size :=
  let filled := if e.direction = .input then dpram.writeBytes e.bufferOffset data else dpram
  filled.writeWord (Dpram.bufferControlOffset e.bufferControl) (e.armWord data.length)

/-- How many bytes the packet that came back has: its length field, but no more than a packet
holds. -/
def completedLength (e : Endpoint) (dpram : Memory Dpram.size) : Nat :=
  let back := BufferControl.ofWord (dpram.word (Dpram.bufferControlOffset e.bufferControl))
  min (min back.length e.maxPacketSize) Dpram.bufferSize

/-- The bytes of the packet that came back. -/
def completedData (e : Endpoint) (dpram : Memory Dpram.size) : List UInt8 :=
  dpram.readBytes e.bufferOffset (e.completedLength dpram)

end Endpoint

end UsbGadget
