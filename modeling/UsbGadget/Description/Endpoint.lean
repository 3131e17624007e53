import UsbGadget.Description.Handler
import UsbGadget.Description.Refusal
import UsbGadget.Hardware.Dpram
import UsbGadget.Usb.Transfer

/-!
# Descriptions of endpoints

An `EndpointDescription` says what an endpoint is and which buffer and registers serve it.

* `EndpointDescription.bufferOffset` is the offset of its buffer, once a packet is known to fit
  there;
* `EndpointDescription.checked` is the endpoint with a legal packet size, once everything about it
  is known to be in order.
-/

namespace UsbGadget

/-- The largest packet of endpoint 0, and of any other endpoint. -/
def controlPacketSize : UInt16 := 64

/-- The smallest legal packet size that is not below the given one; 64 if there is none. -/
def legalPacketSize (size : UInt16) : UInt16 :=
  if size ≤ 8 then 8 else if size ≤ 16 then 16 else if size ≤ 32 then 32 else 64

/-- One endpoint of an interface. -/
structure EndpointDescription where
  /-- Direction of its transfers. -/
  direction : Direction
  /-- Its number; four bits count. -/
  number : UInt8
  /-- What to do when a packet is done. -/
  handler : Option Handler := none
  /-- Polling interval in frames. -/
  interval : UInt8 := 0
  /-- Transfer, synchronization and usage type. -/
  attributes : EndpointAttributes
  /-- Largest packet. -/
  maxPacketSize : UInt16
  /-- Where its packets lie. -/
  dataBuffer : BufferAddress
  /-- Index of its buffer control register. -/
  bufferControl : Nat
  /-- Index of its endpoint control register; endpoint 0 has none. -/
  endpointControl : Option Nat

namespace EndpointDescription

/-- The endpoint with the registers that the chip has for its number and direction, and with the
packet buffer of the given index. -/
def standard (direction : Direction) (number : UInt8) (attributes : EndpointAttributes)
    (maxPacketSize : UInt16) (bufferIndex : UInt32) : EndpointDescription where
  direction := direction
  number := number
  attributes := attributes
  maxPacketSize := maxPacketSize
  dataBuffer := Dpram.dataBuffer bufferIndex
  bufferControl := Dpram.bufferControlIndex number direction
  endpointControl := Dpram.endpointControlIndex number direction

/-- One direction of the control endpoint. -/
def control (direction : Direction) : EndpointDescription where
  direction := direction
  number := 0
  attributes := .control
  maxPacketSize := controlPacketSize
  dataBuffer := Dpram.ep0BufferAddress
  bufferControl := Dpram.bufferControlIndex 0 direction
  endpointControl := none

/-- The endpoint's address. -/
def address (e : EndpointDescription) : UInt8 := e.direction.address e.number

/-- The offset of the endpoint's buffer, which has to hold a packet of legal size inside the buffer
area and to start a slot. -/
def bufferOffset (e : EndpointDescription) : Except Refusal Nat :=
  match e.dataBuffer.offset Dpram.base with
  | none => .error .bufferOutsideDpram
  | some offset =>
    let stop := offset + (legalPacketSize e.maxPacketSize).toNat
    if offset < Dpram.ep0Buffer ∨ Dpram.size < stop then .error .bufferOutsideDpram
    else if offset % Dpram.bufferSize ≠ 0 then .error .misalignedBuffer
    else .ok offset

/-- The endpoint's control registers exist. -/
def registersExist (e : EndpointDescription) : Bool :=
  e.bufferControl < Dpram.bufferControls && e.endpointControl.all (· < Dpram.endpointControls)

/-- The endpoint with its packet size rounded, once its buffer and its registers are in order. -/
def checked (e : EndpointDescription) : Except Refusal EndpointDescription := do
  let _ ← e.bufferOffset
  if e.registersExist then
    pure { e with maxPacketSize := legalPacketSize e.maxPacketSize }
  else
    throw .noSuchRegister

/-- The endpoint in words. -/
def text (e : EndpointDescription) : String :=
  let register := match e.endpointControl with
    | none => "None"
    | some i => "Some(" ++ toString i ++ ")"
  "EndpointConfig \x7b address: " ++ toString e.address.toNat ++
    ", handler: " ++ (if e.handler.isSome then "true" else "false") ++
    ", interval: " ++ toString e.interval.toNat ++
    ", attributes: " ++ e.attributes.text ++
    ", max_packet_size: " ++ toString e.maxPacketSize.toNat ++
    ", data_buffer: DpramAddress(" ++ toString e.dataBuffer.raw.toNat ++ ")" ++
    ", buffer_control: " ++ toString e.bufferControl ++
    ", endpoint_control: " ++ register ++ " \x7d"

end EndpointDescription

end UsbGadget
