import UsbGadget.Engine.Effect

/-!
# What an interrupt reports

An interrupt reports any number of `Event`s at once. `Event.reported` puts them into the order in
which they are handled: a SETUP packet, then the buffers that came back, in ascending order, and
last a bus reset.
-/

namespace UsbGadget

/-- Something that an interrupt reports. -/
inductive Event where
  /-- A SETUP packet is waiting. -/
  | setup
  /-- The buffer with this index has come back. -/
  | buffer (index : Nat)
  /-- The host has reset the bus. -/
  | busReset
deriving DecidableEq, Repr

namespace Event

/-- The events that an interrupt reports, in the order in which they are handled: `ints` says which
kinds there are, `buffers` which buffers have come back. -/
def reported (ints buffers : Word) : List Event :=
  (if ints.bit Bit.setupInterrupt then [setup] else []) ++
    (if ints.bit Bit.bufferInterrupt then
      ((List.range Dpram.bufferControls).filter buffers.bit).map buffer
    else []) ++
    (if ints.bit Bit.resetInterrupt then [busReset] else [])

/-- The write that takes an event off the hardware's list. -/
def acknowledge : Event → Effect
  | setup => .write .sieStatus (Word.only Bit.setupReceived)
  | buffer index => .write .buffStatus (Word.only index)
  | busReset => .write .sieStatus (Word.only Bit.busReset)

/-- The address of the endpoint that a buffer belongs to. -/
def bufferAddress (index : Nat) : UInt8 :=
  (Direction.ofIndex index).address (UInt8.ofNat (index / 2))

end Event

end UsbGadget
