import UsbGadget.Hardware.Controller
import UsbGadget.Usb.Request

/-!
# The other side of the controller

What a host, and the controller on its behalf, does to the registers and the packet memory while a
device is driven: it delivers SETUP packets (`Controller.deliverSetup`), completes packets that were
handed over (`Controller.complete`), resets the bus (`Controller.deliverReset`), and raises
interrupts for what happened. The memory is plain, so status bits stay until they are written;
`Controller.retire` takes them all away.
-/

namespace UsbGadget

namespace Controller

/-- The interrupts that the status registers call for, among those that are wanted. -/
def raised (c : Controller) : Word :=
  let wanted := c.read .inte
  let status := c.read .sieStatus
  let ask (b : Bool) (i : Nat) : Nat := Word.flag (b && wanted.bit i) i
  .ofNat (ask (status.bit Bit.setupReceived) Bit.setupInterrupt +
    ask (status.bit Bit.busReset) Bit.resetInterrupt +
    ask (c.read .buffStatus != 0) Bit.bufferInterrupt)

/-- Raises the interrupts that the status registers call for, and no others. -/
def updateInterrupts (c : Controller) : Controller := c.write .ints c.raised

/-- Sets a bit of a register. -/
def setBit (c : Controller) (r : Register) (i : Nat) : Controller := c.write r ((c.read r).set i)

/-- A SETUP packet comes in. -/
def deliverSetup (c : Controller) (packet : SetupPacket) : Controller :=
  ({ c with dpram := c.dpram.writeBytes 0 packet.bytes }.setBit .sieStatus
    Bit.setupReceived).updateInterrupts

/-- The host resets the bus. -/
def deliverReset (c : Controller) : Controller :=
  (c.setBit .sieStatus Bit.busReset).updateInterrupts

/-- Takes all status bits away. -/
def retire (c : Controller) : Controller :=
  ((c.write .sieStatus 0).write .buffStatus 0).updateInterrupts

/-- Offset of an endpoint's packets, going by its control register; endpoint 0 has a place of its
own. -/
def packetOffset (c : Controller) (number : UInt8) (d : Direction) : Nat :=
  match Dpram.endpointControlIndex number d with
  | none => Dpram.ep0Buffer
  | some index => EndpointControl.bufferOffsetOf (c.endpointControl index)

/-- A buffer control word whose packet the host has fetched: the buffer is empty and belongs to the
engine again. -/
def fetchedWord (w : Word) : Word :=
  (w.clear BufferControl.availableBit).clear BufferControl.fullBit

/-- A buffer control word whose buffer the host has filled with `length` bytes: it belongs to the
engine again. -/
def filledWord (w : Word) (length : Nat) : Word :=
  let back : Word := w.clear BufferControl.availableBit
  let sized : Word := back.setLow BufferControl.lengthWidth length
  sized.set BufferControl.fullBit

/-- Gives a buffer back to the engine, with `w` in its control register. -/
def giveBack (c : Controller) (index : Nat) (w : Word) : Controller :=
  let c := { c with dpram := c.dpram.writeWord (Dpram.bufferControlOffset index) w }
  (c.setBit .buffStatus index).updateInterrupts

/-- The host completes the packet of an endpoint: it fetches an IN packet, or delivers `data` as an
OUT packet. This happens if the packet was handed over, or is forced, and if the data fits in the
memory. The buffer control word is held while the data comes in; `completeDataFirst` takes it
afterwards. -/
def complete (c : Controller) (address : UInt8) (data : List UInt8) (force : Bool) :
    Bool × Controller :=
  let d := Direction.ofByte address
  let index := Dpram.bufferControlIndex address d
  let offset := c.packetOffset address d
  let w := c.bufferControl index
  if !(w.bit BufferControl.availableBit || force) then (false, c)
  else
    match d with
    | .input => (true, c.giveBack index (fetchedWord w))
    | .output =>
      if Dpram.size < offset + data.length then (false, c)
      else
        let c := { c with dpram := c.dpram.writeBytes offset data }
        (true, c.giveBack index (filledWord w data.length))

/-- The packet of an endpoint is completed with its data first: the buffer control word is the one
that lies in the memory once the data is in place. This differs from `complete` only where the data
lies over that word, and then in nothing that the engine looks at
(`alike_complete`). -/
def completeDataFirst (c : Controller) (address : UInt8) (data : List UInt8) : Controller :=
  let d := Direction.ofByte address
  let index := Dpram.bufferControlIndex address d
  match d with
  | .input => c.giveBack index (fetchedWord (c.bufferControl index))
  | .output =>
    let c := { c with dpram := c.dpram.writeBytes (c.packetOffset address d) data }
    c.giveBack index (filledWord (c.bufferControl index) data.length)

end Controller

/-- A part of the controller that can be looked at word by word. -/
inductive Space where
  /-- The registers. -/
  | regs
  /-- The packet memory. -/
  | dpram
deriving DecidableEq, Repr

namespace Controller

/-- The word at an offset of a part. -/
def peek (c : Controller) (offset : Nat) : Space → Word
  | .regs => c.regs.word offset
  | .dpram => c.dpram.word offset

/-- Replaces the word at an offset of a part. -/
def poke (c : Controller) (offset : Nat) (w : Word) : Space → Controller
  | .regs => { c with regs := c.regs.writeWord offset w }
  | .dpram => { c with dpram := c.dpram.writeWord offset w }

end Controller

/-- One thing that happens on the other side of the controller. -/
inductive HostStep where
  /-- A SETUP packet comes in. -/
  | setup (packet : SetupPacket)
  /-- The host resets the bus. -/
  | busReset
  /-- The host completes a packet. -/
  | complete (address : UInt8) (data : List UInt8) (force : Bool)
  /-- A word is replaced. -/
  | poke (space : Space) (offset : Nat) (w : Word)
  /-- A word is looked at. -/
  | peek (space : Space) (offset : Nat)
  /-- The interrupts are brought up to date. -/
  | updateInterrupts
deriving DecidableEq, Repr

/-- What a step tells. -/
inductive Outcome where
  /-- Nothing. -/
  | silent
  /-- Whether the step was possible. -/
  | answer (b : Bool)
  /-- The word that was looked at. -/
  | word (w : Word)
deriving DecidableEq, Repr

/-- What a step on the other side does, and what it tells. -/
def HostStep.run (c : Controller) : HostStep → Outcome × Controller
  | setup packet => (.silent, c.deliverSetup packet)
  | busReset => (.silent, c.deliverReset)
  | complete address data force =>
    let (done, c) := c.complete address data force
    (.answer done, c)
  | poke space offset w => (.silent, c.poke offset w space)
  | peek space offset => (.word (c.peek offset space), c)
  | updateInterrupts => (.silent, c.updateInterrupts)

end UsbGadget
