import UsbGadget.Descriptor.Assembly
import UsbGadget.Usb.Request

/-!
# Control transfers

`Control` is where endpoint 0 stands in its current control transfer. An IN request is answered with
one packet of data and the host's empty OUT packet is awaited; an OUT request is answered with an
empty IN packet right away. A full packet that is shorter than what the host asked for does not end
the data phase, so an empty packet follows it. Requests that mean nothing to the engine are
acknowledged (OUT) or ignored (IN).

The machine is pure: each event gives the next state and a `Reply`, which says what to do.
-/

namespace UsbGadget

/-- The phase of the current control transfer. -/
inductive ControlPhase where
  /-- Between transfers. -/
  | idle
  /-- A descriptor is on its way to the host. -/
  | sending
  /-- A new address is being acknowledged; it counts once the acknowledgement has gone out. -/
  | addressing
  /-- The choice of a configuration is being acknowledged. -/
  | configuring
  /-- A request that means nothing to the engine is being acknowledged. -/
  | acknowledging
  /-- The data has gone out; the host's empty packet is awaited. -/
  | awaiting
deriving DecidableEq, Repr

/-- What to do after an event of endpoint 0. -/
inductive Reply where
  /-- Nothing. -/
  | silent
  /-- Hand this data to the controller for the host to fetch. -/
  | send (data : List UInt8)
  /-- Be ready for the host's empty packet. -/
  | receive
  /-- Move to this address. -/
  | moveTo (address : UInt8)
deriving DecidableEq, Repr

/-- Where endpoint 0 stands. -/
structure Control where
  /-- Phase of the current transfer. -/
  phase : ControlPhase := .idle
  /-- The address last assigned by the host. -/
  address : UInt8 := 0
  /-- The address was assigned but does not count yet. -/
  addressPending : Bool := false
  /-- The host has chosen a configuration since the bus was last reset. -/
  configured : Bool := false
  /-- An empty packet has to follow the full one that is on its way. -/
  emptyPending : Bool := false
deriving DecidableEq, Repr

/-- The descriptor that a request for one asks for: nothing if there is no such string, and `none`
if it is of a kind that is not served. The whole configuration is served if the host has room for
it. -/
def DescriptorSet.requested? (d : DescriptorSet) (p : SetupPacket) : Option (List UInt8) :=
  match DescriptorKind.ofCode? (p.value.toNat / 256) with
  | some .device => some d.device.bytes
  | some .configuration => some (if d.totalLength ≤ p.length.toNat then d.records else d.header)
  | some .string => some ((d.string? (UInt8.ofNat p.value.toNat)).getD [])
  | _ => none

namespace Control

/-- Answers a request for a descriptor; `limit` is the largest packet. -/
def getDescriptor (c : Control) (d : DescriptorSet) (limit : Nat) (p : SetupPacket) :
    Control × Reply :=
  match d.requested? p with
  | none => ({ c with phase := .idle }, .silent)
  | some bytes =>
    let data := bytes.take p.length.toNat
    let fitting := min data.length limit
    ({ c with phase := .sending, emptyPending := fitting == limit && fitting < p.length.toNat },
      .send data)

/-- A SETUP packet has come in. -/
def setup (c : Control) (d : DescriptorSet) (limit : Nat) (p : SetupPacket) : Control × Reply :=
  let c := { c with emptyPending := false }
  match p.direction, p.standardRequest? with
  | .output, some .setAddress =>
    ({ c with phase := .addressing, address := UInt8.ofNat p.value.toNat, addressPending := true },
      .send [])
  | .output, some .setConfiguration =>
    ({ c with phase := .configuring, configured := true }, .send [])
  | .output, _ => ({ c with phase := .acknowledging }, .send [])
  | .input, some .getDescriptor => c.getDescriptor d limit p
  | .input, _ => ({ c with phase := .idle }, .silent)

/-- A packet of endpoint 0 has gone out. -/
def sent (c : Control) : Control × Reply :=
  if c.addressPending then
    ({ c with phase := .idle, addressPending := false },
      .moveTo (UInt8.ofNat (c.address.toNat % 128)))
  else if c.emptyPending then
    ({ c with emptyPending := false }, .send [])
  else
    ({ c with phase := if c.phase = .sending then .awaiting else .idle }, .receive)

/-- The host's packet has come in. -/
def received (c : Control) : Control × Reply := ({ c with phase := .idle }, .silent)

/-- The host has reset the bus: nothing of before counts any more. -/
def busReset (_ : Control) : Control × Reply := ({}, .moveTo 0)

end Control

end UsbGadget
