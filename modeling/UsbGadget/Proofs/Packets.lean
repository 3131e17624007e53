import UsbGadget.Proofs.Effects
import UsbGadget.Proofs.Moves

/-!
# Packets on both sides of the controller

A `Packet` is what goes over the bus: an identifier and data. `handedOver` lists the packets that
the engine hands to the controller on an endpoint, as a log of effects shows them;
`Controller.inPacket` is the packet that a host fetches from an IN endpoint.
-/

namespace UsbGadget

/-- A data packet on the bus. -/
structure Packet where
  /-- Its identifier. -/
  pid : Pid
  /-- Its data. -/
  data : List UInt8
deriving DecidableEq

/-- The packet that an effect hands over on an endpoint of an interface. -/
def Effect.handed? (interface address : UInt8) : Effect → Option Packet
  | arm e data =>
    if e.interface = interface ∧ e.address = address then some ⟨e.nextPid, data⟩ else none
  | _ => none

theorem Effect.Quiet.handed?_eq_none {interface address : UInt8} {e : Effect} (h : e.Quiet) :
    e.handed? interface address = none := by
  cases e with
  | write | heed | collect | call => rfl
  | arm | reset | clear | line | enable => cases h

/-- The packets that are handed over on an endpoint of an interface, in order. -/
def handedOver (interface address : UInt8) (log : List Effect) : List Packet :=
  log.filterMap (·.handed? interface address)

section

variable {interface address : UInt8}

@[simp] theorem handedOver_append (log log' : List Effect) :
    handedOver interface address (log ++ log') =
      handedOver interface address log ++ handedOver interface address log' :=
  List.filterMap_append

@[simp] theorem handedOver_acknowledge (event : Event) (log : List Effect) :
    handedOver interface address (event.acknowledge :: log) = handedOver interface address log := by
  cases event <;> rfl

end

namespace Controller

/-- The packet of an IN endpoint that the host fetches next. -/
def inPacket (c : Controller) (address : UInt8) : Packet :=
  let back := BufferControl.ofWord (c.bufferControl (Dpram.bufferControlIndex address .input))
  ⟨back.pid, c.dpram.readBytes (c.packetOffset address .input) back.length⟩

end Controller

end UsbGadget
