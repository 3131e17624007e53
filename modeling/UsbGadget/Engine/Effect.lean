import UsbGadget.Engine.Endpoint
import UsbGadget.Hardware.Board
import UsbGadget.Usb.Request

/-!
# What the engine does to the hardware

Every step of the engine returns the list of its `Effect`s. They are all that it does to the
hardware (`Effect.apply`), so the hardware at any moment is the replay of a log (`replay`), and a
log also shows which packets were read and which handlers were called.
-/

namespace UsbGadget

/-- One thing that the engine does. -/
inductive Effect where
  /-- Puts the controller through a reset. -/
  | reset
  /-- Sets the whole packet memory to 0. -/
  | clear
  /-- Writes a register. -/
  | write (r : Register) (w : Word)
  /-- Switches the interrupt line. -/
  | line (enabled : Bool)
  /-- Switches an endpoint on. -/
  | enable (e : Endpoint)
  /-- Hands a packet of an endpoint to the controller. -/
  | arm (e : Endpoint) (data : List UInt8)
  /-- Reads the SETUP packet. -/
  | heed (packet : SetupPacket)
  /-- Reads the packet of an endpoint that came back. -/
  | collect (e : Endpoint) (data : List UInt8)
  /-- Calls a handler, which gets the given answers to what it asks and submits. -/
  | call (handler : String) (data : List UInt8) (answers : List Bool)

namespace Effect

variable {σ : Type} [Board σ]

/-- What an effect does to the hardware. -/
def apply (h : Hardware σ) : Effect → Hardware σ
  | reset => h.reset
  | clear => h.mapDpram fun _ => .zero
  | write r w => h.mapController fun c => c.write r w
  | line enabled => h.setInterrupt enabled
  | enable e => h.mapDpram e.enable
  | arm e data => h.mapDpram (e.arm data)
  | heed _ => h
  | collect _ _ => h
  | call _ _ _ => h

end Effect

section

variable {σ : Type} [Board σ]

/-- The hardware after the effects of a log. -/
def replay (log : List Effect) (h : Hardware σ) : Hardware σ := log.foldl Effect.apply h

@[simp] theorem replay_nil (h : Hardware σ) : replay [] h = h := rfl

@[simp] theorem replay_cons (e : Effect) (log : List Effect) (h : Hardware σ) :
    replay (e :: log) h = replay log (e.apply h) := rfl

@[simp] theorem replay_append (log log' : List Effect) (h : Hardware σ) :
    replay (log ++ log') h = replay log' (replay log h) := List.foldl_append

end

end UsbGadget
