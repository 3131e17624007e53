import UsbGadget.Hardware.Controller

/-!
# What surrounds the controller

The engine can put the controller through a reset and switch its interrupt line. What that does is
up to the `Board` that the controller sits on. `Bench` is a board for experiments: it counts the
resets and remembers the line.
-/

namespace UsbGadget

/-- A board that a controller can sit on. -/
class Board (σ : Type) where
  /-- A reset sets all registers of the controller to 0. -/
  clearsRegisters : Bool
  /-- Puts the controller through a reset. -/
  reset : σ → σ
  /-- Switches the controller's interrupt line on or off. -/
  setInterrupt : Bool → σ → σ

/-- A controller on its board. -/
structure Hardware (σ : Type) extends Controller where
  /-- The board. -/
  board : σ
deriving DecidableEq

/-- A board for experiments. -/
structure Bench where
  /-- How many resets there were. -/
  resets : Nat := 0
  /-- The interrupt line is on. -/
  irq : Bool := false
deriving DecidableEq, Repr

instance : Board Bench where
  clearsRegisters := true
  reset b := { b with resets := b.resets + 1 }
  setInterrupt enabled b := { b with irq := enabled }

namespace Hardware

variable {σ : Type} [Board σ]

/-- Puts the controller through a reset. -/
def reset (h : Hardware σ) : Hardware σ where
  regs := if Board.clearsRegisters σ then .zero else h.regs
  dpram := h.dpram
  board := Board.reset h.board

/-- Switches the interrupt line. -/
def setInterrupt (enabled : Bool) (h : Hardware σ) : Hardware σ :=
  { h with board := Board.setInterrupt enabled h.board }

/-- Changes the packet memory. -/
def mapDpram (f : Memory Dpram.size → Memory Dpram.size) (h : Hardware σ) : Hardware σ :=
  { h with dpram := f h.dpram }

/-- Lets the controller be changed from its other side, the bus. -/
def mapController (f : Controller → Controller) (h : Hardware σ) : Hardware σ :=
  { h with toController := f h.toController }

end Hardware

end UsbGadget
