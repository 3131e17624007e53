import UsbGadget.Firmware.Boot
import UsbGadget.Firmware.Echo
import UsbGadget.Run

/-!
# The echo firmware

`Firmware` is a chip that runs the echo device. It boots, opens the device, and then sleeps until
something happens; each time it wakes it goes once round its main loop, which makes the echo ready
when the host has configured the device. The interrupt lights the LED while it is serviced.

`Firmware.step` is one step in any order, and `Firmware.cycle` is the rhythm of the chip: a step
while it sleeps, then a round of the main loop.
-/

namespace UsbGadget

/-- The chip with the echo device. -/
structure Firmware where
  /-- The device. -/
  device : Device Soc
  /-- The echo was made ready since the host last configured the device. -/
  started : Bool

/-- One step in the life of the firmware. -/
inductive FirmwareStep where
  /-- The main loop goes round once. -/
  | loop
  /-- The interrupt is serviced. -/
  | interrupt
  /-- The interrupt is serviced, and the status bits go away. -/
  | service
  /-- Something happens on the other side of the controller. -/
  | host (step : HostStep)

namespace Firmware

/-- The LED's bit in the registers that raise and lower pins. -/
def led : Word := Word.only Boot.ledPin

/-- Lets the hardware be changed. -/
def mapHardware (f : Firmware) (g : Hardware Soc → Hardware Soc) : Firmware :=
  { f with device := { f.device with hw := g f.device.hw } }

/-- Writes a register of the chip outside the controller. -/
def writeSoc (f : Firmware) (r : SocRegister) (w : Word) : Firmware :=
  f.mapHardware fun h => { h with board := h.board.write r w }

/-- Goes once round the main loop. -/
def mainLoop (f : Firmware) : Firmware × List Effect :=
  if !f.device.isConfigured then ({ f with started := false }, [])
  else if f.started then (f, [])
  else
    let (started, device, log) := f.device.submit Echo.interface Echo.outAddress Echo.room
    (⟨device, started⟩, log)

/-- Services the interrupt, with the LED on meanwhile. -/
def interrupt (f : Firmware) : Firmware × List Effect :=
  let f := f.writeSoc .gpioOutSet led
  let (device, log) := f.device.interrupt
  ({ f with device := device }.writeSoc .gpioOutClr led, log)

/-- Takes one step: what it tells, the firmware afterwards and the effects of the engine. -/
def step (f : Firmware) : FirmwareStep → Outcome × Firmware × List Effect
  | .loop =>
    let (f, log) := f.mainLoop
    (.silent, f, log)
  | .interrupt =>
    let (f, log) := f.interrupt
    (.silent, f, log)
  | .service =>
    let (f, log) := f.interrupt
    (.silent, f.mapHardware (·.mapController Controller.retire), log)
  | .host step =>
    let (outcome, c) := step.run f.device.hw.toController
    (outcome, f.mapHardware (·.mapController fun _ => c), [])

/-- Takes steps in a row: the firmware afterwards and the effects of the engine. -/
def run (f : Firmware) : List FirmwareStep → Firmware × List Effect
  | [] => (f, [])
  | step :: steps =>
    let (_, f, log) := f.step step
    let (f, log') := f.run steps
    (f, log ++ log')

/-- Takes the marks of the LED's last use away. -/
def forgetLed (f : Firmware) : Firmware := (f.writeSoc .gpioOutSet 0).writeSoc .gpioOutClr 0

/-- Wakes from sleep, by a step or for no reason, and goes round the main loop. The marks of the LED
afterwards are those of this cycle. -/
def cycle (f : Firmware) : Option FirmwareStep → Outcome × Firmware
  | none => (.silent, f.forgetLed.mainLoop.1)
  | some step =>
    let (outcome, f, _) := f.forgetLed.step step
    (outcome, f.mainLoop.1)

/-- A chip that nothing has run on yet, with the given blocks held in reset. -/
def off (resets : Word) : Firmware := ⟨Device.blank (Soc.fresh resets), false⟩

/-- The chip after the start-up, with the device open. -/
def opened (resets : Word) : Firmware × List Effect :=
  let chip : Device Soc := .blank (Boot.run (Soc.fresh resets))
  let (_, device, log) := chip.open Echo.device
  (⟨device, false⟩, log)

/-- Boots the chip, up to its first sleep. -/
def boot (resets : Word) : Firmware := (opened resets).1.mainLoop.1

/-- Every word of the chip with its address, in the order of the addresses. -/
def words (f : Firmware) : List (Nat × Word) :=
  let soc := f.device.hw.board
  let located (base : Nat) (words : List (Nat × Word)) := words.map fun w => (base + w.1, w.2)
  SocRegister.below.map (fun r => (r.address, soc.read r)) ++
    located Dpram.base.toNat f.device.hw.dpram.words ++
    located Register.base f.device.hw.regs.words ++
    SocRegister.above.map fun r => (r.address, soc.read r)

end Firmware

end UsbGadget
