import UsbGadget.Engine.Device
import UsbGadget.Host

/-!
# Driving a device

A device is driven by its owner, by its interrupt and by the host, in any order. `Device.step` is
one step of any of them and `Device.run` takes steps in a row.
-/

namespace UsbGadget

/-- One step in the life of a device. -/
inductive DeviceStep where
  /-- The owner opens the device. -/
  | open (description : DeviceDescription)
  /-- The owner closes the device. -/
  | close
  /-- The owner submits a packet. -/
  | submit (interface address : UInt8) (data : List UInt8)
  /-- The interrupt is serviced. -/
  | interrupt
  /-- The interrupt is serviced, and the status bits go away. -/
  | service
  /-- Something happens on the other side of the controller. -/
  | host (step : HostStep)

namespace Device

variable {σ : Type} [Board σ]

/-- A device on a board, before anything has happened. -/
def blank (board : σ) : Device σ := ⟨⟨.blank, board⟩, none⟩

/-- Lets the controller be changed from its other side. -/
def mapController (d : Device σ) (f : Controller → Controller) : Device σ :=
  { d with hw := d.hw.mapController f }

/-- Takes one step: what it tells, the device afterwards and the effects of the engine. Only opening
can fail. -/
def step (d : Device σ) : DeviceStep → Except OpenError Outcome × Device σ × List Effect
  | .open description =>
    let (result, d, log) := d.open description
    (result.map fun _ => .silent, d, log)
  | .close =>
    let (d, log) := d.close
    (.ok .silent, d, log)
  | .submit interface address data =>
    let (answer, d, log) := d.submit interface address data
    (.ok (.answer answer), d, log)
  | .interrupt =>
    let (d, log) := d.interrupt
    (.ok .silent, d, log)
  | .service =>
    let (d, log) := d.interrupt
    (.ok .silent, d.mapController Controller.retire, log)
  | .host step =>
    let (outcome, c) := step.run d.hw.toController
    (.ok outcome, d.mapController fun _ => c, [])

/-- Takes steps in a row: the device afterwards and the effects of the engine. -/
def run (d : Device σ) : List DeviceStep → Device σ × List Effect
  | [] => (d, [])
  | step :: steps =>
    let (_, d, log) := d.step step
    let (d, log') := d.run steps
    (d, log ++ log')

end Device

end UsbGadget
