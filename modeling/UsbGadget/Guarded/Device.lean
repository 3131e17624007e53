import UsbGadget.Guarded.Session
import UsbGadget.Run

/-!
# Driving a device, guarded

The operations of `Device` with every access checked: `Guarded.step` is one step and `Guarded.run`
takes steps in a row. Besides what its owner, its interrupt and the host do, the registers and the
whole packet memory may be overwritten with anything between two steps (`Turn.overwrite`).

`Device.turn` and `Device.turns` are the same for a device that is not guarded.
-/

namespace UsbGadget

/-- One turn in the life of a device, with hardware that nothing is known about. -/
inductive Turn where
  /-- A step of the device's owner, its interrupt or the host. -/
  | step (s : DeviceStep)
  /-- The registers and the packet memory are replaced. -/
  | overwrite (c : Controller)

namespace Device

variable {σ : Type} [Board σ]

/-- Takes one turn. -/
def turn (d : Device σ) : Turn → Except OpenError Outcome × Device σ × List Effect
  | .step s => d.step s
  | .overwrite c => (.ok .silent, d.mapController fun _ => c, [])

/-- Takes turns in a row: what they tell, the device afterwards and the effects of the engine. -/
def turns (d : Device σ) :
    List Turn → List (Except OpenError Outcome) × Device σ × List Effect
  | [] => ([], d, [])
  | t :: ts =>
    let (told, d, log) := d.turn t
    let (told', d, log') := d.turns ts
    (told :: told', d, log ++ log')

end Device

namespace Guarded

/-- A device with its scratch buffer. -/
structure Machine (σ : Type) extends Device σ where
  /-- Where descriptors are put together. -/
  scratch : Scratch

variable {σ : Type} [Board σ]

/-- What an effect does to the hardware. -/
def apply (h : Hardware σ) : Effect → Except Fault (Hardware σ)
  | .clear => do
    let dpram ← clear h.dpram
    pure (h.mapDpram fun _ => dpram)
  | .enable e => do
    let dpram ← enableEndpoint e h.dpram
    pure (h.mapDpram fun _ => dpram)
  | .arm e data => do
    let dpram ← armEndpoint e data h.dpram
    pure (h.mapDpram fun _ => dpram)
  | e => pure (e.apply h)

/-- The hardware after the effects of a log. -/
def replay (log : List Effect) (h : Hardware σ) : Except Fault (Hardware σ) := log.foldlM apply h

/-- The write that takes an event off the hardware's list. -/
def acknowledge : Event → Except Fault Effect
  | .buffer i => do
    let bit ← bitAt 32 i
    pure (.write .buffStatus (UInt32.ofNat bit))
  | event => pure event.acknowledge

/-- Opens the device as described. -/
def «open» (m : Machine σ) (description : DeviceDescription) :
    Except Fault (Except OpenError Unit × Machine σ × List Effect) :=
  match m.session with
  | some _ => pure (.error .alreadyOpen, m, [])
  | none => do
    match ← settle (openSession description) with
    | .error e => pure (.error e, m, [])
    | .ok s =>
      let log := bringUp s.endpoints
      let hw ← replay log m.hw
      pure (.ok (), ⟨⟨hw, some s⟩, .zero⟩, log)

/-- Closes the device. -/
def close (m : Machine σ) : Except Fault (Machine σ × List Effect) :=
  match m.session with
  | none => pure (m, [])
  | some _ => do
    let hw ← replay shutDown m.hw
    pure (⟨⟨hw, none⟩, m.scratch⟩, shutDown)

/-- Hands a packet of an interface's endpoint over. -/
def submitTo (m : Machine σ) (interface address : UInt8) (data : List UInt8) :
    Except Fault (Bool × Machine σ × List Effect) :=
  match m.session with
  | none => pure (false, m, [])
  | some s => do
    let (s, log, answer) ← submit s interface address data
    let hw ← replay log m.hw
    pure (answer, ⟨⟨hw, some s⟩, m.scratch⟩, log)

/-- Handles one event. -/
def handle (m : Machine σ) (event : Event) : Except Fault (Machine σ × List Effect) :=
  match m.session with
  | none => pure (m, [])
  | some s => do
    let acknowledgement ← acknowledge event
    let ((s, log), scratch) ← react s m.scratch m.hw.dpram event
    let log := acknowledgement :: log
    let hw ← replay log m.hw
    pure (⟨⟨hw, some s⟩, scratch⟩, log)

/-- Handles events in order. -/
def handleAll (m : Machine σ) : List Event → Except Fault (Machine σ × List Effect)
  | [] => pure (m, [])
  | event :: events => do
    let (m, log) ← handle m event
    let (m, log') ← handleAll m events
    pure (m, log ++ log')

/-- Services the interrupt. -/
def interrupt (m : Machine σ) : Except Fault (Machine σ × List Effect) := handleAll m m.pending

/-- Takes one step. -/
def step (m : Machine σ) :
    DeviceStep → Except Fault (Except OpenError Outcome × Machine σ × List Effect)
  | .open description => do
    let (result, m, log) ← «open» m description
    pure (result.map fun _ => .silent, m, log)
  | .close => do
    let (m, log) ← close m
    pure (.ok .silent, m, log)
  | .submit interface address data => do
    let (answer, m, log) ← submitTo m interface address data
    pure (.ok (.answer answer), m, log)
  | .interrupt => do
    let (m, log) ← interrupt m
    pure (.ok .silent, m, log)
  | .service => do
    let (m, log) ← interrupt m
    pure (.ok .silent, ⟨m.mapController Controller.retire, m.scratch⟩, log)
  | .host s =>
    let (outcome, c) := s.run m.hw.toController
    pure (.ok outcome, ⟨m.mapController fun _ => c, m.scratch⟩, [])

/-- Takes one turn. -/
def turn (m : Machine σ) :
    Turn → Except Fault (Except OpenError Outcome × Machine σ × List Effect)
  | .step s => step m s
  | .overwrite c => pure (.ok .silent, ⟨m.mapController fun _ => c, m.scratch⟩, [])

/-- Takes turns in a row. -/
def run (m : Machine σ) :
    List Turn → Except Fault (List (Except OpenError Outcome) × Machine σ × List Effect)
  | [] => pure ([], m, [])
  | t :: ts => do
    let (told, m, log) ← turn m t
    let (told', m, log') ← run m ts
    pure (told :: told', m, log ++ log')

end Guarded

end UsbGadget
