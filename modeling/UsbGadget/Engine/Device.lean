import UsbGadget.Engine.Session

/-!
# The device

A `Device` is the hardware and, while it is open, a session. `Device.open`, `Device.close`,
`Device.submit` and `Device.interrupt` are what its owner calls; each returns its effects besides
its result, and the hardware afterwards is the replay of those effects.

An interrupt is handled event by event, in the order of `Event.reported`: each is acknowledged and
then handed to the session.
-/

namespace UsbGadget

/-- A device on its board. -/
structure Device (σ : Type) where
  /-- The hardware. -/
  hw : Hardware σ
  /-- The session, while the device is open. -/
  session : Option Session := none

/-! ### Bringing the controller up and down -/

/-- What brings the controller up as a device with the given endpoints. The host notices when the
pull-up is switched on, which comes last. -/
def bringUp (endpoints : List Endpoint) : List Effect :=
  [.reset, .clear,
    .write .usbMuxing (Word.ofBits [Bit.toPhy, Bit.softCon]),
    .write .usbPwr (Word.ofBits [Bit.vbusDetect, Bit.vbusOverride]),
    .write .mainCtrl (Word.only Bit.controllerOn),
    .write .sieCtrl (Word.only Bit.ep0Report),
    .write .inte (Word.ofBits [Bit.bufferInterrupt, Bit.resetInterrupt, Bit.setupInterrupt])] ++
    endpoints.map .enable ++
    [.write .sieCtrl (Word.ofBits [Bit.ep0Report, Bit.pullUp]), .line true]

/-- What shuts the controller down. -/
def shutDown : List Effect := [.line false, .reset, .clear]

namespace Device

variable {σ : Type} [Board σ]

/-- The device is open. -/
def isOpen (d : Device σ) : Bool := d.session.isSome

/-- The address assigned by the host; 0 if there is none. -/
def address (d : Device σ) : UInt8 := (d.session.map (·.control.address)).getD 0

/-- The host has chosen a configuration since the bus was last reset. -/
def isConfigured (d : Device σ) : Bool := (d.session.map (·.control.configured)).getD false

/-- The phase of the current control transfer. -/
def phase (d : Device σ) : ControlPhase := (d.session.map (·.control.phase)).getD .idle

/-- The configuration in use. -/
def configuration (d : Device σ) : Option Configuration := d.session.map (·.configuration)

/-- The descriptors in use. -/
def descriptors (d : Device σ) : Option DescriptorSet := d.session.map (·.descriptors)

/-- The device after the given effects, with its session replaced. -/
def after (d : Device σ) (log : List Effect) (session : Option Session) : Device σ :=
  ⟨replay log d.hw, session⟩

/-- Opens the device as described. The hardware is left alone unless the description is in order. -/
def «open» (d : Device σ) (description : DeviceDescription) :
    Except OpenError Unit × Device σ × List Effect :=
  match d.session with
  | some _ => (.error .alreadyOpen, d, [])
  | none =>
    match Session.ofDescription description with
    | .error e => (.error e, d, [])
    | .ok s =>
      let log := bringUp s.endpoints
      (.ok (), d.after log (some s), log)

/-- Closes the device. Packets on their way are dropped and their handlers are not called. -/
def close (d : Device σ) : Device σ × List Effect :=
  match d.session with
  | none => (d, [])
  | some _ => (d.after shutDown none, shutDown)

/-- Hands a packet of an interface's endpoint over, and tells whether there is such an endpoint. -/
def submit (d : Device σ) (interface address : UInt8) (data : List UInt8) :
    Bool × Device σ × List Effect :=
  match d.session with
  | none => (false, d, [])
  | some s =>
    let (s, log, answer) := s.submit interface address data
    (answer, d.after log (some s), log)

/-- Handles one event. -/
def handle (d : Device σ) (event : Event) : Device σ × List Effect :=
  match d.session with
  | none => (d, [])
  | some s =>
    let (s, log) := s.react d.hw.dpram event
    let log := event.acknowledge :: log
    (d.after log (some s), log)

/-- Handles events in order. -/
def handleAll (d : Device σ) : List Event → Device σ × List Effect
  | [] => (d, [])
  | event :: events =>
    let (d, log) := d.handle event
    let (d, log') := d.handleAll events
    (d, log ++ log')

/-- The events that the hardware reports. -/
def pending (d : Device σ) : List Event :=
  Event.reported (d.hw.read .ints) (d.hw.read .buffStatus)

/-- Services the interrupt. A closed device takes no notice. -/
def interrupt (d : Device σ) : Device σ × List Effect := d.handleAll d.pending

end Device

end UsbGadget
