import UsbGadget.Engine.Control
import UsbGadget.Engine.Event

/-!
# Sessions

A `Session` is everything that exists between opening and closing a device. Its endpoints stand in
the order of the configuration, so the two directions of endpoint 0 come first. All operations are
pure: they return the next session and their effects on the hardware.

* `Session.arm` hands a packet over, `Session.submit` finds the endpoint for it;
* `Session.run` runs what a handler does;
* `Session.setup`, `Session.completed` and `Session.busReset` are the three events of the bus, which
  `Session.react` finds in an interrupt's report.
-/

namespace UsbGadget

/-- Everything that exists while a device is open. -/
structure Session where
  /-- The configuration in use. -/
  configuration : Configuration
  /-- Its descriptors. -/
  descriptors : DescriptorSet
  /-- The endpoints, in the order of the configuration. -/
  endpoints : List Endpoint
  /-- Where endpoint 0 stands. -/
  control : Control

namespace Session

/-- The endpoints of a configuration, in order. -/
def endpointsFor (c : Configuration) : Except Refusal (List Endpoint) := do
  let groups ← c.interfaces.mapM fun i =>
    (c.endpointsOf i).mapM (Endpoint.ofDescription i.id)
  pure groups.flatten

/-- The session that a device description asks for. -/
def ofDescription (d : DeviceDescription) : Except OpenError Session := do
  let configuration ← d.checked.mapError .refused
  let descriptors ← (DescriptorSet.assemble configuration).mapError .ofAssemblyError
  let endpoints ← (endpointsFor configuration).mapError .refused
  pure ⟨configuration, descriptors, endpoints, {}⟩

/-! ### Transfers -/

/-- Position of the IN half of endpoint 0. -/
def ep0In : Nat := 0

/-- Position of the OUT half of endpoint 0. -/
def ep0Out : Nat := 1

/-- Hands a packet of the endpoint at a position to the controller; data that does not fit in a
packet is dropped. -/
def arm (s : Session) (position : Nat) (data : List UInt8) : Session × List Effect :=
  match s.endpoints[position]? with
  | none => (s, [])
  | some e =>
    ({ s with endpoints := s.endpoints.set position e.advance }, [.arm e (e.clip data)])

/-- The position of the first endpoint of an interface with an address. -/
def position? (s : Session) (interface address : UInt8) : Option Nat :=
  s.endpoints.findIdx? fun e => e.interface == interface && e.address == address

/-- Hands a packet of an interface's endpoint over, and tells whether there is such an endpoint. -/
def submit (s : Session) (interface address : UInt8) (data : List UInt8) :
    Session × List Effect × Bool :=
  match s.position? interface address with
  | none => (s, [], false)
  | some position =>
    let (s, log) := s.arm position data
    (s, log, true)

/-- Runs what a handler does; the last part are the answers that it gets. -/
def run (s : Session) : Program → Session × List Effect × List Bool
  | .done => (s, [], [])
  | .askConfigured next =>
    let answer := s.control.configured
    let (s, log, answers) := s.run (next answer)
    (s, log, answer :: answers)
  | .submit interface address data next =>
    let (s, log, answer) := s.submit interface address data
    let (s, log', answers) := s.run (next answer)
    (s, log ++ log', answer :: answers)

/-! ### Events -/

/-- Goes on from a step of the control machine: takes its next state and does what it replied. -/
def proceed (s : Session) (step : Control × Reply) : Session × List Effect :=
  let s := { s with control := step.1 }
  match step.2 with
  | .silent => (s, [])
  | .send data => s.arm ep0In data
  | .receive => s.arm ep0Out []
  | .moveTo address => (s, [.write .addrEndp (UInt32.ofNat address.toNat)])

/-- Sets the identifier of the next packet of the endpoint at a position. -/
def setPid (s : Session) (position : Nat) (pid : Pid) : Session :=
  { s with endpoints := s.endpoints.modify position fun e => { e with nextPid := pid } }

/-- The largest packet of endpoint 0. -/
def ep0Limit (s : Session) : Nat := (s.endpoints[ep0In]?.map Endpoint.maxPacketSize).getD 0

/-- A SETUP packet has come in: data after it starts with `data1` in both directions. -/
def setup (s : Session) (p : SetupPacket) : Session × List Effect :=
  let s := (s.setPid ep0In .data1).setPid ep0Out .data1
  s.proceed (s.control.setup s.descriptors s.ep0Limit p)

/-- A packet of an endpoint is done; `data` are the bytes in its buffer. -/
def completed (s : Session) (e : Endpoint) (data : List UInt8) : Session × List Effect :=
  match e.owner with
  | .control =>
    match e.direction with
    | .input => s.proceed s.control.sent
    | .output => s.proceed s.control.received
  | .caller none => (s, [])
  | .caller (some handler) =>
    let (s, log, answers) := s.run (handler.onData data)
    (s, .call handler.name data answers :: log)

/-- The host has reset the bus. -/
def busReset (s : Session) : Session × List Effect := s.proceed s.control.busReset

/-- Handles an event that was acknowledged, with the packet memory as it is then. A buffer that
belongs to no endpoint is left alone. -/
def react (s : Session) (dpram : Memory Dpram.size) : Event → Session × List Effect
  | .setup =>
    let packet := SetupPacket.inMemory dpram
    let (s, log) := s.setup packet
    (s, .heed packet :: log)
  | .buffer index =>
    match s.endpoints.find? (·.address == Event.bufferAddress index) with
    | none => (s, [])
    | some e =>
      let data := e.completedData dpram
      let (s, log) := s.completed e data
      (s, .collect e data :: log)
  | .busReset => s.busReset

end Session

end UsbGadget
