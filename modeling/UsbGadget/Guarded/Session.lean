import UsbGadget.Engine.Session
import UsbGadget.Guarded.Description

/-!
# Sessions, guarded

The operations of `Session` with every access checked. What the plain session leaves open is spelt
out here where it can go wrong: descriptors are put together in a scratch buffer of one packet and
sent from there, a string unit by unit; a packet that came back is copied from the packet memory to
a buffer of one packet; the SETUP packet is copied word by word.

The operations on the hardware are `writePacket`, `arm` and `clear` for the packet memory as a
whole.
-/

namespace UsbGadget

namespace Guarded

/-! ### Opening -/

/-- The endpoint that a description of an interface's endpoint stands for. -/
def makeEndpoint (interface : UInt8) (e : EndpointDescription) : Except Stop Endpoint := do
  let bufferOffset ← bufferOffset e
  pure
    { interface := interface
      address := e.address
      maxPacketSize := e.maxPacketSize.toNat
      owner := Endpoint.ownerOf interface e
      nextPid := .data0
      transfer := e.attributes.transfer
      bufferOffset := bufferOffset
      bufferControl := e.bufferControl
      endpointControl := e.endpointControl }

/-- The endpoints of a configuration, in order. -/
def endpointsFor (c : Configuration) : Except Stop (List Endpoint) := do
  let groups ← c.interfaces.mapM fun i => do
    let endpoints ← lift (slice c.endpoints i.start i.stop)
    endpoints.mapM (makeEndpoint i.id)
  pure groups.flatten

/-- The session that a device description asks for. -/
def openSession (d : DeviceDescription) : Except Stop Session := do
  let configuration ← check d
  let descriptors ← assemble configuration
  let endpoints ← endpointsFor configuration
  pure ⟨configuration, descriptors, endpoints, {}⟩

/-- A refusal is an answer, and only a fault is not. -/
def settle {α : Type} : Except Stop α → Except Fault (Except OpenError α)
  | .ok a => pure (.ok a)
  | .error (.refused reason) => pure (.error (.refused reason))
  | .error (.fault f) => throw f

/-! ### The packet memory -/

/-- Copies bytes into the packet memory. -/
def writePacket (m : Memory Dpram.size) (offset : Nat) (bytes : List UInt8) :
    Except Fault (Memory Dpram.size) := do
  let stop ← sum sizeWidth offset bytes.length
  if Dpram.size < stop then
    throw (.outside offset bytes.length)
  pure (m.writeBytes offset bytes)

/-- Copies bytes out of the packet memory. -/
def readPacket (m : Memory Dpram.size) (offset count : Nat) : Except Fault (List UInt8) := do
  let stop ← sum sizeWidth offset count
  if Dpram.size < stop then
    throw (.outside offset count)
  pure (m.readBytes offset count)

/-- Switches an endpoint on. -/
def enableEndpoint (e : Endpoint) (m : Memory Dpram.size) : Except Fault (Memory Dpram.size) :=
  match e.endpointControl with
  | none => pure m
  | some i => do
    index i Dpram.endpointControls
    pure (m.writeWord (Dpram.endpointControlOffset i) e.controlWord)

/-- Hands a packet to the controller. -/
def armEndpoint (e : Endpoint) (data : List UInt8) (m : Memory Dpram.size) :
    Except Fault (Memory Dpram.size) := do
  let filled ← if e.direction = .input then writePacket m e.bufferOffset data else pure m
  index e.bufferControl Dpram.bufferControls
  pure (filled.writeWord (Dpram.bufferControlOffset e.bufferControl) (e.armWord data.length))

/-- The bytes of the packet that came back, by way of a buffer of one packet. -/
def completedData (e : Endpoint) (m : Memory Dpram.size) : Except Fault (List UInt8) := do
  index e.bufferControl Dpram.bufferControls
  let length := e.completedLength m
  let bytes ← readPacket m e.bufferOffset length
  let buffer ← fill (.zero : Memory Dpram.bufferSize) 0 length bytes
  view buffer 0 length

/-- The SETUP packet, copied from the two words in which it lies. -/
def readSetup (m : Memory Dpram.size) : Except Fault (Option SetupPacket) := do
  let packet ← fill (.zero : Memory 8) 0 4 (m.word 0).bytes
  let packet ← fill packet 4 8 (m.word 4).bytes
  pure (SetupPacket.ofBytes? (packet.readBytes 0 8))

/-- Sets the words from an offset on to 0. -/
def clearWords (m : Memory Dpram.size) (offset count : Nat) : Memory Dpram.size :=
  (List.range count).foldl (fun m i => m.writeWord (offset + 4 * i) 0) m

/-- How many slots there are for packet buffers. -/
def slots : Nat := (Dpram.size - Dpram.ep0Buffer) / Dpram.bufferSize

/-- Sets the whole packet memory to 0: the SETUP packet, the control registers and the packet
buffers. -/
def clear (m : Memory Dpram.size) : Except Fault (Memory Dpram.size) :=
  let m := clearWords m 0 2
  let m := clearWords m (Dpram.endpointControlOffset 0) Dpram.endpointControls
  let m := clearWords m (Dpram.bufferControlOffset 0) Dpram.bufferControls
  (List.range slots).foldlM (fun m i =>
    writePacket m (Dpram.ep0Buffer + Dpram.bufferSize * i) (List.replicate Dpram.bufferSize 0)) m

/-! ### Descriptors -/

/-- Where descriptors are put together: as much memory as one packet of endpoint 0. -/
abbrev Scratch := Memory packetLimit

/-- Copies a descriptor to the scratch buffer, as far as it fits, and tells how much that is. -/
def stage (scratch : Scratch) (bytes : List UInt8) : Except Fault (Scratch × Nat) := do
  let length := min bytes.length packetLimit
  let front ← slice bytes 0 length
  let scratch ← fill scratch 0 length front
  pure (scratch, length)

/-- Writes the units of a text behind what the scratch buffer holds, as long as there is room. -/
def stageUnits (scratch : Scratch) (length : Nat) : List UInt16 → Except Fault (Scratch × Nat)
  | [] => pure (scratch, length)
  | unit :: units => do
    let stop ← sum sizeWidth length 2
    if packetLimit < stop then
      pure (scratch, length)
    else
      let scratch ← fill scratch length stop (halfBytes unit)
      stageUnits scratch stop units

/-- Writes the descriptor of a text to the scratch buffer. -/
def stageText (scratch : Scratch) (s : String) : Except Fault (Scratch × Nat) := do
  let (scratch, length) ← stageUnits scratch 2 (Utf16.encode s)
  let scratch ← fill scratch 0 1 [UInt8.ofNat length]
  let scratch ← fill scratch 1 2 [DescriptorKind.string.byte]
  pure (scratch, length)

/-- Writes the string descriptor with the given index to the scratch buffer, if there is one. -/
def stageString (d : DescriptorSet) (scratch : Scratch) (stringIndex : UInt8) :
    Except Fault (Scratch × Nat) :=
  if stringIndex = 0 then do
    let scratch ← fill scratch 0 4 languageDescriptor
    pure (scratch, 4)
  else do
    let i ← difference stringIndex.toNat 1
    match d.strings[i]? with
    | none => pure (scratch, 0)
    | some s => stageText scratch s

/-- Writes the descriptor that a request asks for to the scratch buffer, and tells how long it is;
`none` if it is of a kind that is not served. -/
def stageRequested (d : DescriptorSet) (scratch : Scratch) (p : SetupPacket) :
    Except Fault (Option (Scratch × Nat)) :=
  match DescriptorKind.ofCode? (p.value.toNat / 256) with
  | some .device => some <$> stage scratch d.device.bytes
  | some .configuration => do
    let stop := if d.totalLength ≤ p.length.toNat then d.totalLength else 9
    let bytes ← slice d.records 0 stop
    some <$> stage scratch bytes
  | some .string => some <$> stageString d scratch (UInt8.ofNat p.value.toNat)
  | _ => pure none

/-- Answers a request for a descriptor. -/
def getDescriptor (c : Control) (d : DescriptorSet) (scratch : Scratch) (limit : Nat)
    (p : SetupPacket) : Except Fault ((Control × Reply) × Scratch) := do
  match ← stageRequested d scratch p with
  | none => pure (({ c with phase := .idle }, .silent), scratch)
  | some (scratch, length) =>
    let data ← view scratch 0 (min length p.length.toNat)
    let fitting := min data.length limit
    let c :=
      { c with phase := .sending, emptyPending := fitting == limit && fitting < p.length.toNat }
    pure ((c, .send data), scratch)

/-- A SETUP packet has come in. Only a request for a descriptor does anything that can go wrong. -/
def controlSetup (c : Control) (d : DescriptorSet) (scratch : Scratch) (limit : Nat)
    (p : SetupPacket) : Except Fault ((Control × Reply) × Scratch) :=
  match p.direction, p.standardRequest? with
  | .input, some .getDescriptor => getDescriptor { c with emptyPending := false } d scratch limit p
  | _, _ => pure (c.setup d limit p, scratch)

/-! ### Transfers -/

/-- Hands a packet of the endpoint at a position to the controller. -/
def arm (s : Session) (position : Nat) (data : List UInt8) :
    Except Fault (Session × List Effect) :=
  match s.endpoints[position]? with
  | none => pure (s, [])
  | some e => do
    let clipped ← slice data 0 (min data.length e.maxPacketSize)
    pure ({ s with endpoints := s.endpoints.set position e.advance }, [.arm e clipped])

/-- Hands a packet of an interface's endpoint over. -/
def submit (s : Session) (interface address : UInt8) (data : List UInt8) :
    Except Fault (Session × List Effect × Bool) :=
  match s.position? interface address with
  | none => pure (s, [], false)
  | some position => do
    let (s, log) ← arm s position data
    pure (s, log, true)

/-- Runs what a handler does. -/
def runHandler (s : Session) : Program → Except Fault (Session × List Effect × List Bool)
  | .done => pure (s, [], [])
  | .askConfigured next => do
    let answer := s.control.configured
    let (s, log, answers) ← runHandler s (next answer)
    pure (s, log, answer :: answers)
  | .submit interface address data next => do
    let (s, log, answer) ← submit s interface address data
    let (s, log', answers) ← runHandler s (next answer)
    pure (s, log ++ log', answer :: answers)

/-! ### Events -/

/-- Goes on from a step of the control machine. -/
def proceed (s : Session) (step : Control × Reply) : Except Fault (Session × List Effect) :=
  let s := { s with control := step.1 }
  match step.2 with
  | .silent => pure (s, [])
  | .send data => arm s Session.ep0In data
  | .receive => arm s Session.ep0Out []
  | .moveTo address => pure (s, [.write .addrEndp (UInt32.ofNat address.toNat)])

/-- A SETUP packet has come in. -/
def setup (s : Session) (scratch : Scratch) (p : SetupPacket) :
    Except Fault ((Session × List Effect) × Scratch) := do
  let s := (s.setPid Session.ep0In .data1).setPid Session.ep0Out .data1
  let (step, scratch) ← controlSetup s.control s.descriptors scratch s.ep0Limit p
  let result ← proceed s step
  pure (result, scratch)

/-- A packet of an endpoint is done. -/
def completed (s : Session) (e : Endpoint) (data : List UInt8) :
    Except Fault (Session × List Effect) :=
  match e.owner with
  | .control =>
    match e.direction with
    | .input => proceed s s.control.sent
    | .output => proceed s s.control.received
  | .caller none => pure (s, [])
  | .caller (some handler) => do
    let (s, log, answers) ← runHandler s (handler.onData data)
    pure (s, .call handler.name data answers :: log)

/-- Handles an event that was acknowledged. -/
def react (s : Session) (scratch : Scratch) (m : Memory Dpram.size) :
    Event → Except Fault ((Session × List Effect) × Scratch)
  | .setup => do
    match ← readSetup m with
    | none => pure ((s, []), scratch)
    | some packet =>
      let ((s, log), scratch) ← setup s scratch packet
      pure ((s, .heed packet :: log), scratch)
  | .buffer i =>
    match s.endpoints.find? (·.address == Event.bufferAddress i) with
    | none => pure ((s, []), scratch)
    | some e => do
      let data ← completedData e m
      let (s, log) ← completed s e data
      pure ((s, .collect e data :: log), scratch)
  | .busReset => do
    let result ← proceed s s.control.busReset
    pure (result, scratch)

end Guarded

end UsbGadget
