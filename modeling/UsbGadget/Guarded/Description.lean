import UsbGadget.Description.Check
import UsbGadget.Descriptor.Assembly
import UsbGadget.Guarded.Access

/-!
# Checking and assembling, guarded

`Guarded.check` and `Guarded.assemble` do what `DeviceDescription.checked` and
`DescriptorSet.assemble` do, with every range and every sum checked. They stop for one of two
reasons (`Stop`): the description is refused, which is an answer, or something went wrong.

The records of a configuration are copied into a block of memory as large as a packet, at a running
offset; the ranges of the interfaces are ranges of the list of endpoints.
-/

namespace UsbGadget

/-- Why a guarded check stops. -/
inductive Stop where
  /-- Something went wrong. -/
  | fault (f : Fault)
  /-- The description is refused. -/
  | refused (reason : Refusal)
deriving DecidableEq, Repr

namespace Guarded

/-- A computation that can only go wrong, as one that can also refuse. -/
def lift {α : Type} (x : Except Fault α) : Except Stop α := x.mapError .fault

/-! ### The check -/

/-- The offset of an endpoint's buffer. -/
def bufferOffset (e : EndpointDescription) : Except Stop Nat :=
  match e.dataBuffer.offset Dpram.base with
  | none => throw (.refused .bufferOutsideDpram)
  | some offset => do
    let stop ← lift (sum 32 offset (legalPacketSize e.maxPacketSize).toNat)
    if offset < Dpram.ep0Buffer ∨ Dpram.size < stop then throw (.refused .bufferOutsideDpram)
    else if offset % Dpram.bufferSize ≠ 0 then throw (.refused .misalignedBuffer)
    else pure offset

/-- The endpoint with its packet size rounded. -/
def checkEndpoint (e : EndpointDescription) : Except Stop EndpointDescription := do
  let _ ← bufferOffset e
  if e.registersExist then
    pure { e with maxPacketSize := legalPacketSize e.maxPacketSize }
  else
    throw (.refused .noSuchRegister)

/-- Adds an endpoint. -/
def addEndpoint (t : Tables) (e : EndpointDescription) : Except Stop Tables := do
  let e ← checkEndpoint e
  if t.endpoints.length < maxEndpoints then
    pure { t with endpoints := t.endpoints ++ [e] }
  else
    throw (.refused .tooManyEndpoints)

/-- Adds an interface with its endpoints. -/
def addInterface (t : Tables) (i : InterfaceDescription) : Except Stop Tables := do
  let t' ← (i.endpoints.take listLimit).foldlM addEndpoint t
  if t'.interfaces.length < maxInterfaces then
    let interface : Interface :=
      { i.toInterfaceInfo with start := t.endpoints.length, stop := t'.endpoints.length }
    pure { t' with interfaces := t'.interfaces ++ [interface] }
  else
    throw (.refused .tooManyInterfaces)

/-- The configuration that a device description stands for. -/
def check (d : DeviceDescription) : Except Stop Configuration := do
  let callers ← lift (slice d.interfaces 0 (min d.interfaces.length listLimit))
  if callers.any (·.id == 0) then
    throw (.refused .reservedInterface)
  let tables ← (.control :: callers).foldlM addInterface {}
  pure { d.toDeviceInfo.tidy with
    interfaces := tables.interfaces
    endpoints := tables.endpoints }

/-! ### The assembly -/

/-- The descriptors assembled so far. -/
structure Block where
  /-- The memory for the records. -/
  memory : Memory packetLimit
  /-- How much of it is in use. -/
  used : Nat
  /-- Where the record of each interface starts. -/
  starts : List Nat
  /-- The strings from string 1 on. -/
  strings : List String

/-- Adds a text, if its descriptor fits in a packet. -/
def pushString (strings : List String) (s : String) : Except Stop (List String) := do
  let units ← lift (product sizeWidth 2 (Utf16.length s))
  let length ← lift (sum sizeWidth 2 units)
  if packetLimit < length then
    throw (.refused .stringTooLong)
  pure (strings ++ [s])

/-- Copies a record behind those before it. -/
def append (b : Block) (record : List UInt8) : Except Fault Block := do
  let stop ← sum sizeWidth b.used record.length
  let memory ← fill b.memory b.used stop record
  pure { b with memory := memory, used := stop }

/-- Index of the name of the interface at a position; the position counts as a byte. -/
def nameString (i : Interface) (position : Nat) : Except Fault UInt8 :=
  if i.name = "" then pure 0
  else do
    let index ← sum 8 firstInterfaceString.toNat (UInt8.ofNat position).toNat
    pure (.ofNat index)

/-- Adds the records and the name of the interface at a position. -/
def addRecords (c : Configuration) (b : Block) (entry : Interface × Nat) : Except Stop Block := do
  let (i, position) := entry
  let endpoints ← lift (slice c.endpoints i.start i.stop)
  let name ← lift (nameString i position)
  let strings ← pushString b.strings i.name
  let b : Block := { b with strings := strings, starts := b.starts ++ [b.used] }
  let record := { i.record position endpoints with nameString := name }
  let b ← lift (append b record.bytes)
  lift (endpoints.foldlM (fun b e => append b e.record.bytes) b)

/-- How long the records of a configuration are together, going by its lists. -/
def descriptorLength (c : Configuration) : Except Fault Nat := do
  let interfaces ← product sizeWidth c.interfaces.length 9
  let front ← sum sizeWidth 9 interfaces
  let endpoints ← product sizeWidth c.endpoints.length 7
  sum sizeWidth front endpoints

/-- Assembles the descriptors of a configuration. -/
def assemble (c : Configuration) : Except Stop DescriptorSet := do
  let total ← lift (descriptorLength c)
  if packetLimit < total then
    throw (.refused .descriptorTooLarge)
  let strings ← [c.vendor, c.product, c.serial.getD ""].foldlM pushString []
  let record := { c.record with totalLength := .ofNat total }
  let b ← lift (append ⟨.zero, 0, [], strings⟩ record.bytes)
  let b ← c.interfaces.zipIdx.foldlM (addRecords c) b
  if b.used ≠ total then
    throw (.fault (.records b.used total))
  let records ← lift (view b.memory 0 total)
  pure ⟨c.deviceRecord, records, b.starts, b.strings⟩

end Guarded

end UsbGadget
