import UsbGadget.Description.Check
import UsbGadget.Descriptor.Text

/-!
# All descriptors of a device

`DescriptorSet.assemble` puts together what the host can ask for: the device record, the
configuration record with the records of all interfaces and their endpoints behind it, and the
strings. The assembly goes through the interfaces in order and keeps track of where each one starts.

A configuration put together by hand may have ranges that do not account for its endpoints; the
assembly then ends in `AssemblyError.rangesMismatch`.
-/

namespace UsbGadget

/-- Index of the vendor's name among the strings. -/
def vendorString : UInt8 := 1

/-- Index of the product's name. -/
def productString : UInt8 := 2

/-- Index of the serial number. -/
def serialString : UInt8 := 3

/-- Index of the name of the first interface; the others follow in order. -/
def firstInterfaceString : UInt8 := 4

namespace Configuration

/-- How long the records of a configuration are together, going by its lists. -/
def descriptorLength (c : Configuration) : Nat :=
  9 + 9 * c.interfaces.length + 7 * c.endpoints.length

/-- The device record. -/
def deviceRecord (c : Configuration) : DeviceRecord where
  usbVersion := 0x0110
  classCode := 0
  subclass := 0
  protocol := 0
  maxPacketSize := UInt8.ofNat controlPacketSize.toNat
  vendor := c.vendorId
  product := c.productId
  deviceVersion := c.productVersion
  vendorString := vendorString
  productString := productString
  serialString := if c.serial.isSome then serialString else 0
  configurations := 1

/-- The configuration record. The top bit of the attributes is reserved and has to be set. -/
def record (c : Configuration) : ConfigurationRecord where
  totalLength := UInt16.ofNat c.descriptorLength
  interfaces := UInt8.ofNat c.interfaces.length
  value := 1
  nameString := 0
  attributes := 0x80 ||| c.flags.bits
  maxPower := UInt8.ofNat (c.maxPower.toNat / 2)

end Configuration

namespace EndpointDescription

/-- The endpoint is counted in its interface's record: all are but the OUT half of endpoint 0. -/
def counted (e : EndpointDescription) : Bool := !(e.number == 0 && e.direction == .output)

/-- The endpoint record. -/
def record (e : EndpointDescription) : EndpointRecord where
  address := e.address
  attributes := e.attributes.byte
  maxPacketSize := e.maxPacketSize
  interval := e.interval

end EndpointDescription

namespace Interface

/-- Index of the name of the interface at a position; 0 if its name is empty. -/
def nameString (i : Interface) (position : Nat) : UInt8 :=
  if i.name = "" then 0 else firstInterfaceString + UInt8.ofNat position

/-- The record of the interface at a position, with the given endpoints. -/
def record (i : Interface) (position : Nat) (endpoints : List EndpointDescription) :
    InterfaceRecord where
  number := i.id
  alternate := 0
  endpoints := UInt8.ofNat (endpoints.countP (·.counted))
  classCode := i.classCode
  subclass := i.subclass
  protocol := i.protocol
  nameString := i.nameString position

end Interface

/-! ### Assembly -/

/-- The texts with one more behind them, if it fits in a packet. -/
def pushString (strings : List String) (s : String) : Except AssemblyError (List String) :=
  if packetLimit < stringDescriptorLength s then .error (.refused .stringTooLong)
  else .ok (strings ++ [s])

/-- The descriptors assembled so far. -/
structure Assembly where
  /-- The records of the configuration. -/
  bytes : List UInt8
  /-- Where the record of each interface starts. -/
  starts : List Nat
  /-- The strings from string 1 on. -/
  strings : List String

namespace Assembly

/-- Adds a record, if it still fits in a packet. -/
def append (a : Assembly) (record : List UInt8) : Except AssemblyError Assembly :=
  if a.bytes.length + record.length ≤ packetLimit then
    .ok { a with bytes := a.bytes ++ record }
  else .error .rangesMismatch

/-- Adds the records and the name of the interface at a position. -/
def addInterface (c : Configuration) (a : Assembly) (entry : Interface × Nat) :
    Except AssemblyError Assembly := do
  let (i, position) := entry
  match c.endpointsOf? i with
  | none => throw .rangesMismatch
  | some endpoints =>
    let strings ← pushString a.strings i.name
    let a : Assembly := { a with strings := strings, starts := a.starts ++ [a.bytes.length] }
    let a ← a.append (i.record position endpoints).bytes
    endpoints.foldlM (fun a e => a.append e.record.bytes) a

end Assembly

/-- Everything that the host can ask for. -/
structure DescriptorSet where
  /-- The device record. -/
  device : DeviceRecord
  /-- The configuration record and the records of all interfaces and endpoints. -/
  records : List UInt8
  /-- Where the record of each interface starts. -/
  starts : List Nat
  /-- The strings from string 1 on. -/
  strings : List String
deriving DecidableEq

namespace DescriptorSet

/-- Assembles the descriptors of a configuration. The records have to fit in a packet, and so has
each string. -/
def assemble (c : Configuration) : Except AssemblyError DescriptorSet := do
  if packetLimit < c.descriptorLength then
    throw (.refused .descriptorTooLarge)
  let strings ← [c.vendor, c.product, c.serial.getD ""].foldlM pushString []
  let a ← c.interfaces.zipIdx.foldlM (Assembly.addInterface c) ⟨c.record.bytes, [], strings⟩
  if a.bytes.length = c.descriptorLength then
    pure ⟨c.deviceRecord, a.bytes, a.starts, a.strings⟩
  else
    throw .rangesMismatch

/-- How long the records of the configuration are together. -/
def totalLength (d : DescriptorSet) : Nat := d.records.length

/-- The configuration record by itself. -/
def header (d : DescriptorSet) : List UInt8 := d.records.take 9

/-- The records of the interface at a position. -/
def interface? (d : DescriptorSet) (position : Nat) : Option (List UInt8) :=
  d.starts[position]?.map fun start =>
    let stop := d.starts[position + 1]?.getD d.totalLength
    (d.records.drop start).take (stop - start)

/-- How many strings there are besides string 0. -/
def stringCount (d : DescriptorSet) : Nat := d.strings.length

/-- The string descriptor with the given index. -/
def string? (d : DescriptorSet) (index : UInt8) : Option (List UInt8) :=
  if index = 0 then some languageDescriptor
  else d.strings[index.toNat - 1]?.map stringDescriptor

/-- Writes the string descriptor with the given index over the front of a buffer, and tells how
long it is. -/
def copyString (d : DescriptorSet) (index : UInt8) (buffer : List UInt8) :
    Option (Nat × List UInt8) :=
  (d.string? index).map fun bytes => (bytes.length, bytes ++ buffer.drop bytes.length)

end DescriptorSet

end UsbGadget
