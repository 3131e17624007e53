import UsbGadget.Word

/-!
# Descriptor records

A descriptor is a record that opens with its own length and kind. `DeviceRecord`,
`ConfigurationRecord`, `InterfaceRecord` and `EndpointRecord` hold the fields of each, and `bytes`
is the record as it goes over the bus. The length and kind that the standard gives a record are the
defaults of its first two fields.
-/

namespace UsbGadget

/-- The kinds of descriptor that the standard defines. -/
inductive DescriptorKind where
  | device
  | configuration
  | string
  | interface
  | endpoint
deriving DecidableEq, Repr

namespace DescriptorKind

/-- The code of a kind in byte 1 of a descriptor. -/
def code : DescriptorKind → Nat
  | device => 1
  | configuration => 2
  | string => 3
  | interface => 4
  | endpoint => 5

/-- Every kind. -/
def all : List DescriptorKind := [device, configuration, string, interface, endpoint]

/-- The kind with the given code. -/
def ofCode? (n : Int) : Option DescriptorKind := all.find? fun k => k.code == n

/-- The code as a byte. -/
def byte (k : DescriptorKind) : UInt8 := .ofNat k.code

theorem ofCode?_code (k : DescriptorKind) : ofCode? k.code = some k := by cases k <;> rfl

end DescriptorKind

/-- The device as a whole. -/
structure DeviceRecord where
  /-- Length of the record. -/
  length : UInt8 := 18
  /-- Kind of the record. -/
  kind : DescriptorKind := .device
  /-- Version of the USB standard, in decimal digits. -/
  usbVersion : UInt16
  /-- Class of the device. -/
  classCode : UInt8
  /-- Subclass of the device. -/
  subclass : UInt8
  /-- Protocol within the subclass. -/
  protocol : UInt8
  /-- Largest packet on endpoint 0. -/
  maxPacketSize : UInt8
  /-- Number of the vendor. -/
  vendor : UInt16
  /-- Number of the product. -/
  product : UInt16
  /-- Version of the device, in decimal digits. -/
  deviceVersion : UInt16
  /-- Index of the vendor's name among the strings. -/
  vendorString : UInt8
  /-- Index of the product's name. -/
  productString : UInt8
  /-- Index of the serial number; 0 if there is none. -/
  serialString : UInt8
  /-- Number of configurations. -/
  configurations : UInt8
deriving DecidableEq, Repr

/-- One configuration of the device. -/
structure ConfigurationRecord where
  /-- Length of the record. -/
  length : UInt8 := 9
  /-- Kind of the record. -/
  kind : DescriptorKind := .configuration
  /-- Length of all records of the configuration together. -/
  totalLength : UInt16
  /-- Number of interfaces. -/
  interfaces : UInt8
  /-- The number by which the host chooses this configuration. -/
  value : UInt8
  /-- Index of the configuration's name; 0 if there is none. -/
  nameString : UInt8
  /-- Power source and wake-up flags. -/
  attributes : UInt8
  /-- Largest current drawn, in units of 2 mA. -/
  maxPower : UInt8
deriving DecidableEq, Repr

/-- One interface of a configuration. -/
structure InterfaceRecord where
  /-- Length of the record. -/
  length : UInt8 := 9
  /-- Kind of the record. -/
  kind : DescriptorKind := .interface
  /-- Number of the interface. -/
  number : UInt8
  /-- Which of the interface's alternatives this is. -/
  alternate : UInt8
  /-- Number of endpoints. -/
  endpoints : UInt8
  /-- Class of the interface. -/
  classCode : UInt8
  /-- Subclass of the interface. -/
  subclass : UInt8
  /-- Protocol within the subclass. -/
  protocol : UInt8
  /-- Index of the interface's name; 0 if there is none. -/
  nameString : UInt8
deriving DecidableEq, Repr

/-- One endpoint of an interface. -/
structure EndpointRecord where
  /-- Length of the record. -/
  length : UInt8 := 7
  /-- Kind of the record. -/
  kind : DescriptorKind := .endpoint
  /-- Direction and number. -/
  address : UInt8
  /-- Transfer, synchronization and usage type. -/
  attributes : UInt8
  /-- Largest packet. -/
  maxPacketSize : UInt16
  /-- Polling interval in frames. -/
  interval : UInt8
deriving DecidableEq, Repr

/-- The 18 bytes of a device record. -/
def DeviceRecord.bytes (r : DeviceRecord) : List UInt8 :=
  [r.length, r.kind.byte] ++ halfBytes r.usbVersion ++
    [r.classCode, r.subclass, r.protocol, r.maxPacketSize] ++ halfBytes r.vendor ++
    halfBytes r.product ++ halfBytes r.deviceVersion ++
    [r.vendorString, r.productString, r.serialString, r.configurations]

/-- The 9 bytes of a configuration record. -/
def ConfigurationRecord.bytes (r : ConfigurationRecord) : List UInt8 :=
  [r.length, r.kind.byte] ++ halfBytes r.totalLength ++
    [r.interfaces, r.value, r.nameString, r.attributes, r.maxPower]

/-- The 9 bytes of an interface record. -/
def InterfaceRecord.bytes (r : InterfaceRecord) : List UInt8 :=
  [r.length, r.kind.byte, r.number, r.alternate, r.endpoints, r.classCode, r.subclass, r.protocol,
    r.nameString]

/-- The 7 bytes of an endpoint record. -/
def EndpointRecord.bytes (r : EndpointRecord) : List UInt8 :=
  [r.length, r.kind.byte, r.address, r.attributes] ++ halfBytes r.maxPacketSize ++ [r.interval]

@[simp] theorem ConfigurationRecord.length_bytes (r : ConfigurationRecord) :
    r.bytes.length = 9 := rfl

@[simp] theorem InterfaceRecord.length_bytes (r : InterfaceRecord) : r.bytes.length = 9 := rfl

@[simp] theorem EndpointRecord.length_bytes (r : EndpointRecord) : r.bytes.length = 7 := rfl

end UsbGadget
