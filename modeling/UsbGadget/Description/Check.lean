import UsbGadget.Description.Device

/-!
# Checking a device description

`DeviceDescription.checked` checks and tidies a description and puts the control interface in front.
The checks go through the interfaces in order, for each through its endpoints and then to the
interface itself, and the first violation is reported; a reserved number anywhere comes before all
others.
-/

namespace UsbGadget

/-- How many interfaces a configuration has room for, the control interface included. -/
def maxInterfaces : Nat := 8

/-- How many endpoints a configuration has room for, the control endpoint's two included. -/
def maxEndpoints : Nat := 32

/-- How much of a caller's list counts: numbers of interfaces and endpoints travel as bytes. -/
def listLimit : Nat := 255

/-- The largest current a device may draw, in mA. -/
def powerLimit : UInt16 := 500

/-- The interface of the control endpoint. -/
def InterfaceDescription.control : InterfaceDescription where
  id := 0
  classCode := 0
  subclass := 0
  protocol := 0
  name := "Interface0"
  endpoints := [.control .input, .control .output]

/-- What is said about a device, with its current clamped and without an empty serial number. -/
def DeviceInfo.tidy (d : DeviceInfo) : DeviceInfo :=
  { d with
    maxPower := min d.maxPower powerLimit
    serial := d.serial.filter (· ≠ "") }

/-- The interfaces and endpoints found in order so far. -/
structure Tables where
  /-- The interfaces. -/
  interfaces : List Interface := []
  /-- The endpoints of all interfaces. -/
  endpoints : List EndpointDescription := []

namespace Tables

/-- Adds an endpoint, if it is in order and there is room. -/
def addEndpoint (t : Tables) (e : EndpointDescription) : Except Refusal Tables := do
  let e ← e.checked
  if t.endpoints.length < maxEndpoints then
    pure { t with endpoints := t.endpoints ++ [e] }
  else
    throw .tooManyEndpoints

/-- Adds the endpoints of an interface and then the interface itself, if there is room. -/
def addInterface (t : Tables) (i : InterfaceDescription) : Except Refusal Tables := do
  let t' ← (i.endpoints.take listLimit).foldlM addEndpoint t
  if t'.interfaces.length < maxInterfaces then
    let interface : Interface :=
      { i.toInterfaceInfo with start := t.endpoints.length, stop := t'.endpoints.length }
    pure { t' with interfaces := t'.interfaces ++ [interface] }
  else
    throw .tooManyInterfaces

end Tables

/-- The configuration that a device description stands for, or the first thing wrong with it. -/
def DeviceDescription.checked (d : DeviceDescription) : Except Refusal Configuration := do
  let callers := d.interfaces.take listLimit
  if callers.any (·.id == 0) then
    throw .reservedInterface
  let tables ← (.control :: callers).foldlM Tables.addInterface {}
  pure { d.toDeviceInfo.tidy with
    interfaces := tables.interfaces
    endpoints := tables.endpoints }

end UsbGadget
