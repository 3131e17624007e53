import UsbGadget.Description.Endpoint
import UsbGadget.Description.Flags

/-!
# Descriptions of devices

`DeviceDescription` is what a caller says about its device. `Configuration` is the checked form that
the engine works with: interface 0 with the control endpoint comes first, and the endpoints of all
interfaces stand in one list, of which each interface has a range.
-/

namespace UsbGadget

/-- What is said about a device besides its interfaces. -/
structure DeviceInfo where
  /-- Name of the vendor. -/
  vendor : String := ""
  /-- Number of the vendor. -/
  vendorId : UInt16 := 0
  /-- Name of the product. -/
  product : String := ""
  /-- Number of the product. -/
  productId : UInt16 := 0
  /-- Version of the product, in decimal digits. -/
  productVersion : UInt16 := 0
  /-- Power and wake-up flags. -/
  flags : ConfigurationFlags := .none
  /-- Largest current drawn, in mA. -/
  maxPower : UInt16 := 100
  /-- Serial number, if there is one. -/
  serial : Option String := none
deriving DecidableEq, Repr

/-- What is said about an interface besides its endpoints. -/
structure InterfaceInfo where
  /-- Number of the interface. -/
  id : UInt8
  /-- Class of the interface. -/
  classCode : UInt8
  /-- Subclass of the interface. -/
  subclass : UInt8
  /-- Protocol within the subclass. -/
  protocol : UInt8
  /-- Name of the interface. -/
  name : String
deriving DecidableEq, Repr

/-- One interface of a device, as its caller describes it. -/
structure InterfaceDescription extends InterfaceInfo where
  /-- Its endpoints. -/
  endpoints : List EndpointDescription

/-- A device, as its caller describes it. -/
structure DeviceDescription extends DeviceInfo where
  /-- Its interfaces. -/
  interfaces : List InterfaceDescription := []

/-- One interface of a configuration. -/
structure Interface extends InterfaceInfo where
  /-- Where its endpoints start in the configuration's list. -/
  start : Nat
  /-- Where the endpoints of the next interface start. -/
  stop : Nat
deriving DecidableEq, Repr

/-- A device in the form that the engine works with. -/
structure Configuration extends DeviceInfo where
  /-- Its interfaces, the control interface first. -/
  interfaces : List Interface
  /-- The endpoints of all interfaces. -/
  endpoints : List EndpointDescription

namespace Configuration

/-- The endpoints of an interface, if its range lies in the list. -/
def endpointsOf? (c : Configuration) (i : Interface) : Option (List EndpointDescription) :=
  if i.start ≤ i.stop ∧ i.stop ≤ c.endpoints.length then
    some ((c.endpoints.drop i.start).take (i.stop - i.start))
  else none

/-- The endpoints of an interface; none if its range does not lie in the list. -/
def endpointsOf (c : Configuration) (i : Interface) : List EndpointDescription :=
  (c.endpointsOf? i).getD []

end Configuration

end UsbGadget
