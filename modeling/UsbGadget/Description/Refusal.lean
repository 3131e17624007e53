/-!
# Why a device description is refused

`Refusal` lists the reasons, each with its message. Assembling the descriptors of a configuration
that was put together by hand can fail in one further way, `AssemblyError.rangesMismatch`, and
opening a device in one more, `OpenError.alreadyOpen`.
-/

namespace UsbGadget

/-- Why a device description is refused. -/
inductive Refusal where
  /-- An interface has number 0, which is that of the control endpoint. -/
  | reservedInterface
  /-- There are more interfaces than a configuration has room for. -/
  | tooManyInterfaces
  /-- There are more endpoints than a configuration has room for. -/
  | tooManyEndpoints
  /-- A packet buffer is not in the buffer area of the packet memory. -/
  | bufferOutsideDpram
  /-- A packet buffer does not start a slot. -/
  | misalignedBuffer
  /-- An endpoint names a control register that does not exist. -/
  | noSuchRegister
  /-- The configuration's records do not fit in one packet. -/
  | descriptorTooLarge
  /-- A string does not fit in one packet. -/
  | stringTooLong
deriving DecidableEq, Repr

/-- The message for a reason. -/
def Refusal.message : Refusal → String
  | reservedInterface => "interface 0 is reserved for the control endpoints"
  | tooManyInterfaces => "too many interfaces"
  | tooManyEndpoints => "too many endpoints"
  | bufferOutsideDpram => "endpoint data buffer is outside USB DPSRAM"
  | misalignedBuffer => "endpoint data buffer is not 64-byte aligned"
  | noSuchRegister => "endpoint control register index out of range"
  | descriptorTooLarge => "configuration descriptor set exceeds 64 bytes"
  | stringTooLong => "string descriptor exceeds 64 bytes"

/-- Why descriptors cannot be assembled. -/
inductive AssemblyError where
  /-- The configuration is refused. -/
  | refused (reason : Refusal)
  /-- The interfaces' ranges do not account for the list of endpoints. -/
  | rangesMismatch
deriving DecidableEq, Repr

/-- Why a device cannot be opened. -/
inductive OpenError where
  /-- The description is refused. -/
  | refused (reason : Refusal)
  /-- The device is open already. -/
  | alreadyOpen
  /-- The interfaces' ranges do not account for the list of endpoints. -/
  | rangesMismatch
deriving DecidableEq, Repr

namespace OpenError

/-- The message for a failed open. -/
def message : OpenError → String
  | refused reason => "invalid USB configuration: " ++ reason.message
  | alreadyOpen => "USB device already open"
  | rangesMismatch => "interface ranges do not match the endpoint list"

/-- A failure to assemble descriptors, as a failure to open. -/
def ofAssemblyError : AssemblyError → OpenError
  | .refused reason => refused reason
  | .rangesMismatch => rangesMismatch

end OpenError

end UsbGadget
