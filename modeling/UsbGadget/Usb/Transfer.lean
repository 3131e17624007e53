/-!
# Endpoint attributes

The attributes byte of an endpoint descriptor packs a transfer type (bits 1:0), a synchronization
type (bits 3:2) and a usage type (bits 5:4).
-/

namespace UsbGadget

/-- How an endpoint moves its data. -/
inductive TransferType where
  | control
  | isochronous
  | bulk
  | interrupt
deriving DecidableEq, Repr

/-- How an isochronous endpoint keeps time. -/
inductive SyncType where
  | none
  | asynchronous
  | adaptive
  | synchronous
deriving DecidableEq, Repr

/-- What an isochronous endpoint carries. -/
inductive UsageType where
  | data
  | feedback
  | explicitFeedback
deriving DecidableEq, Repr

/-- The code of a transfer type. -/
def TransferType.code : TransferType → UInt8
  | control => 0
  | isochronous => 1
  | bulk => 2
  | interrupt => 3

/-- The synchronization bits in their place. -/
def SyncType.bits : SyncType → UInt8
  | none => 0x00
  | asynchronous => 0x04
  | adaptive => 0x08
  | synchronous => 0x0C

/-- The usage bits in their place. -/
def UsageType.bits : UsageType → UInt8
  | data => 0x00
  | feedback => 0x10
  | explicitFeedback => 0x20

/-- The word for a transfer type in descriptions. -/
def TransferType.label : TransferType → String
  | control => "Control"
  | isochronous => "Isochronous"
  | bulk => "Bulk"
  | interrupt => "Interrupt"

/-- The word for a synchronization type in descriptions. -/
def SyncType.label : SyncType → String
  | none => "None"
  | asynchronous => "Async"
  | adaptive => "Adaptive"
  | synchronous => "Sync"

/-- The word for a usage type in descriptions. -/
def UsageType.label : UsageType → String
  | data => "Data"
  | feedback => "Feedback"
  | explicitFeedback => "ExplicitFeedback"

/-- The three parts of an endpoint's attributes byte. -/
structure EndpointAttributes where
  /-- How the endpoint moves its data. -/
  transfer : TransferType
  /-- How it keeps time. -/
  sync : SyncType := .none
  /-- What it carries. -/
  usage : UsageType := .data
deriving DecidableEq, Repr

namespace EndpointAttributes

/-- The attributes of a control endpoint. -/
def control : EndpointAttributes where transfer := .control

/-- The attributes of a bulk endpoint. -/
def bulk : EndpointAttributes where transfer := .bulk

/-- The attributes byte. -/
def byte (a : EndpointAttributes) : UInt8 := a.transfer.code ||| a.sync.bits ||| a.usage.bits

/-- The attributes in words. -/
def text (a : EndpointAttributes) : String :=
  "EndpointAttributes \x7b transfer: " ++ a.transfer.label ++ ", sync: " ++ a.sync.label ++
    ", usage: " ++ a.usage.label ++ " \x7d"

end EndpointAttributes

end UsbGadget
