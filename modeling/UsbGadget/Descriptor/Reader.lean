import UsbGadget.Text.Reader
import UsbGadget.Usb.Record
import UsbGadget.Usb.Transfer

/-!
# Reading descriptors back

What a host makes of the bytes that a configuration request brings it. Records stand one behind the
other, and the first byte of each says how long it is, so the host finds the next one without
knowing this one's kind.

* `Record.ofBytes?` reads one record, going by its kind;
* `Record.readAll` walks over all records. There is nothing to read if a record has no length, runs
  past the end or is not of a known form;
* `EndpointAttributes.ofByte?` takes an endpoint's attributes apart;
* `textOf?` is the text in a string descriptor.
-/

namespace UsbGadget

/-- A record that stands among those of a configuration. -/
inductive Record where
  /-- The configuration itself. -/
  | configuration (r : ConfigurationRecord)
  /-- One of its interfaces. -/
  | interface (r : InterfaceRecord)
  /-- One endpoint of the interface before it. -/
  | endpoint (r : EndpointRecord)
deriving DecidableEq, Repr

namespace Record

/-- Reads one record from exactly its bytes. -/
def ofBytes? : List UInt8 → Option Record
  | b₀ :: b₁ :: rest =>
    match DescriptorKind.ofCode? b₁.toNat, rest with
    | some .configuration, [b₂, b₃, b₄, b₅, b₆, b₇, b₈] =>
      some (.configuration ⟨b₀, .configuration, halfOfBytes b₂ b₃, b₄, b₅, b₆, b₇, b₈⟩)
    | some .interface, [b₂, b₃, b₄, b₅, b₆, b₇, b₈] =>
      some (.interface ⟨b₀, .interface, b₂, b₃, b₄, b₅, b₆, b₇, b₈⟩)
    | some .endpoint, [b₂, b₃, b₄, b₅, b₆] =>
      some (.endpoint ⟨b₀, .endpoint, b₂, b₃, halfOfBytes b₄ b₅, b₆⟩)
    | _, _ => none
  | _ => none

/-- Reads records up to the end of the bytes, each as long as its first byte says. -/
def readAll : List UInt8 → Option (List Record)
  | [] => some []
  | b :: bs =>
    if b.toNat = 0 ∨ (b :: bs).length < b.toNat then none
    else do
      let record ← ofBytes? ((b :: bs).take b.toNat)
      let records ← readAll ((b :: bs).drop b.toNat)
      pure (record :: records)
termination_by bytes => bytes.length
decreasing_by
  simp only [List.length_drop, List.length_cons] at *
  omega

end Record

/-- The transfer type with the given code. -/
def TransferType.ofCode? : Nat → Option TransferType
  | 0 => some .control
  | 1 => some .isochronous
  | 2 => some .bulk
  | 3 => some .interrupt
  | _ => none

/-- The synchronization type with the given code. -/
def SyncType.ofCode? : Nat → Option SyncType
  | 0 => some .none
  | 1 => some .asynchronous
  | 2 => some .adaptive
  | 3 => some .synchronous
  | _ => Option.none

/-- The usage type with the given code. -/
def UsageType.ofCode? : Nat → Option UsageType
  | 0 => some .data
  | 1 => some .feedback
  | 2 => some .explicitFeedback
  | _ => none

/-- Takes an attributes byte apart: two bits for each type, and nothing above them. -/
def EndpointAttributes.ofByte? (b : UInt8) : Option EndpointAttributes := do
  let transfer ← TransferType.ofCode? (b.toNat % 4)
  let sync ← SyncType.ofCode? (b.toNat / 4 % 4)
  let usage ← UsageType.ofCode? (b.toNat / 16)
  pure ⟨transfer, sync, usage⟩

theorem EndpointAttributes.ofByte?_byte (a : EndpointAttributes) : ofByte? a.byte = some a := by
  obtain ⟨transfer, sync, usage⟩ := a
  cases transfer <;> cases sync <;> cases usage <;> rfl

/-- The text in a string descriptor, which has to be as long as it says. -/
def textOf? : List UInt8 → Option String
  | length :: kind :: text =>
    if length.toNat = 2 + text.length ∧ DescriptorKind.ofCode? kind.toNat = some .string then
      Utf16.decode? text
    else none
  | _ => none

end UsbGadget
