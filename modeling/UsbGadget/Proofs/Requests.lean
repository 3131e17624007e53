import Mathlib.Tactic.Common
import UsbGadget.Engine.Control

/-!
# What a SETUP packet makes of the control machine

A request is answered if it is an OUT request, or if it asks for a descriptor of a kind that is
served (`SetupPacket.AsksForDescriptor`); every other IN request is ignored.

* `DescriptorSet.Answers` says which bytes answer a request for a descriptor, and
  `DescriptorSet.requested?_of_answers` that these are the ones that are sent;
* `Control.setup_of_asks`, `Control.setup_of_output` and `Control.setup_of_ignored` are the three
  ways in which the machine takes a SETUP packet.
-/

namespace UsbGadget

/-- What is looked up by its code is found under that code and no other. -/
theorem find?_code_eq_some {α : Type} {all : List α} {code : α → Nat} {a : α}
    (hfind : all.find? (fun b => (code b : Int) == code a) = some a) {n : Int} :
    all.find? (fun b => (code b : Int) == n) = some a ↔ n = code a := by
  constructor
  · intro h
    have hcode := List.find?_some h
    exact (beq_iff_eq.1 hcode).symm
  · rintro rfl
    exact hfind

theorem DescriptorKind.ofCode?_eq_some {n : Int} {k : DescriptorKind} :
    ofCode? n = some k ↔ n = k.code := find?_code_eq_some (ofCode?_code k)

theorem StandardRequest.ofCode?_eq_some {n : Int} {r : StandardRequest} :
    ofCode? n = some r ↔ n = r.code := find?_code_eq_some (ofCode?_code r)

namespace SetupPacket

/-- The packet is a standard request for a descriptor of the device, its configuration or a string.
-/
structure AsksForDescriptor (p : SetupPacket) : Prop where
  /-- The data goes to the host. -/
  direction : p.direction = .input
  /-- The request is a standard one. -/
  standard : p.isStandard = true
  /-- It asks for a descriptor. -/
  request : p.request = 6
  /-- The kind of descriptor is served. -/
  kind : p.value.toNat / 256 = 1 ∨ p.value.toNat / 256 = 2 ∨ p.value.toNat / 256 = 3

/-- The packet is a standard request that assigns an address. -/
@[mk_iff]
structure SetsAddress (p : SetupPacket) : Prop where
  /-- There is no data for the host. -/
  direction : p.direction = .output
  /-- The request is a standard one. -/
  standard : p.isStandard = true
  /-- It assigns an address. -/
  request : p.request = 5

/-- The packet is a standard request that chooses a configuration. -/
@[mk_iff]
structure SetsConfiguration (p : SetupPacket) : Prop where
  /-- There is no data for the host. -/
  direction : p.direction = .output
  /-- The request is a standard one. -/
  standard : p.isStandard = true
  /-- It chooses a configuration. -/
  request : p.request = 9

/-- The standard requests are told apart by their codes. -/
theorem standardRequest?_eq_some {p : SetupPacket} {r : StandardRequest} (code : UInt8)
    (hcode : code.toNat = r.code) :
    p.standardRequest? = some r ↔ p.isStandard = true ∧ p.request = code := by
  rw [standardRequest?]
  split_ifs with h
  · rw [namedRequest?, StandardRequest.ofCode?_eq_some, ← hcode, Int.natCast_inj, UInt8.toNat_inj]
    exact ⟨fun hr => ⟨h, hr⟩, fun hr => hr.2⟩
  · exact ⟨nofun, fun hr => absurd hr.1 h⟩

instance : DecidablePred SetsAddress := fun p => decidable_of_iff' _ (setsAddress_iff p)

instance : DecidablePred SetsConfiguration := fun p => decidable_of_iff' _ (setsConfiguration_iff p)

end SetupPacket

/-! ### Answers to requests for descriptors -/

/-- The bytes that answer a request for a descriptor. The whole configuration goes to a host that
has room for it, and its first record to any other; a string that there is not is empty. -/
inductive DescriptorSet.Answers (set : DescriptorSet) (p : SetupPacket) : List UInt8 → Prop
  | device (hkind : p.value.toNat / 256 = 1) : Answers set p set.device.bytes
  | configuration (hkind : p.value.toNat / 256 = 2) (hroom : set.totalLength ≤ p.length.toNat) :
      Answers set p set.records
  | header (hkind : p.value.toNat / 256 = 2) (hroom : p.length.toNat < set.totalLength) :
      Answers set p set.header
  | string (hkind : p.value.toNat / 256 = 3) {bytes : List UInt8}
      (hstring : set.string? (UInt8.ofNat p.value.toNat) = some bytes) : Answers set p bytes
  | noString (hkind : p.value.toNat / 256 = 3)
      (hstring : set.string? (UInt8.ofNat p.value.toNat) = none) : Answers set p []

namespace DescriptorSet

variable {set : DescriptorSet} {p : SetupPacket}

theorem ofCode?_kind {k : DescriptorKind} (h : p.value.toNat / 256 = k.code) :
    DescriptorKind.ofCode? (p.value.toNat / 256) = some k :=
  DescriptorKind.ofCode?_eq_some.2 (by rw [← h]; rfl)

/-- A request is answered with what answers it. -/
theorem requested?_of_answers {bytes : List UInt8} (h : set.Answers p bytes) :
    set.requested? p = some bytes := by
  unfold requested?
  cases h with
  | device hkind => rw [ofCode?_kind (k := .device) hkind]
  | configuration hkind hroom =>
    rw [ofCode?_kind (k := .configuration) hkind]
    exact congrArg some (if_pos hroom)
  | header hkind hroom =>
    rw [ofCode?_kind (k := .configuration) hkind]
    exact congrArg some (if_neg (Nat.not_le.2 hroom))
  | string hkind hstring =>
    rw [ofCode?_kind (k := .string) hkind]
    simp only [hstring, Option.getD_some]
  | noString hkind hstring =>
    rw [ofCode?_kind (k := .string) hkind]
    simp only [hstring, Option.getD_none]

theorem exists_answers (set : DescriptorSet) {p : SetupPacket}
    (h : p.value.toNat / 256 = 1 ∨ p.value.toNat / 256 = 2 ∨ p.value.toNat / 256 = 3) :
    ∃ bytes, set.Answers p bytes := by
  rcases h with h | h | h
  · exact ⟨_, .device h⟩
  · rcases Nat.lt_or_ge p.length.toNat set.totalLength with hroom | hroom
    · exact ⟨_, .header h hroom⟩
    · exact ⟨_, .configuration h hroom⟩
  · cases hs : set.string? (UInt8.ofNat p.value.toNat) with
    | none => exact ⟨_, .noString h hs⟩
    | some bytes => exact ⟨_, .string h hs⟩

theorem requested?_eq_none
    (h : ¬(p.value.toNat / 256 = 1 ∨ p.value.toNat / 256 = 2 ∨ p.value.toNat / 256 = 3)) :
    set.requested? p = none := by
  have hkind : ∀ k : DescriptorKind, DescriptorKind.ofCode? (p.value.toNat / 256) = some k →
      p.value.toNat / 256 = k.code := fun k hk => by
    have hcode := DescriptorKind.ofCode?_eq_some.1 hk
    omega
  unfold requested?
  split
  · exact absurd (.inl (hkind .device ‹_›)) h
  · exact absurd (.inr (.inl (hkind .configuration ‹_›))) h
  · exact absurd (.inr (.inr (hkind .string ‹_›))) h
  · rfl

end DescriptorSet

/-! ### The control machine -/

namespace Control

variable (c : Control) (set : DescriptorSet) (limit : Nat) {p : SetupPacket}

/-- A request for a descriptor is answered with as much of it as the host has room for. -/
theorem setup_of_asks (h : p.AsksForDescriptor) {bytes : List UInt8}
    (hbytes : set.Answers p bytes) :
    c.setup set limit p =
      ({ c with
          phase := .sending
          emptyPending := decide (min (bytes.take p.length.toNat).length limit = limit ∧
            limit < p.length.toNat) },
        .send (bytes.take p.length.toNat)) := by
  have hrequest : p.standardRequest? = some .getDescriptor :=
    (SetupPacket.standardRequest?_eq_some 6 rfl).2 ⟨h.standard, h.request⟩
  -- the machine compares the room with the packet, which is the limit where the packet is full
  simp only [setup, h.direction, hrequest, getDescriptor,
    DescriptorSet.requested?_of_answers hbytes, Prod.mk.injEq, mk.injEq, true_and, and_true]
  rw [Bool.eq_iff_iff]
  simp only [Bool.and_eq_true, beq_iff_eq, decide_eq_true_eq]
  exact and_congr_right fun heq => by rw [heq]

/-- Every other IN request is ignored. -/
theorem setup_of_ignored (hin : p.direction = .input) (h : ¬p.AsksForDescriptor) :
    c.setup set limit p = ({ c with phase := .idle, emptyPending := false }, .silent) := by
  by_cases hrequest : p.standardRequest? = some .getDescriptor
  · obtain ⟨hstandard, hcode⟩ := (SetupPacket.standardRequest?_eq_some 6 rfl).1 hrequest
    have hnone : set.requested? p = none :=
      DescriptorSet.requested?_eq_none fun hkind => h ⟨hin, hstandard, hcode, hkind⟩
    simp only [setup, hin, hrequest, getDescriptor, hnone]
  · simp only [setup, hin]

/-- An address is remembered, and acknowledged with an empty packet. -/
theorem setup_of_setsAddress (h : p.SetsAddress) :
    c.setup set limit p =
      ({ c with
          phase := .addressing
          address := UInt8.ofNat p.value.toNat
          addressPending := true
          emptyPending := false },
        .send []) := by
  have hrequest : p.standardRequest? = some .setAddress :=
    (SetupPacket.standardRequest?_eq_some 5 rfl).2 ⟨h.standard, h.request⟩
  simp only [setup, h.direction, hrequest]

/-- Of the machine's memory a SETUP packet changes only what the packet sets. -/
theorem memory_setup (p : SetupPacket) :
    (c.setup set limit p).1.address =
        (if p.SetsAddress then UInt8.ofNat p.value.toNat else c.address) ∧
      (c.setup set limit p).1.addressPending = (decide p.SetsAddress || c.addressPending) ∧
      (c.setup set limit p).1.configured = (decide p.SetsConfiguration || c.configured) := by
  have haddress :
      p.SetsAddress ↔ p.direction = .output ∧ p.standardRequest? = some .setAddress := by
    rw [SetupPacket.setsAddress_iff, SetupPacket.standardRequest?_eq_some 5 rfl]
  have hconfiguration : p.SetsConfiguration ↔
      p.direction = .output ∧ p.standardRequest? = some .setConfiguration := by
    rw [SetupPacket.setsConfiguration_iff, SetupPacket.standardRequest?_eq_some 9 rfl]
  simp only [haddress, hconfiguration]
  unfold setup getDescriptor
  simp only
  split
  · simp [*]
  · simp [*]
  · simp_all
  · split <;> simp [*]
  · simp [*]

/-- The phases in which an answer is on its way. -/
def Answering (phase : ControlPhase) : Prop := phase ≠ .idle ∧ phase ≠ .awaiting

/-- An OUT request is acknowledged with an empty packet. -/
theorem setup_of_output (hout : p.direction = .output) :
    (c.setup set limit p).2 = .send [] ∧ (c.setup set limit p).1.emptyPending = false ∧
      Answering (c.setup set limit p).1.phase := by
  simp only [setup, hout]
  split <;> simp_all [Answering]

theorem sent_not_pending : c.sent.1.addressPending = false := by
  cases hpending : c.addressPending with
  | true => simp [sent, hpending]
  | false =>
    simp only [sent, hpending, Bool.false_eq_true, if_false]
    split <;> rfl

theorem setup_reply (p : SetupPacket) :
    (c.setup set limit p).2 = .silent ∨ ∃ data, (c.setup set limit p).2 = .send data := by
  by_cases hout : p.direction = .output
  · exact .inr ⟨[], (c.setup_of_output set limit hout).1⟩
  have hin : p.direction = .input := by
    cases hd : p.direction with
    | output => exact absurd hd hout
    | input => rfl
  by_cases hasks : p.AsksForDescriptor
  · obtain ⟨bytes, hbytes⟩ := DescriptorSet.exists_answers set hasks.kind
    rw [c.setup_of_asks set limit hasks hbytes]
    exact .inr ⟨_, rfl⟩
  · rw [c.setup_of_ignored set limit hin hasks]
    exact .inl rfl

/-- A SETUP packet starts a transfer of its own: how that stands does not depend on what was
before. -/
theorem setup_forgets (p : SetupPacket) (c' : Control) :
    (c.setup set limit p).1.phase = (c'.setup set limit p).1.phase ∧
      (c.setup set limit p).1.emptyPending = (c'.setup set limit p).1.emptyPending := by
  unfold setup getDescriptor
  simp only
  -- every branch gives its own phase and debt; only that of a descriptor looks further
  split
  all_goals first | exact ⟨rfl, rfl⟩ | skip
  split <;> exact ⟨rfl, rfl⟩

end Control

end UsbGadget
