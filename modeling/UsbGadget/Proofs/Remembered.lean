import UsbGadget.Proofs.Occasions

/-!
# What a device remembers

Of all that was handled, the address and the host's choice of a configuration depend on the SETUP
packets since the last reset of the bus only (`Occasion.requests`), and on those only that set the
one or the other. `Device.remembers` says so of every moment, also in the middle of an interrupt.

A reset of the bus makes a device forget whatever was on its way: until the next SETUP packet is
handled, everything is as at the beginning (`Device.forgets`). The packets that were armed before
the reset stay armed, but nothing waits for them any more.
-/

namespace UsbGadget

namespace SetupPacket

/-- The address that the first of some packets to assign one assigns; 0 if none does. -/
def addressAmong (packets : List SetupPacket) : UInt8 :=
  ((packets.find? fun p => p.SetsAddress).map fun p => UInt8.ofNat p.value.toNat).getD 0

theorem addressAmong_cons (p : SetupPacket) (packets : List SetupPacket) :
    addressAmong (p :: packets) =
      if p.SetsAddress then UInt8.ofNat p.value.toNat else addressAmong packets := by
  rw [addressAmong, List.find?_cons]
  split_ifs with hp <;> simp only [hp, decide_true, decide_false] <;> rfl

end SetupPacket

namespace Occasion

/-- The SETUP packet that was handled. -/
def request? (o : Occasion) : Option SetupPacket :=
  match o.event with
  | .setup => some o.packet
  | .buffer _ | .busReset => none

/-- The SETUP packets that were handled since the last reset of the bus, the newest first. -/
def requests (history : List Occasion) : List SetupPacket :=
  (since (· == .busReset) history).filterMap request?

/-- The device has something to remember, or to forget. -/
def Matters (o : Occasion) : Prop :=
  match o.event with
  | .setup => o.packet.SetsAddress ∨ o.packet.SetsConfiguration
  | .buffer _ => False
  | .busReset => True

end Occasion

open Occasion SetupPacket

/-! ### Remembering -/

theorem Control.memory_buffer (c : Control) (set : DescriptorSet) (p : SetupPacket) (index : Nat) :
    (c.take set p (.buffer index)).1.address = c.address ∧
      (c.take set p (.buffer index)).1.configured = c.configured := by
  obtain _ | _ | index := index
  · unfold take sent
    split_ifs <;> exact ⟨rfl, rfl⟩
  · exact ⟨rfl, rfl⟩
  · exact ⟨rfl, rfl⟩

/-- The control machine has the address and the configuration that some SETUP packets, the newest
first, have set. -/
structure Control.Recalls (c : Control) (packets : List SetupPacket) : Prop where
  /-- The host has chosen a configuration. -/
  configured : c.configured = true ↔ ∃ p ∈ packets, p.SetsConfiguration
  /-- The address is the last one that was assigned. -/
  address : c.address = addressAmong packets

namespace Control.Recalls

variable {c : Control} {packets : List SetupPacket}

theorem setup (h : c.Recalls packets) (set : DescriptorSet) (limit : Nat) (p : SetupPacket) :
    (c.setup set limit p).1.Recalls (p :: packets) := by
  obtain ⟨haddress, -, hconfigured⟩ := c.memory_setup set limit p
  refine ⟨?_, ?_⟩
  · rw [hconfigured, Bool.or_eq_true, decide_eq_true_iff, h.configured, List.exists_mem_cons_iff]
  · rw [haddress, h.address, addressAmong_cons]

theorem buffer (h : c.Recalls packets) (set : DescriptorSet) (p : SetupPacket) (index : Nat) :
    (c.take set p (.buffer index)).1.Recalls packets := by
  obtain ⟨haddress, hconfigured⟩ := c.memory_buffer set p index
  exact ⟨by rw [hconfigured, h.configured], by rw [haddress, h.address]⟩

theorem blank : Control.Recalls {} [] := ⟨by simp, rfl⟩

end Control.Recalls

theorem lasts_recalls : Lasts fun history c _ => c.Recalls (requests history) := by
  intro history c set o _ h
  obtain ⟨event, k⟩ := o
  simp only [requests, since_concat]
  cases event with
  | setup => exact h.setup set packetLimit _
  | buffer index => exact h.buffer set _ index
  | busReset => exact .blank

theorem lasts_unchanged (address : UInt8) (configured : Bool) :
    Lasts fun history c _ => (∀ o ∈ history, ¬o.Matters) →
      c.address = address ∧ c.configured = configured := by
  intro history c set o _ h hnone
  rw [List.forall_mem_append, List.forall_mem_singleton] at hnone
  obtain ⟨rfl, rfl⟩ := h hnone.1
  obtain ⟨event, k⟩ := o
  cases event with
  | setup =>
    obtain ⟨haddress, hconfiguration⟩ := not_or.1 hnone.2
    obtain ⟨haddr, -, hconf⟩ := c.memory_setup set packetLimit (Occasion.packet ⟨.setup, k⟩)
    rw [if_neg haddress] at haddr
    rw [decide_eq_false hconfiguration, Bool.false_or] at hconf
    exact ⟨haddr, hconf⟩
  | buffer index => exact c.memory_buffer set _ index
  | busReset => exact absurd trivial hnone.2

namespace Device

variable {σ : Type} [Board σ]

theorem recalls_run {closed d : Device σ} {description : DeviceDescription} {log : List Effect}
    (hopen : closed.open description = (.ok (), d, log)) {steps : List DeviceStep}
    (hsteps : ∀ step ∈ steps, step ≠ .close) :
    (d.run steps).1.Bears fun c _ => c.Recalls (requests (d.occasions steps)) := by
  have hd : d.Bears fun c _ => c.Recalls (requests []) :=
    bears_of_open (P := fun history c _ => c.Recalls (requests history)) hopen .blank
  exact hd.run lasts_recalls hsteps fun _ _ _ _ _ h => h

omit [Board σ] in
theorem Bears.unchanged {d : Device σ} {Q : Control → Word → Prop} (hd : d.Bears Q) :
    d.Bears fun c _ => (∀ o ∈ ([] : List Occasion), ¬o.Matters) →
      c.address = d.address ∧ c.configured = d.isConfigured := by
  obtain ⟨s, hsession, hs, -⟩ := hd
  refine ⟨s, hsession, hs, fun _ => ?_⟩
  simp only [Device.address, isConfigured, hsession, Option.map_some, Option.getD_some, and_self]

/-- At every moment since a device was opened the address and the configuration are those that the
SETUP packets since the last reset of the bus have set, and nothing else that happens changes them.
The moment is after the first events of an interrupt that follows on some steps. -/
theorem remembers {closed d : Device σ} {description : DeviceDescription} {log : List Effect}
    (hopen : closed.open description = (.ok (), d, log)) {steps : List DeviceStep}
    (hsteps : ∀ step ∈ steps, step ≠ .close) {events : List Event}
    (hevents : events <+: (d.run steps).1.pending) :
    let d' := ((d.run steps).1.handleAll events).1
    let packets := requests (d.occasions steps ++ (d.run steps).1.occasionsOf events)
    (d'.isConfigured = true ↔ ∃ p ∈ packets, p.SetsConfiguration) ∧
      d'.address = addressAmong packets ∧
      ∀ more : List DeviceStep, (∀ step ∈ more, step ≠ .close) →
        (∀ o ∈ d'.occasions more, ¬o.Matters) →
        (d'.run more).1.isConfigured = d'.isConfigured ∧ (d'.run more).1.address = d'.address := by
  intro d' packets
  have hd' : d'.Bears fun c _ => c.Recalls packets :=
    (recalls_run hopen hsteps).during lasts_recalls hevents
  obtain ⟨c, hc, -, -, haddress, hconfigured, -⟩ := hd'.exists_control
  refine ⟨hconfigured ▸ hc.configured, haddress ▸ hc.address, ?_⟩
  intro more hmore hnone
  -- the history starts anew here: nothing of it matters
  have hstays := (hd'.unchanged).run (lasts_unchanged d'.address d'.isConfigured) hmore
    fun _ _ _ _ _ h => h
  obtain ⟨c', hc', -, -, haddress', hconfigured', -⟩ := hstays.exists_control
  obtain ⟨haddr, hconf⟩ := hc' hnone
  exact ⟨hconfigured'.trans hconf, haddress'.trans haddr⟩

/-- The host assigns an address twice, fetching the second acknowledgement only, and chooses a
configuration. -/
def enumerated : List DeviceStep :=
  [.host (.setup ⟨0, 5, 42, 0, 0⟩), .service, .host (.setup ⟨0, 5, 300, 0, 0⟩), .service,
    .host (.complete Ep0.inAddress [] false), .service, .host (.setup ⟨0, 9, 1, 0, 0⟩), .service]

theorem remembers_enumerated :
    let d := ((blank ({} : Bench)).open {}).2.1
    (d.run enumerated).1.isConfigured = true ∧ (d.run enumerated).1.address = 44 := by
  intro d
  have hopen : ((blank ({} : Bench)).open {}).1 = .ok () := by decide +kernel
  have hpackets : requests (d.occasions enumerated) =
      [⟨0, 9, 1, 0, 0⟩, ⟨0, 5, 300, 0, 0⟩, ⟨0, 5, 42, 0, 0⟩] := by decide +kernel
  have hsteps : ∀ step ∈ enumerated, step ≠ .close := by simp [enumerated]
  obtain ⟨hconfigured, haddress, -⟩ := remembers
    (Prod.ext hopen rfl : (blank ({} : Bench)).open {} = (.ok (), d, _)) hsteps List.nil_prefix
  simp only [handleAll, occasionsOf, List.append_nil, hpackets] at hconfigured haddress
  exact ⟨hconfigured.2 (by decide), haddress⟩

end Device

/-! ### Forgetting -/

/-- Since the last SETUP packet the bus was not reset, or all is as at the beginning. -/
def Control.Forgets (history : List Occasion) (c : Control) (w : Word) : Prop :=
  .busReset ∈ (since (· == .setup) history).map Occasion.event → c = {} ∧ w = 0

theorem lasts_forgets : Lasts Control.Forgets := by
  intro history c set o _ h
  obtain ⟨event, k⟩ := o
  simp only [Control.Forgets, since_concat] at h ⊢
  cases event with
  | setup => exact fun hmem => absurd hmem List.not_mem_nil
  | busReset => exact fun _ => ⟨rfl, rfl⟩
  | buffer index =>
    intro hmem
    have hreset : Event.busReset ∈ (since (· == .setup) history).map Occasion.event := by
      simpa using hmem
    obtain ⟨rfl, hw⟩ := h hreset
    -- a machine at the beginning owes nothing, whichever buffer comes back
    obtain _ | _ | index := index
    · exact ⟨rfl, hw⟩
    · exact ⟨rfl, hw⟩
    · exact ⟨rfl, hw⟩

namespace Device

variable {σ : Type} [Board σ]

/-- A reset of the bus comes after the SETUP packet of the same interrupt. -/
theorem reset_mem_since {d : Device σ} {step : DeviceStep}
    (hstep : step = .interrupt ∨ step = .service) (hreset : .busReset ∈ d.pending)
    {after : List DeviceStep}
    (hnone : ∀ o ∈ (d.step step).2.1.occasions after, o.event ≠ .setup) :
    .busReset ∈ (since (· == .setup) (d.occasions (step :: after))).map Occasion.event := by
  obtain ⟨events, hpending⟩ := exists_pending_concat hreset
  have hfirst : d.occasionsIn step = d.occasionsOf (events ++ [.busReset]) := by
    rw [← hpending]
    rcases hstep with rfl | rfl <;> rfl
  have hlater : ∀ o ∈ (d.step step).2.1.occasions after, (o.event == .setup) = false :=
    fun o ho => beq_eq_false_iff_ne.2 (hnone o ho)
  rw [occasions, hfirst, since_append hlater, occasionsOf_append, occasionsOf, occasionsOf,
    since_concat]
  simp

/-- Nothing of before a reset of the bus takes effect after it: once an interrupt has handled one,
everything is as at the beginning for as long as no SETUP packet is handled. -/
theorem forgets {closed d : Device σ} {description : DeviceDescription} {log : List Effect}
    (hopen : closed.open description = (.ok (), d, log)) {before after : List DeviceStep}
    {step : DeviceStep} (hbefore : ∀ step ∈ before, step ≠ .close)
    (hstep : step = .interrupt ∨ step = .service) (hreset : .busReset ∈ (d.run before).1.pending)
    (hafter : ∀ step ∈ after, step.SparesAddress)
    (hnone : ∀ o ∈ ((d.run before).1.step step).2.1.occasions after, o.event ≠ .setup) :
    let d' := (d.run (before ++ step :: after)).1
    d'.isOpen = true ∧ d'.phase = .idle ∧ d'.address = 0 ∧ d'.isConfigured = false ∧
      d'.hw.read .addrEndp = 0 := by
  intro d'
  -- the history starts anew with the interrupt
  have hbegin : (d.run before).1.Bears (Control.Forgets []) :=
    (recalls_run hopen hbefore).mono fun _ _ _ hmem => absurd hmem List.not_mem_nil
  have hspares : ∀ s ∈ step :: after, s.SparesAddress := by
    rw [List.forall_mem_cons]
    exact ⟨by rcases hstep with rfl | rfl <;> trivial, hafter⟩
  have hend : d'.Bears (Control.Forgets ((d.run before).1.occasions (step :: after))) := by
    have hrun := hbegin.run_of_spares lasts_forgets hspares
    rwa [← fst_run_append, List.nil_append] at hrun
  obtain ⟨c, hc, -, hisOpen, haddress, hconfigured, hphase⟩ := hend.exists_control
  obtain ⟨rfl, hw⟩ := hc (reset_mem_since hstep hreset hnone)
  exact ⟨hisOpen, hphase, haddress, hconfigured, hw⟩

/-- An address is assigned, and the bus is reset before the acknowledgement has gone out. -/
def interrupted : List DeviceStep :=
  [.host (.setup ⟨0, 5, 42, 0, 0⟩), .service, .host .busReset]

/-- The acknowledgement goes out after all. -/
def belated : List DeviceStep := [.host (.complete Ep0.inAddress [] false), .service]

theorem forgets_belated :
    let d := ((blank ({} : Bench)).open {}).2.1
    ((d.run interrupted).1.step .service).2.1.occasions belated ≠ [] ∧
      (d.run (interrupted ++ .service :: belated)).1.hw.read .addrEndp = 0 := by
  intro d
  have hopen : ((blank ({} : Bench)).open {}).1 = .ok () := by decide +kernel
  have hevents : (((d.run interrupted).1.step .service).2.1.occasions belated).map Occasion.event =
      [.buffer 0] := by decide +kernel
  have hbefore : ∀ step ∈ interrupted, step ≠ .close := by simp [interrupted]
  have hafter : ∀ step ∈ belated, step.SparesAddress := by
    simp [belated, DeviceStep.SparesAddress, HostStep.SparesAddress]
  have hnone : ∀ o ∈ ((d.run interrupted).1.step .service).2.1.occasions belated,
      o.event ≠ .setup := by
    intro o ho hsetup
    have hmem := List.mem_map_of_mem (f := Occasion.event) ho
    rw [hevents, hsetup] at hmem
    simp at hmem
  obtain ⟨-, -, -, -, haddress⟩ := forgets
    (Prod.ext hopen rfl : (blank ({} : Bench)).open {} = (.ok (), d, _)) hbefore (.inr rfl)
    (by decide +kernel) hafter hnone
  refine ⟨fun hnil => ?_, haddress⟩
  rw [hnil] at hevents
  cases hevents

end Device

end UsbGadget
