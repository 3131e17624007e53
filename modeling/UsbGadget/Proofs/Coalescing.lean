import UsbGadget.Proofs.ControlEndpoint
import UsbGadget.Proofs.Requests

/-!
# A SETUP packet that meets older completions

An interrupt hands a SETUP packet to the control machine before the buffers that came back, also
where a buffer of endpoint 0 came back before the packet came in. The machine cannot tell: it takes
the completion, which belongs to the transfer before, for one of the transfer that has just begun.

* `Ep0.agree_iff` compares the two orders for endpoint 0 by itself;
* `Device.service_coalesced_iff` says for which packets one interrupt for everything leaves endpoint
  0 as two interrupts would: for those that the machine ignores, and of these only where a packet
  that has gone out is the acknowledgement of an address.
-/

namespace UsbGadget

/-! ### The two orders for endpoint 0 -/

namespace Control

variable {p : SetupPacket}

theorem answering_setup (c : Control) (set : DescriptorSet) (limit : Nat)
    (h : p.direction = .output ∨ p.AsksForDescriptor) :
    (∃ data, (c.setup set limit p).2 = .send data) ∧ Answering (c.setup set limit p).1.phase := by
  rcases h with h | h
  · obtain ⟨hreply, -, hphase⟩ := c.setup_of_output set limit h
    exact ⟨⟨[], hreply⟩, hphase⟩
  · obtain ⟨bytes, hbytes⟩ := DescriptorSet.exists_answers set h.kind
    rw [c.setup_of_asks set limit h hbytes]
    exact ⟨⟨_, rfl⟩, nofun, nofun⟩

theorem not_kept_sent {c : Control} (hc : Answering c.phase) :
    ¬(c.sent.1.phase = c.phase ∧ c.sent.1.emptyPending = c.emptyPending) := by
  rintro ⟨hphase, hempty⟩
  unfold sent at hphase hempty
  split_ifs at hphase hempty with haddress hpending hsending
  · exact hc.1 hphase.symm
  · exact Bool.false_ne_true (hempty.trans hpending)
  · exact hc.2 hphase.symm
  · exact hc.1 hphase.symm

theorem output_or_asks (h : ¬(p.direction = .input ∧ ¬p.AsksForDescriptor)) :
    p.direction = .output ∨ p.AsksForDescriptor := by
  cases hd : p.direction with
  | output => exact .inl rfl
  | input => exact .inr (not_not.1 fun hn => h ⟨hd, hn⟩)

end Control

namespace Ep0

/-- The same but for the buffer control word of the OUT half. -/
def Agree (v w : Ep0) : Prop := { v with outWord := w.outWord } = w

/-- An answer that is on its way does not survive a completion. -/
theorem not_kept_completions {v : Ep0} (hv : Control.Answering v.control.phase) {gone come : Bool}
    (h : gone = true ∨ come = true) :
    ¬((v.completions gone come).control.phase = v.control.phase ∧
      (v.completions gone come).control.emptyPending = v.control.emptyPending) := by
  rintro ⟨hphase, hempty⟩
  cases come with
  | true => exact hv.1 hphase.symm
  | false =>
    obtain rfl : gone = true := by simpa using h
    have hsent : (v.completions true false).control = v.control.sent.1 := control_proceed _ _
    rw [hsent] at hphase hempty
    exact Control.not_kept_sent hv ⟨hphase, hempty⟩

/-- A request that the machine ignores: the packets that follow are `data1` packets. -/
theorem setup_of_ignored (v : Ep0) (set : DescriptorSet) {p : SetupPacket}
    (hin : p.direction = .input) (h : ¬p.AsksForDescriptor) :
    v.setup set p =
      { v with
        pidIn := .data1
        pidOut := .data1
        control := { v.control with phase := .idle, emptyPending := false } } := by
  rw [setup, Control.setup_of_ignored _ _ _ hin h]
  rfl

/-- A SETUP packet before the completions and after them come to the same only if the packet is
ignored and a packet that has gone out acknowledges an address. -/
theorem agree_iff (v : Ep0) (set : DescriptorSet) (p : SetupPacket) {gone come : Bool}
    (h : gone = true ∨ come = true) :
    ((v.setup set p).completions gone come).Agree ((v.completions gone come).setup set p) ↔
      (p.direction = .input ∧ ¬p.AsksForDescriptor) ∧
        (gone = true → v.control.addressPending = true) := by
  by_cases hp : p.direction = .input ∧ ¬p.AsksForDescriptor
  · -- an ignored packet only resets what the completions change, so both orders can be compared
    rw [setup_of_ignored v set hp.1 hp.2, setup_of_ignored _ set hp.1 hp.2]
    obtain ⟨⟨phase, address, pending, configured, empty⟩, pidIn, pidOut, addr, inWord, outWord,
      buffer⟩ := v
    cases gone <;> cases come <;> cases pending <;>
      simp_all [Agree, completions, sent, received, proceed, Control.sent, Control.received, armOut,
        Pid.next]
  · -- the packet begins an answer; behind it the completion does not leave the answer as it was
    refine ⟨?_, fun h' => absurd h'.1 hp⟩
    intro hagree
    have hanswer := Control.output_or_asks hp
    have hcontrol : ((v.setup set p).completions gone come).control =
        ((v.completions gone come).setup set p).control := congrArg (·.control) hagree
    have hphase := (v.control.answering_setup set packetLimit hanswer).2
    obtain ⟨hsame, hempty⟩ := (v.completions gone come).control.setup_forgets set packetLimit p
      v.control
    rw [← control_setup, ← control_setup, ← hcontrol] at hsame hempty
    rw [← control_setup] at hphase
    exact absurd ⟨hsame, hempty⟩ (not_kept_completions hphase h)

end Ep0

/-! ### The two orders for a device -/

namespace Device

variable {σ : Type} [Board σ]

/-- Control transfers stand the same on both devices. -/
def SameTransfer (d d' : Device σ) : Prop :=
  ∃ v w, d.ep0? = some v ∧ d'.ep0? = some w ∧ v.Agree w

omit [Board σ] in
theorem phase_eq_of_ep0? {d : Device σ} {v : Ep0} (h : d.ep0? = some v) :
    d.phase = v.control.phase := by
  obtain ⟨s, hs, rfl⟩ := Option.map_eq_some_iff.1 h
  rw [phase, hs]
  rfl

omit [Board σ] in
theorem SameTransfer.phase_eq {d d' : Device σ} (h : d.SameTransfer d') : d.phase = d'.phase := by
  obtain ⟨v, w, hv, hw, hagree⟩ := h
  rw [phase_eq_of_ep0? hv, phase_eq_of_ep0? hw]
  exact congrArg (·.control.phase) hagree

theorem hw_service (d : Device σ) :
    (d.step .service).2.1.hw.toController = (d.handleAll d.pending).1.hw.toController.retire := rfl

theorem InService.ep0_completions {d : Device σ} {s : Session} (hd : d.InService s)
    (hspares : ∀ i ∈ d.hw.toController.returned, s.SparesEvent (.buffer i))
    (hsetup : (d.hw.read .sieStatus).bit Bit.setupReceived = false)
    (hreset : (d.hw.read .sieStatus).bit Bit.busReset = false) :
    ∃ s', s.Same s' ∧ (d.step .service).2.1.InService s' ∧
      Ep0.of s' (d.step .service).2.1.hw.toController =
        (Ep0.of s d.hw.toController).completions d.hw.toController.ep0Gone
          d.hw.toController.ep0Come := by
  have hevents : d.hw.toController.events = d.hw.toController.returned.map .buffer := by
    rw [Controller.events, hsetup, hreset, if_neg Bool.false_ne_true, if_neg Bool.false_ne_true,
      List.nil_append, List.append_nil]
  obtain ⟨s', hs', hd', hv⟩ := hd.ep0_service (by rwa [hevents, List.forall_mem_map])
  refine ⟨s', hs', hd', hv.trans ?_⟩
  rw [hevents, Controller.foldl_returned]

/-- One interrupt for a SETUP packet and older completions of endpoint 0, and one for the
completions before the packet comes in and another one for the packet, come to the same exactly
where the packet is ignored and a packet that has gone out acknowledges an address. -/
theorem service_coalesced_iff {description : DeviceDescription} {d : Device σ} {s : Session}
    (hd : d.Reached description) (hs : d.session = some s)
    (hsetup : (d.hw.read .sieStatus).bit Bit.setupReceived = false)
    (hreset : (d.hw.read .sieStatus).bit Bit.busReset = false)
    (hspares : ∀ i ∈ d.hw.toController.returned, s.SparesEvent (.buffer i))
    (hwaits : d.hw.toController.ep0Gone = true ∨ d.hw.toController.ep0Come = true)
    (p : SetupPacket) :
    (d.run [.host (.setup p), .service]).1.SameTransfer
        (d.run [.service, .host (.setup p), .service]).1 ↔
      (p.direction = .input ∧ ¬p.AsksForDescriptor) ∧
        (d.hw.toController.ep0Gone = true → s.control.addressPending = true) := by
  obtain ⟨-, s', -, -, hservice⟩ := hd.inService
  obtain rfl : s' = s := Option.some.inj (hservice.session.symm.trans hs)
  obtain ⟨s₁, hs₁, hd₁, hv₁⟩ := hservice.ep0_setup p hspares hreset
  obtain ⟨s₂, hs₂, hd₂, hv₂⟩ := hservice.ep0_completions hspares hsetup hreset
  -- the first of the two interrupts leaves nothing that waits
  have hnone : (d.step .service).2.1.hw.toController.returned = [] := by
    rw [hw_service, Controller.returned_retire]
  have hquiet : (d.step .service).2.1.hw.read .sieStatus = 0 := by
    rw [hw_service, Controller.sieStatus_retire]
  have hgone : (d.step .service).2.1.hw.toController.ep0Gone = false := by
    rw [hw_service, Controller.ep0Gone, Controller.buffStatus_retire, Word.bit_zero]
  have hcome : (d.step .service).2.1.hw.toController.ep0Come = false := by
    rw [hw_service, Controller.ep0Come, Controller.buffStatus_retire, Word.bit_zero]
  obtain ⟨s₃, hs₃, hd₃, hv₃⟩ := hd₂.ep0_setup p (by rw [hnone]; exact List.forall_mem_nil _)
    (by rw [hquiet, Word.bit_zero])
  rw [hv₂, hs₂.descriptors, hgone, hcome] at hv₃
  rw [fst_run_cons d .service, SameTransfer, hd₁.ep0?_eq, hd₃.ep0?_eq, hv₁, hv₃]
  simp only [Option.some.injEq, exists_and_left, exists_eq_left']
  exact Ep0.agree_iff _ _ p hwaits

/-- The host has completed the first packet that follows a request, and the interrupt waits. -/
def completedFirst (p : SetupPacket) : Device Bench :=
  ((opened {}).run [.host (.setup p), .service, .host (.complete Ep0.inAddress [] false)]).1

theorem reached_completedFirst (p : SetupPacket) : Reached {} (completedFirst p) :=
  reached_default.run (by simp [DeviceStep.Lawful, HostStep.Lawful])

/-- A request that assigns an address. -/
def assign : SetupPacket := ⟨0, 5, 42, 0, 0⟩

/-- A request for the descriptor of the device. -/
def getDevice : SetupPacket := ⟨0x80, 6, 0x0100, 0, 18⟩

/-- A request that is ignored. -/
def getStatus : SetupPacket := ⟨0x80, 0, 0, 0, 2⟩

theorem sameTransfer_getStatus :
    ((completedFirst assign).run [.host (.setup getStatus), .service]).1.SameTransfer
      ((completedFirst assign).run [.service, .host (.setup getStatus), .service]).1 := by
  have hreached := reached_completedFirst assign
  obtain ⟨-, s, -, -, hservice⟩ := hreached.inService
  obtain ⟨hpending, hsie, hreturned, hgone⟩ :
      (completedFirst assign).session.map (·.control.addressPending) = some true ∧
        (completedFirst assign).hw.read .sieStatus = 0 ∧
        (completedFirst assign).hw.toController.returned = [0] ∧
        (completedFirst assign).hw.toController.ep0Gone = true := by decide +kernel
  rw [hservice.session] at hpending
  refine (service_coalesced_iff hreached hservice.session (by rw [hsie, Word.bit_zero])
    (by rw [hsie, Word.bit_zero]) ?_ (.inl hgone) getStatus).2
    ⟨⟨by decide, fun h => absurd h.request (by decide)⟩, fun _ => Option.some.inj hpending⟩
  rw [hreturned, List.forall_mem_singleton]
  exact fun h => absurd h (by decide)

/-- The completion of an older packet ends the answer to the request that has just begun. -/
theorem not_sameTransfer_getDevice :
    Reached {} (completedFirst getDevice) ∧ (completedFirst getDevice).hw.read .sieStatus = 0 ∧
      (completedFirst getDevice).hw.toController.returned = [0] ∧
      ¬((completedFirst getDevice).run [.host (.setup getDevice), .service]).1.SameTransfer
        ((completedFirst getDevice).run [.service, .host (.setup getDevice), .service]).1 := by
  obtain ⟨hsie, hreturned, hphase⟩ : (completedFirst getDevice).hw.read .sieStatus = 0 ∧
      (completedFirst getDevice).hw.toController.returned = [0] ∧
      ((completedFirst getDevice).run [.host (.setup getDevice), .service]).1.phase ≠
        ((completedFirst getDevice).run
          [.service, .host (.setup getDevice), .service]).1.phase := by decide +kernel
  exact ⟨reached_completedFirst _, hsie, hreturned, fun h => hphase h.phase_eq⟩

end Device

end UsbGadget
