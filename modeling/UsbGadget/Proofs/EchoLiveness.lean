import UsbGadget.Proofs.EchoBuffers

/-!
# The echo never stalls

Once the main loop of the echo firmware has started, there is always something to come: the
controller has one of the two buffers, or it gave one back that was not handled yet
(`Firmware.never_stalls`). Resets of the bus and new enumerations do not change that, nor does an
interrupt that leaves the status bits as they are.

A buffer is taken off the controller's list only when its handler hands over the other one
(`Echo.Busy.leads_handleAll`), and no buffer that came back is overlooked, because the interrupt for
buffers is raised as long as there is one (`Controller.Heard`).
-/

namespace UsbGadget

/-! ### Buffers that came back are reported -/

namespace Controller

variable {c : Controller}

/-- As long as a buffer came back the interrupt for buffers is raised. -/
def Heard (c : Controller) : Prop :=
  c.read .buffStatus = 0 ∨ (c.read .ints).bit Bit.bufferInterrupt = true

theorem Ready.heard (h : c.Ready) : c.Heard := by
  by_cases hnone : c.read .buffStatus = 0
  · exact .inl hnone
  · right
    rw [h.ints, bit_raised h.inte (.inr (.inr rfl))]
    simpa [Bit.bufferInterrupt, Bit.setupInterrupt, Bit.resetInterrupt] using hnone

theorem heard_updateInterrupts (h : c.read .inte = wanted) : c.updateInterrupts.Heard :=
  (ready_updateInterrupts h).heard

theorem Heard.of_regs {c' : Controller} (h : c.Heard) (hregs : c'.regs = c.regs) : c'.Heard := by
  rwa [Heard, read_of_regs hregs, read_of_regs hregs]

theorem complete_of_not_fits {address : UInt8} {data : List UInt8}
    (hout : Direction.ofByte address = .output)
    (hlong : Dpram.size < c.packetOffset address .output + data.length) :
    (c.complete address data false).2 = c := by
  simp only [complete, hout, if_pos hlong]
  split <;> rfl

end Controller

/-- What any host does: it completes only packets that were handed over, with as much data as it
likes, and has no other way into the controller. -/
def HostStep.Honest : HostStep → Prop
  | complete _ _ force => force = false
  | poke _ _ _ => False
  | setup _ | busReset | peek _ _ | updateInterrupts => True

theorem HostStep.heard_run {c : Controller} (hinte : c.read .inte = Controller.wanted)
    (h : c.Heard) {step : HostStep} (hs : step.Honest) : (step.run c).2.Heard := by
  cases step with
  | setup packet => exact Controller.heard_updateInterrupts (by simpa using hinte)
  | busReset => exact Controller.heard_updateInterrupts (by simpa using hinte)
  | poke => cases hs
  | peek => exact h
  | updateInterrupts => exact Controller.heard_updateInterrupts hinte
  | complete address data force =>
    show (c.complete address data force).2.Heard
    rcases c.complete_cases address data force with hsame | ⟨i, -, w, hback | ⟨-, hback⟩⟩
    · rwa [hsame]
    · rw [hback]
      exact Controller.heard_updateInterrupts (by simpa using hinte)
    · rw [hback]
      exact Controller.heard_updateInterrupts (by simpa using hinte)

theorem Device.heard_interrupt {σ : Type} [Board σ] {d : Device σ}
    (h : d.hw.toController.Heard) : (d.handleAll d.pending).1.hw.toController.Heard := by
  have hints : (d.handleAll d.pending).1.hw.read .ints = d.hw.read .ints :=
    d.read_handleAll (by decide) fun event _ => by cases event <;> simp [Event.status]
  by_cases hraised : (d.hw.read .ints).bit Bit.bufferInterrupt = true
  · exact .inr (hints ▸ hraised)
  · -- no buffer came back, so none is handled and none is acknowledged
    have hnone : ∀ event ∈ d.pending, Register.buffStatus ≠ event.status := by
      intro event hevent
      cases event with
      | setup | busReset => decide
      | buffer i => exact absurd (buffer_mem_pending.1 hevent).1 hraised
    exact .inl ((d.read_handleAll (by decide) hnone).trans (h.resolve_right hraised))

namespace Echo

open Device

/-! ### One interrupt -/

/-- The controller has one of the two buffers, or gave one back. -/
def Buffers.Alive (b : Buffers) : Prop :=
  b.outArmed = true ∨ b.inArmed = true ∨ b.outBack = true ∨ b.inBack = true

section

variable {σ : Type} [Board σ] {d : Device σ} {s : Session}

theorem bufferAddress_eq {index : Nat} (hlt : index < Dpram.bufferControls) :
    (Event.bufferAddress index = outAddress → index = outIndex) ∧
      (Event.bufferAddress index = inAddress → index = inIndex) := by
  have key : ∀ i < 32, (Event.bufferAddress i = outAddress → i = outIndex) ∧
      (Event.bufferAddress i = inAddress → i = inIndex) := by decide
  exact key index hlt

/-- Any other buffer of callers belongs to no endpoint, so it is left alone. -/
theorem Busy.leads_other (h : Busy d s) {index : Nat} (hindex : 2 ≤ index)
    (hlt : index < Dpram.bufferControls) (hout : index ≠ outIndex) (hin : index ≠ inIndex) :
    Leads d (d.handle (.buffer index)) (d.hw.toController.armed outIndex)
      (d.hw.toController.armed inIndex) false := by
  obtain ⟨p, q, hcallers⟩ := h.callers
  have hnone : s.react d.hw.dpram (.buffer index) = (s, []) := by
    simp only [Session.react]
    cases hfind : s.endpoints.find? (·.address == Event.bufferAddress index) with
    | none => rfl
    | some e =>
      obtain ⟨hmem, haddress, handler, howner⟩ :=
        Session.owner_of_find h.active.sound.arranged hindex hlt hfind
      rw [endpoints_eq h.active.sound.arranged hcallers] at hmem
      simp only [List.mem_cons, List.not_mem_nil, or_false] at hmem
      rcases hmem with rfl | rfl | rfl | rfl
      · cases howner
      · cases howner
      · exact absurd ((bufferAddress_eq hlt).1 haddress.symm) hout
      · exact absurd ((bufferAddress_eq hlt).2 haddress.symm) hin
  have hactive := h.active.handle (.buffer index)
  rw [handle_eq h.active.session, hnone] at hactive ⊢
  have hsame := sameCallers_apply d.hw (Event.ofEp0_acknowledge (.buffer index))
  exact ⟨⟨s, h.of_same hactive rfl hsame⟩, rfl, hsame.armed_eq (by decide) (by decide),
    hsame.armed_eq (by decide) (by decide), rfl⟩

theorem Busy.leads_aside (h : Busy d s) {event : Event} (hreport : event.Reportable)
    (hout : event ≠ .buffer outIndex) (hin : event ≠ .buffer inIndex) :
    Leads d (d.handle event) (d.hw.toController.armed outIndex)
      (d.hw.toController.armed inIndex) false := by
  have hep0 (hevent : event.OfEp0) : Leads d (d.handle event) (d.hw.toController.armed outIndex)
      (d.hw.toController.armed inIndex) false := by
    rw [← handleAll_singleton]
    exact h.leads_ofEp0 (List.forall_mem_singleton.2 hevent)
  cases event with
  | setup => exact hep0 trivial
  | busReset => exact h.leads_busReset
  | buffer index =>
    rcases Nat.lt_or_ge index 2 with hcontrol | hcaller
    · exact hep0 hcontrol
    · exact h.leads_other hcaller hreport (fun heq => hout (congrArg _ heq))
        fun heq => hin (congrArg _ heq)

/-- An event of one of the two buffers hands the other one over. -/
theorem Busy.leads (h : Busy d s) {event : Event} (hreport : event.Reportable) :
    ∃ reclaimed, Leads d (d.handle event)
      (d.hw.toController.armed outIndex || .buffer inIndex == event)
      (d.hw.toController.armed inIndex || .buffer outIndex == event) reclaimed := by
  by_cases hout : event = .buffer outIndex
  · have hleads := h.leads_out true
    rw [if_pos rfl, handleAll_singleton] at hleads
    rw [hout, beq_self_eq_true, show (Event.buffer inIndex == .buffer outIndex) = false from rfl,
      Bool.or_false]
    exact ⟨_, hleads⟩
  by_cases hin : event = .buffer inIndex
  · have hleads := h.leads_in true
    rw [if_pos rfl, handleAll_singleton] at hleads
    rw [hin, beq_self_eq_true, show (Event.buffer outIndex == .buffer inIndex) = false from rfl,
      Bool.or_false]
    exact ⟨_, hleads⟩
  · rw [beq_false_of_ne (Ne.symm hin), beq_false_of_ne (Ne.symm hout), Bool.or_false,
      Bool.or_false]
    exact ⟨_, h.leads_aside hreport hout hin⟩

/-- So do events in a row. -/
theorem Busy.leads_handleAll (h : Busy d s) {events : List Event}
    (hreport : ∀ event ∈ events, event.Reportable) :
    ∃ reclaimed, Leads d (d.handleAll events)
      (d.hw.toController.armed outIndex || events.contains (.buffer inIndex))
      (d.hw.toController.armed inIndex || events.contains (.buffer outIndex)) reclaimed := by
  induction events generalizing d s with
  | nil =>
    simp only [List.contains_nil, Bool.or_false]
    exact ⟨_, h.leads_nil⟩
  | cons event events ih =>
    rw [List.forall_mem_cons] at hreport
    obtain ⟨r, hfirst⟩ := h.leads hreport.1
    obtain ⟨s', h'⟩ := hfirst.busy
    obtain ⟨r', hrest⟩ := ih h' hreport.2
    rw [hfirst.outArmed, hfirst.inArmed, Bool.or_assoc, Bool.or_assoc] at hrest
    rw [← handleAll_singleton] at hfirst hrest
    rw [List.contains_cons, List.contains_cons]
    exact ⟨_, hfirst.append hrest⟩

/-- The echo device between two steps of any run, whatever becomes of its status bits. -/
structure Alert (d : Device σ) (s : Session) : Prop extends Busy d s where
  /-- What came back is reported. -/
  heard : d.hw.toController.Heard

omit [Board σ] in
theorem Poised.alert (h : Poised d s) : Alert d s := ⟨h.toBusy, h.ready.heard⟩

omit [Board σ] in
theorem Alert.mem_pending (h : Alert d s) {i : Nat} (hi : i < Dpram.bufferControls)
    (hback : (d.hw.read .buffStatus).bit i = true) : .buffer i ∈ d.pending := by
  have hsome : d.hw.read .buffStatus ≠ 0 := by
    intro hnone
    rw [hnone] at hback
    exact absurd ((Word.bit_of_eq_zero rfl i).symm.trans hback) Bool.false_ne_true
  exact buffer_mem_pending.2 ⟨h.heard.resolve_left hsome, Controller.mem_returned.2 ⟨hi, hback⟩⟩

/-- After an interrupt the controller has one of the two buffers, if there was anything to come. -/
theorem Alert.interrupt (h : Alert d s) :
    (∃ s', Alert (d.handleAll d.pending).1 s') ∧
      ((Buffers.of d.hw.toController).Alive →
        (d.handleAll d.pending).1.hw.toController.armed outIndex = true ∨
          (d.handleAll d.pending).1.hw.toController.armed inIndex = true) := by
  obtain ⟨_, hleads⟩ :=
    h.toBusy.leads_handleAll fun _ => reportable_of_mem_pending (d := d)
  obtain ⟨s', hbusy⟩ := hleads.busy
  refine ⟨⟨s', hbusy, heard_interrupt h.heard⟩, ?_⟩
  rw [hleads.outArmed, hleads.inArmed]
  -- a buffer that the controller has stays there, and one that came back has the other handed over
  rintro (hout | hin | hback | hback)
  · exact .inl (Bool.or_eq_true_iff.2 (.inl hout))
  · exact .inr (Bool.or_eq_true_iff.2 (.inl hin))
  · have hpending := h.mem_pending (by decide) hback
    exact .inr (Bool.or_eq_true_iff.2 (.inr (List.contains_iff_mem.2 hpending)))
  · have hpending := h.mem_pending (by decide) hback
    exact .inl (Bool.or_eq_true_iff.2 (.inr (List.contains_iff_mem.2 hpending)))

theorem Alert.service (h : Alert d s) :
    (∃ s', Alert (d.step .service).2.1 s') ∧
      ((Buffers.of d.hw.toController).Alive →
        (d.step .service).2.1.hw.toController.armed outIndex = true ∨
          (d.step .service).2.1.hw.toController.armed inIndex = true) := by
  obtain ⟨⟨s', hs'⟩, harmed⟩ := h.interrupt
  obtain ⟨hpoised, hbuffers⟩ := hs'.toBusy.retire
  have hout : (d.step .service).2.1.hw.toController.armed outIndex = _ :=
    congrArg Buffers.outArmed hbuffers
  have hin : (d.step .service).2.1.hw.toController.armed inIndex = _ :=
    congrArg Buffers.inArmed hbuffers
  rw [hout, hin]
  exact ⟨⟨s', hpoised.alert⟩, harmed⟩

omit [Board σ] in
theorem Busy.goes_on (h : Busy d s) {c : Controller} (hinte : c.read .inte = Controller.wanted)
    (hsame : d.hw.toController.SameCallers c)
    (hback : c.read .buffStatus = d.hw.read .buffStatus) :
    Busy (d.mapController fun _ => c) s ∧ Buffers.of c = Buffers.of d.hw.toController := by
  refine ⟨h.of_same ⟨h.active.session, h.active.sound, hinte⟩ rfl hsame, ?_⟩
  rw [Buffers.of, hsame.armed_eq (by decide) (by decide), hsame.armed_eq (by decide) (by decide),
    hback]
  rfl

omit [Board σ] in
theorem Busy.complete (h : Busy d s) (address : UInt8) (data : List UInt8) :
    Busy (d.mapController fun _ => (d.hw.toController.complete address data false).2) s ∧
      ((Buffers.of d.hw.toController).Alive →
        (Buffers.of (d.hw.toController.complete address data false).2).Alive) := by
  generalize hindex : Dpram.bufferControlIndex address (.ofByte address) = index
  by_cases hnot : (d.hw.toController.complete address data false).2 = d.hw.toController
  · rw [hnot]
    exact ⟨(h.goes_on h.active.inte (.refl _) rfl).1, id⟩
  -- something has changed, so the completion was possible
  have harmed : d.hw.toController.armed index = true := by
    rw [← Bool.not_eq_false]
    exact fun hfalse => hnot (congrArg Prod.snd (Controller.complete_of_not_armed data
      (hindex ▸ hfalse)))
  have hfits : Direction.ofByte address = .output →
      d.hw.toController.packetOffset address .output + data.length ≤ Dpram.size := by
    intro hout
    by_contra hlong
    exact hnot (Controller.complete_of_not_fits hout (Nat.lt_of_not_le hlong))
  obtain ⟨-, hbusy, hafter⟩ := h.complete_armed hindex hfits harmed
  obtain ⟨hout, houtBack⟩ := hafter outIndex (by decide)
  obtain ⟨hin, hinBack⟩ := hafter inIndex (by decide)
  refine ⟨hbusy, ?_⟩
  -- the buffer that the controller has no more came back
  rintro (hleft | hleft | hleft | hleft)
  · by_cases hself : outIndex = index
    · exact .inr (.inr (.inl (houtBack.trans (Bool.or_eq_true_iff.2 (.inr (beq_iff_eq.2 hself))))))
    · exact .inl (hout.trans ((if_neg hself).trans hleft))
  · by_cases hself : inIndex = index
    · exact .inr (.inr (.inr (hinBack.trans (Bool.or_eq_true_iff.2 (.inr (beq_iff_eq.2 hself))))))
    · exact .inr (.inl (hin.trans ((if_neg hself).trans hleft)))
  · exact .inr (.inr (.inl (houtBack.trans (Bool.or_eq_true_iff.2 (.inl hleft)))))
  · exact .inr (.inr (.inr (hinBack.trans (Bool.or_eq_true_iff.2 (.inl hleft)))))

omit [Board σ] in
/-- Where the controller has one of the two buffers, the host can go on. -/
theorem Busy.exists_complete (h : Busy d s) (harmed : d.hw.toController.armed outIndex = true ∨
      d.hw.toController.armed inIndex = true) :
    ∃ address, (address = outAddress ∨ address = inAddress) ∧
      ∀ data : List UInt8, data.length ≤ Dpram.bufferSize →
        (d.hw.toController.complete address data false).1 = true := by
  have hout : Dpram.bufferControlIndex outAddress (.ofByte outAddress) = outIndex := rfl
  have hin : Dpram.bufferControlIndex inAddress (.ofByte inAddress) = inIndex := rfl
  rcases harmed with harmed | harmed
  · refine ⟨outAddress, .inl rfl, fun data hdata => (h.complete_armed hout (fun _ => ?_) harmed).1⟩
    rw [h.outOffset]
    exact Nat.le_trans (Nat.add_le_add_left hdata _) (by decide)
  · exact ⟨inAddress, .inr rfl, fun data _ => (h.complete_armed hin nofun harmed).1⟩

theorem Alert.host (h : Alert d s) {step : HostStep} (hs : step.Honest) :
    Alert (d.step (.host step)).2.1 s ∧
      ((Buffers.of d.hw.toController).Alive →
        (Buffers.of (d.step (.host step)).2.1.hw.toController).Alive) := by
  have hheard := HostStep.heard_run h.active.inte h.heard hs
  rw [step_host, toController_mapController]
  have haside (hquiet : step.Quiet) :
      Alert (d.mapController fun _ => (step.run d.hw.toController).2) s ∧
        ((Buffers.of d.hw.toController).Alive →
          (Buffers.of (step.run d.hw.toController).2).Alive) := by
    obtain ⟨hsame, hback, hinte⟩ := HostStep.sameCallers_run d.hw.toController hquiet
    obtain ⟨hbusy, hbuffers⟩ := h.toBusy.goes_on (hinte.trans h.active.inte) hsame hback
    exact ⟨⟨hbusy, hheard⟩, fun halive => hbuffers ▸ halive⟩
  cases step with
  | poke => cases hs
  | complete address data force =>
    obtain rfl : force = false := hs
    obtain ⟨hbusy, halive⟩ := h.toBusy.complete address data
    exact ⟨⟨hbusy, hheard⟩, halive⟩
  | setup | busReset | peek | updateInterrupts => exact haside trivial

end

end Echo

/-! ### The firmware -/

/-- A step of any run, with any host. -/
def FirmwareStep.Honest : FirmwareStep → Prop
  | loop | interrupt | service => True
  | host step => step.Honest

namespace Firmware

open Echo Device

/-- The firmware between two steps: once it has started there is something to come. -/
def Lively (f : Firmware) : Prop :=
  ∃ s, Alert f.device s ∧ (f.started = true → f.buffers.Alive)

variable {f : Firmware}

theorem Lively.mainLoop (h : f.Lively) : f.mainLoop.1.Lively := by
  obtain ⟨s, hs, halive⟩ := h
  unfold Firmware.mainLoop
  cases hconfigured : f.device.isConfigured with
  | false => exact ⟨s, hs, nofun⟩
  | true =>
    cases hstarted : f.started with
    | true => exact ⟨s, hs, halive⟩
    | false =>
      obtain ⟨-, ⟨s', hbusy⟩, hregs, hbuffers, -⟩ := hs.toBusy.start
      refine ⟨s', ⟨hbusy, hs.heard.of_regs hregs⟩, fun _ => .inl ?_⟩
      exact congrArg Buffers.outArmed hbuffers

theorem alert_writeSoc {s : Session} (h : Alert f.device s) (r : SocRegister) (w : Word) :
    Alert (f.writeSoc r w).device s := ⟨busy_writeSoc h.toBusy r w, h.heard⟩

theorem lively_writeSoc {d : Device Soc} {s : Session} {started : Bool} (hd : Alert d s)
    (harms : started = true →
      d.hw.toController.armed outIndex = true ∨ d.hw.toController.armed inIndex = true)
    (r : SocRegister) (w : Word) : (writeSoc ⟨d, started⟩ r w).Lively :=
  ⟨s, alert_writeSoc hd r w, fun hstarted => (harms hstarted).elim .inl fun hin => .inr (.inl hin)⟩

/-- The interrupt is serviced, whether the status bits go away or not: the controller has one of the
two buffers, if the main loop has started. -/
theorem Lively.interrupt (h : f.Lively) {step : FirmwareStep}
    (hstep : step = .interrupt ∨ step = .service) :
    (f.step step).2.1.Lively ∧
      (f.started = true → (f.step step).2.1.buffers.outArmed = true ∨
        (f.step step).2.1.buffers.inArmed = true) := by
  obtain ⟨s, hs, halive⟩ := h
  have halert := alert_writeSoc hs .gpioOutSet led
  rcases hstep with rfl | rfl
  · obtain ⟨⟨s', hs'⟩, harmed⟩ := halert.interrupt
    have heq : (f.step .interrupt).2.1 = writeSoc
        ⟨((f.writeSoc .gpioOutSet led).device.handleAll
          (f.writeSoc .gpioOutSet led).device.pending).1, f.started⟩ .gpioOutClr led := rfl
    rw [heq]
    exact ⟨lively_writeSoc hs' (harmed ∘ halive) _ _, harmed ∘ halive⟩
  · obtain ⟨⟨s', hs'⟩, harmed⟩ := halert.service
    rw [step_service]
    exact ⟨lively_writeSoc hs' (harmed ∘ halive) _ _, harmed ∘ halive⟩

theorem Lively.step (h : f.Lively) {step : FirmwareStep} (hs : step.Honest) :
    (f.step step).2.1.Lively := by
  cases step with
  | loop => exact h.mainLoop
  | interrupt => exact (h.interrupt (.inl rfl)).1
  | service => exact (h.interrupt (.inr rfl)).1
  | host step =>
    obtain ⟨s, halert, halive⟩ := h
    obtain ⟨halert', hgoes⟩ := halert.host hs
    exact ⟨s, halert', hgoes ∘ halive⟩

theorem Lively.run (h : f.Lively) {steps : List FirmwareStep}
    (hsteps : ∀ step ∈ steps, step.Honest) : (f.run steps).1.Lively := by
  induction steps generalizing f with
  | nil => exact h
  | cons step steps ih =>
    rw [List.forall_mem_cons] at hsteps
    rw [run_cons]
    exact ih (h.step hsteps.1) hsteps.2

theorem lively_opened (resets : Word) : (opened resets).1.Lively := by
  obtain ⟨⟨s, hs⟩, -⟩ := poised_opened resets
  exact ⟨s, hs.alert, nofun⟩

/-- Whenever the main loop has started, the controller has one of the two buffers or gave one back
that is still to be handled; so once the interrupt was serviced, the host can deliver a packet to
the echo or fetch one from it. -/
theorem never_stalls (resets : Word) {steps : List FirmwareStep}
    (hsteps : ∀ step ∈ steps, step.Honest) :
    let f := ((opened resets).1.run steps).1
    let c := f.device.hw.toController
    f.started = true →
      (c.armed outIndex = true ∨ c.armed inIndex = true ∨
        (c.read .buffStatus).bit outIndex = true ∨ (c.read .buffStatus).bit inIndex = true) ∧
      ∀ step : FirmwareStep, step = .interrupt ∨ step = .service →
        ∃ address, (address = outAddress ∨ address = inAddress) ∧
          ∀ data : List UInt8, data.length ≤ Dpram.bufferSize →
            ((f.step step).2.1.step (.host (.complete address data false))).1 = .answer true := by
  intro f c hstarted
  have h : f.Lively := (lively_opened resets).run hsteps
  refine ⟨?_, fun step hstep => ?_⟩
  · obtain ⟨s, -, halive⟩ := h
    exact halive hstarted
  · obtain ⟨⟨s, halert, -⟩, harmed⟩ := h.interrupt hstep
    obtain ⟨address, haddress, hanswer⟩ := halert.toBusy.exists_complete (harmed hstarted)
    exact ⟨address, haddress, fun data hdata => congrArg Outcome.answer (hanswer data hdata)⟩

/-- After a reset of the bus and a new enumeration, with the first packet not delivered yet. -/
theorem never_stalls_reenumerated :
    let f := ((opened 0).1.run reenumerated).1
    f.started = true ∧ ∃ address, (address = outAddress ∨ address = inAddress) ∧
      ∀ data : List UInt8, data.length ≤ Dpram.bufferSize →
        ((f.step .service).2.1.step (.host (.complete address data false))).1 = .answer true := by
  have hsteps : ∀ step ∈ reenumerated, step.Honest := by
    simp [reenumerated, FirmwareStep.Honest, HostStep.Honest]
  have hstarted : ((opened 0).1.run reenumerated).1.started = true := by decide +kernel
  exact ⟨hstarted, (never_stalls 0 hsteps hstarted).2 .service (.inr rfl)⟩

end Firmware

end UsbGadget
