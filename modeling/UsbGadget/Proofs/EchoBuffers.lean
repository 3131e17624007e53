import UsbGadget.Proofs.EchoRun

/-!
# Who has the buffers of the echo firmware

The echo firmware hands its two buffers over from three places: its main loop, and the handlers of
the two endpoints. A reset of the bus does not take a buffer back, but it has the main loop start
once more, so a second packet goes round, and then a buffer is handed over that the controller still
has (`reclaims`).

* `Echo.Buffers` says who has the two buffers, and `Echo.Buffers.Step` how that changes; the lemmas
  about it count the packets that go round;
* `Echo.Poised` holds between two steps of any run, resets of the bus included;
* `Firmware.Poised.step` shows that the firmware moves as `Echo.Buffers.Step` says;
* `Firmware.reclaims_iff` is the main statement: nothing is reclaimed, whatever the host does next,
  exactly where the main loop has started once at most.
-/

namespace UsbGadget

/-! ### Buffers that are handed over twice -/

section

variable {σ : Type} [Board σ]

/-- The effect hands a packet of the echo interface over while the controller has its buffer. -/
def Effect.reclaims (h : Hardware σ) : Effect → Bool
  | arm e _ => e.interface == Echo.interface && h.toController.armed e.bufferControl
  | write _ _ | reset | clear | line _ | enable _ | heed _ | collect _ _ | call _ _ _ => false

/-- An effect of the log does so, when its turn has come. -/
def reclaims (h : Hardware σ) : List Effect → Bool
  | [] => false
  | e :: log => e.reclaims h || reclaims (e.apply h) log

theorem reclaims_append (h : Hardware σ) (log log' : List Effect) :
    reclaims h (log ++ log') = (reclaims h log || reclaims (replay log h) log') := by
  induction log generalizing h with
  | nil => rfl
  | cons e log ih => rw [List.cons_append, reclaims, ih, reclaims, replay_cons, Bool.or_assoc]

theorem reclaims_congr {h h' : Hardware σ} (hc : h.toController = h'.toController)
    (log : List Effect) : reclaims h log = reclaims h' log := by
  induction log generalizing h h' with
  | nil => rfl
  | cons e log ih =>
    have he : e.reclaims h = e.reclaims h' := by
      cases e with
      | arm => rw [Effect.reclaims, hc, Effect.reclaims]
      | write | reset | clear | line | enable | heed | collect | call => rfl
    rw [reclaims, he, ih (Effect.toController_apply_congr rfl hc e), reclaims]

/-- A log that hands nothing over on the echo interface reclaims nothing. -/
theorem reclaims_of_handed {log : List Effect}
    (hlog : ∀ address, handedOver Echo.interface address log = []) (h : Hardware σ) :
    reclaims h log = false := by
  induction log generalizing h with
  | nil => rfl
  | cons e log ih =>
    have hcons (address : UInt8) : e.handed? Echo.interface address = none ∧
        handedOver Echo.interface address log = [] := by
      have hnone := hlog address
      rw [handedOver, List.filterMap_eq_nil_iff, List.forall_mem_cons] at hnone
      exact ⟨hnone.1, List.filterMap_eq_nil_iff.2 hnone.2⟩
    have he : e.reclaims h = false := by
      cases e with
      | arm e data =>
        have hnot : ¬e.interface = Echo.interface := by
          intro hinterface
          have hhanded := (hcons e.address).1
          rw [Effect.handed?, if_pos ⟨hinterface, rfl⟩] at hhanded
          cases hhanded
        rw [Effect.reclaims, beq_false_of_ne hnot, Bool.false_and]
      | write | reset | clear | line | enable | heed | collect | call => rfl
    rw [reclaims, he, ih fun address => (hcons address).2, Bool.false_or]

end

/-- A step of the host that completes no packet and writes nothing over. -/
def HostStep.Quiet : HostStep → Prop
  | setup _ | busReset | peek _ _ | updateInterrupts => True
  | complete _ _ _ | poke _ _ _ => False

theorem HostStep.sameCallers_run (c : Controller) {step : HostStep} (hquiet : step.Quiet) :
    c.SameCallers (step.run c).2 ∧ (step.run c).2.read .buffStatus = c.read .buffStatus ∧
      (step.run c).2.read .inte = c.read .inte := by
  cases step with
  | setup p =>
    exact ⟨c.sameCallers_deliverSetup p, c.read_deliverSetup p (by decide) (by decide),
      c.read_deliverSetup p (by decide) (by decide)⟩
  | busReset =>
    exact ⟨.of_dpram c.dpram_deliverReset, c.read_deliverReset (by decide) (by decide),
      c.read_deliverReset (by decide) (by decide)⟩
  | updateInterrupts =>
    exact ⟨.of_dpram c.dpram_updateInterrupts, c.read_updateInterrupts (by decide),
      c.read_updateInterrupts (by decide)⟩
  | peek => exact ⟨.refl c, rfl, rfl⟩
  | complete | poke => cases hquiet

namespace Echo

open Device

/-! ### The two buffers -/

/-- Who has the two buffers, and which of them came back and wait to be handled. -/
structure Buffers where
  /-- The controller has the buffer of the endpoint that receives. -/
  outArmed : Bool
  /-- The controller has the buffer of the endpoint that sends. -/
  inArmed : Bool
  /-- A packet has come in. -/
  outBack : Bool
  /-- A packet has gone out. -/
  inBack : Bool
deriving DecidableEq

namespace Buffers

/-- The two buffers, as a controller has them. -/
def of (c : Controller) : Buffers where
  outArmed := c.armed outIndex
  inArmed := c.armed inIndex
  outBack := (c.read .buffStatus).bit outIndex
  inBack := (c.read .buffStatus).bit inIndex

/-- How many packets go round. -/
def count (b : Buffers) : Nat := [b.outArmed, b.inArmed, b.outBack, b.inBack].count true

/-- The buffers after an interrupt: what came back goes over on the other endpoint. -/
def serviced (b : Buffers) : Buffers :=
  ⟨b.outArmed || b.inBack, b.inArmed || b.outBack, false, false⟩

/-- A buffer came back whose successor the controller still has. -/
def clashes (b : Buffers) : Bool := (b.outBack && b.inArmed) || (b.inBack && b.outArmed)

/-- Where two packets go round and none is in the way of the other, the controller has both buffers
after the next interrupt. -/
theorem both_armed (b : Buffers) (hcount : 2 ≤ b.count) (hclash : b.clashes = false) :
    b.serviced.outArmed = true ∧ b.serviced.inArmed = true := by
  obtain ⟨outArmed, inArmed, outBack, inBack⟩ := b
  revert outArmed inArmed outBack inBack
  decide

/-- One step of the firmware, seen from the buffers: whether the main loop starts, and whether a
buffer is reclaimed. -/
inductive Step (b : Buffers) : Bool → Bool → Buffers → Prop
  /-- Something that is not about the buffers. -/
  | still : Step b false false b
  /-- The host delivers a packet. -/
  | received (h : b.outArmed = true) :
    Step b false false { b with outArmed := false, outBack := true }
  /-- The host fetches a packet. -/
  | fetched (h : b.inArmed = true) : Step b false false { b with inArmed := false, inBack := true }
  /-- The interrupt is serviced. -/
  | serviced : Step b false b.clashes b.serviced
  /-- The main loop starts. -/
  | started : Step b true b.outArmed { b with outArmed := true }

namespace Step

variable {b b' : Buffers} {starts reclaimed : Bool}

theorem count_le (h : b.Step starts reclaimed b') : b'.count ≤ b.count + starts.toNat := by
  obtain ⟨outArmed, inArmed, outBack, inBack⟩ := b
  cases h <;> revert outArmed inArmed outBack inBack <;> decide

/-- No packet is lost altogether. -/
theorem count_pos (h : b.Step starts reclaimed b') (hb : 1 ≤ b.count) : 1 ≤ b'.count := by
  obtain ⟨outArmed, inArmed, outBack, inBack⟩ := b
  cases h <;> revert outArmed inArmed outBack inBack <;> decide

theorem count_pos_of_start (h : b.Step true reclaimed b') : 1 ≤ b'.count := by
  obtain ⟨outArmed, inArmed, outBack, inBack⟩ := b
  cases h
  revert outArmed inArmed outBack inBack
  decide

theorem not_reclaimed (h : b.Step starts reclaimed b') (hb : b.count + starts.toNat ≤ 1) :
    reclaimed = false := by
  obtain ⟨outArmed, inArmed, outBack, inBack⟩ := b
  cases h <;> revert outArmed inArmed outBack inBack <;> decide

/-- A start while a packet goes round reclaims it, or adds a second one. -/
theorem two_le_count (h : b.Step true reclaimed b') (hb : 1 ≤ b.count) :
    reclaimed = true ∨ 2 ≤ b'.count := by
  obtain ⟨outArmed, inArmed, outBack, inBack⟩ := b
  cases h
  revert outArmed inArmed outBack inBack
  decide

end Step

end Buffers

/-! ### One interrupt -/

section

variable {σ : Type} [Board σ] {d : Device σ} {s : Session}

/-- The echo device while an interrupt is serviced, wherever its packets are. -/
structure Busy (d : Device σ) (s : Session) : Prop where
  /-- It is open. -/
  active : d.Active s
  /-- Its two endpoints. -/
  callers : ∃ p q, s.callers = [receiver p, sender q]
  /-- Where received packets lie. -/
  outOffset : d.hw.toController.packetOffset outAddress .output = 0x180
  /-- Of the buffers of callers the controller has the two of the interface only. -/
  armed : ∀ i, 2 ≤ i → i < Dpram.bufferControls → d.hw.toController.armed i = true →
    i = outIndex ∨ i = inIndex

/-- Handling events leads to a device in which the controller has buffers as given, and reclaims one
if the last value says so. -/
structure Leads (d : Device σ) (result : Device σ × List Effect)
    (outArmed inArmed reclaimed : Bool) : Prop where
  /-- The device is still busy. -/
  busy : ∃ s', Busy result.1 s'
  /-- The effects are in the log. -/
  hw : result.1.hw = replay result.2 d.hw
  /-- The buffer of the endpoint that receives. -/
  outArmed : result.1.hw.toController.armed outIndex = outArmed
  /-- The buffer of the endpoint that sends. -/
  inArmed : result.1.hw.toController.armed inIndex = inArmed
  /-- What was reclaimed. -/
  reclaims : reclaims d.hw result.2 = reclaimed

theorem Leads.append {events events' : List Event} {o i r o' i' r' : Bool}
    (h : Leads d (d.handleAll events) o i r)
    (h' : Leads (d.handleAll events).1 ((d.handleAll events).1.handleAll events') o' i' r') :
    Leads d (d.handleAll (events ++ events')) o' i' (r || r') := by
  rw [handleAll_append]
  refine ⟨h'.busy, ?_, h'.outArmed, h'.inArmed, ?_⟩
  · rw [h'.hw, h.hw, replay_append]
  · rw [reclaims_append, h.reclaims, ← h.hw, h'.reclaims]

theorem Busy.leads_nil (h : Busy d s) :
    Leads d (d.handleAll []) (d.hw.toController.armed outIndex) (d.hw.toController.armed inIndex)
      false := ⟨⟨s, h⟩, rfl, rfl, rfl, rfl⟩

omit [Board σ] in
theorem Busy.of_same (h : Busy d s) {d' : Device σ} {s' : Session} (hactive : d'.Active s')
    (hcallers : s'.callers = s.callers)
    (hsame : d.hw.toController.SameCallers d'.hw.toController) : Busy d' s' where
  active := hactive
  callers := hcallers ▸ h.callers
  outOffset := (hsame.packetOffset_eq _ _).trans h.outOffset
  armed i hi hi' harmed := h.armed i hi hi' ((hsame.armed_eq hi hi').symm.trans harmed)

theorem Busy.leads_ofEp0 (h : Busy d s) {events : List Event}
    (hevents : ∀ event ∈ events, event.OfEp0) :
    Leads d (d.handleAll events) (d.hw.toController.armed outIndex)
      (d.hw.toController.armed inIndex) false := by
  obtain ⟨s', hleft⟩ := h.active.within_handleAll hevents
  exact ⟨⟨s', h.of_same hleft.active hleft.callers hleft.memory⟩, hw_handleAll d events,
    hleft.memory.armed_eq (by decide) (by decide), hleft.memory.armed_eq (by decide) (by decide),
    reclaims_of_handed (fun address => hleft.handed interface address (by decide)) d.hw⟩

theorem Busy.leads_busReset (h : Busy d s) :
    Leads d (d.handle .busReset) (d.hw.toController.armed outIndex)
      (d.hw.toController.armed inIndex) false := by
  have hreact : s.react d.hw.dpram .busReset =
      ({ s with control := {} }, [.write .addrEndp 0]) := rfl
  have hactive := h.active.handle .busReset
  rw [handle_eq h.active.session, hreact] at hactive ⊢
  have hsame : d.hw.toController.SameCallers
      (replay [Event.busReset.acknowledge, .write .addrEndp 0] d.hw).toController :=
    sameCallers_replay d.hw (List.forall_mem_cons.2 ⟨Event.busReset.ofEp0_acknowledge,
      List.forall_mem_singleton.2 (.inl rfl)⟩)
  exact ⟨⟨_, h.of_same hactive rfl hsame⟩, rfl, hsame.armed_eq (by decide) (by decide),
    hsame.armed_eq (by decide) (by decide), rfl⟩

theorem Busy.hands (h : Busy d s) {e : Endpoint} (he : e.Placed)
    (hinterface : e.interface = interface) {index : Nat} {data data' : List UInt8} {name : String}
    {answers : List Bool} {e' : Endpoint} {s' : Session}
    (hreact : s.react d.hw.dpram (.buffer index) =
      (s', [.collect e' data', .call name data' answers, .arm e data]))
    (hcallers : ∃ p q, s'.callers = [receiver p, sender q])
    (hcontrol : e.bufferControl = outIndex ∨ e.bufferControl = inIndex) :
    Leads d (d.handle (.buffer index))
      (if outIndex = e.bufferControl then true else d.hw.toController.armed outIndex)
      (if inIndex = e.bufferControl then true else d.hw.toController.armed inIndex)
      (d.hw.toController.armed e.bufferControl) := by
  have hactive := h.active.handle (.buffer index)
  rw [handle_eq h.active.session, hreact] at hactive ⊢
  have hsame := sameCallers_apply d.hw (Event.ofEp0_acknowledge (.buffer index))
  -- what goes before the packet leaves the buffers alone
  have hhw : replay ((Event.buffer index).acknowledge ::
      [.collect e' data', .call name data' answers, .arm e data]) d.hw =
      (Effect.arm e data).apply ((Event.buffer index).acknowledge.apply d.hw) := rfl
  have harmed : ∀ i, 2 ≤ i → i < Dpram.bufferControls →
      (replay ((Event.buffer index).acknowledge ::
        [.collect e' data', .call name data' answers, .arm e data]) d.hw).toController.armed i =
        if i = e.bufferControl then true else d.hw.toController.armed i := by
    intro i hi hi'
    rw [hhw, Effect.armed_apply_arm he _ data hi', hsame.armed_eq hi hi']
  have hle : 2 ≤ e.bufferControl := by rcases hcontrol with hc | hc <;> rw [hc] <;> decide
  refine ⟨⟨s', hactive, hcallers, ?_, ?_⟩, rfl, harmed _ (by decide) (by decide),
    harmed _ (by decide) (by decide), ?_⟩
  · rw [hw_after, hhw, Token.packetOffset_arm he, hsame.packetOffset_eq]
    exact h.outOffset
  · intro i hi hi' hi''
    rw [hw_after, harmed i hi hi'] at hi''
    split_ifs at hi'' with hself
    · exact hself ▸ hcontrol
    · exact h.armed i hi hi' hi''
  · have hlast : reclaims d.hw ((Event.buffer index).acknowledge ::
        [.collect e' data', .call name data' answers, .arm e data]) =
        (Effect.arm e data).reclaims ((Event.buffer index).acknowledge.apply d.hw) := by
      simp only [reclaims, Event.acknowledge, Effect.reclaims, Effect.apply, Bool.false_or,
        Bool.or_false]
    rw [hlast, Effect.reclaims, hinterface, beq_self_eq_true, Bool.true_and,
      hsame.armed_eq hle he.bufferControl_lt]

theorem Busy.leads_out (h : Busy d s) (back : Bool) :
    Leads d (d.handleAll (if back then [.buffer outIndex] else []))
      (d.hw.toController.armed outIndex) (d.hw.toController.armed inIndex || back)
      (back && d.hw.toController.armed inIndex) := by
  cases back with
  | false =>
    rw [Bool.or_false]
    exact h.leads_nil
  | true =>
    obtain ⟨p, q, hcallers⟩ := h.callers
    rw [if_pos rfl, handleAll_singleton, Bool.or_true, Bool.true_and]
    exact h.hands (placed_sender q) rfl (react_receiver h.active.sound.arranged hcallers _)
      ⟨_, _, rfl⟩ (.inr rfl)

theorem Busy.leads_in (h : Busy d s) (back : Bool) :
    Leads d (d.handleAll (if back then [.buffer inIndex] else []))
      (d.hw.toController.armed outIndex || back) (d.hw.toController.armed inIndex)
      (back && d.hw.toController.armed outIndex) := by
  cases back with
  | false =>
    rw [Bool.or_false]
    exact h.leads_nil
  | true =>
    obtain ⟨p, q, hcallers⟩ := h.callers
    rw [if_pos rfl, handleAll_singleton, Bool.or_true, Bool.true_and]
    exact h.hands (placed_receiver p) rfl (react_sender h.active.sound.arranged hcallers _)
      ⟨_, _, rfl⟩ (.inl rfl)

theorem Busy.leads_reset (h : Busy d s) (reset : Bool) :
    Leads d (d.handleAll (if reset then [.busReset] else []))
      (d.hw.toController.armed outIndex) (d.hw.toController.armed inIndex) false := by
  cases reset with
  | false => exact h.leads_nil
  | true =>
    rw [if_pos rfl, handleAll_singleton]
    exact h.leads_busReset

/-! ### What else happens to the buffers -/

omit [Board σ] in
/-- Where packets that the host delivers lie, if they are delivered at all. -/
theorem Busy.packetOffset_eq (h : Busy d s) {address : UInt8}
    (hdirection : Direction.ofByte address = .output)
    (harmed : d.hw.toController.armed
      (Dpram.bufferControlIndex address (.ofByte address)) = true) :
    d.hw.toController.packetOffset address .output = Dpram.ep0Buffer ∨
      d.hw.toController.packetOffset address .output = 0x180 := by
  have hlt := Controller.bufferControlIndex_lt address (.ofByte address)
  generalize hindex : Dpram.bufferControlIndex address (.ofByte address) = index at harmed hlt
  rcases Nat.lt_or_ge index 2 with hcontrol | hcaller
  · left
    have hnumber : address.toNat % 16 = 0 := by
      simp only [Dpram.bufferControlIndex] at hindex
      omega
    rw [Controller.packetOffset, Dpram.endpointControlIndex, if_pos hnumber]
  · right
    -- an OUT packet of a caller is one of the endpoint that receives
    have hout : index = outIndex := by
      refine (h.armed index hcaller hlt harmed).resolve_right ?_
      rintro rfl
      have hin := (Token.address_of_index hindex).1
      rw [hdirection] at hin
      cases hin
    have hnumber : address.toNat % 16 = outAddress.toNat % 16 :=
      (Token.address_of_index (hindex.trans hout)).2
    rw [d.hw.toController.packetOffset_congr_number hnumber, h.outOffset]

omit [Board σ] in
theorem Busy.complete_armed (h : Busy d s) {address : UInt8} {data : List UInt8} {index : Nat}
    (hindex : Dpram.bufferControlIndex address (.ofByte address) = index)
    (hfits : Direction.ofByte address = .output →
      d.hw.toController.packetOffset address .output + data.length ≤ Dpram.size)
    (harmed : d.hw.toController.armed index = true) :
    (d.hw.toController.complete address data false).1 = true ∧
      Busy (d.mapController fun _ => (d.hw.toController.complete address data false).2) s ∧
      ∀ i < Dpram.bufferControls,
        (d.hw.toController.complete address data false).2.armed i =
            (if i = index then false else d.hw.toController.armed i) ∧
          ((d.hw.toController.complete address data false).2.read .buffStatus).bit i =
            ((d.hw.read .buffStatus).bit i || i == index) := by
  subst hindex
  have hlow (hdirection : Direction.ofByte address = .output) :
      Dpram.ep0Buffer ≤ d.hw.toController.packetOffset address .output := by
    rcases h.packetOffset_eq hdirection harmed with heq | heq
    · exact Nat.le_of_eq heq.symm
    · rw [heq]
      decide
  obtain ⟨hdone, hkeeps, hoffset⟩ := Controller.complete_armed harmed fun hdirection =>
    ⟨hlow hdirection, hfits hdirection⟩
  refine ⟨hdone, ⟨⟨h.active.session, h.active.sound, ?_⟩, h.callers, ?_, ?_⟩, ?_⟩
  · rw [toController_mapController, d.hw.toController.read_complete _ _ _ (by decide) (by decide)]
    exact h.active.inte
  · exact (hoffset _ _).trans h.outOffset
  · intro i hi hi' hi''
    have hkept := (hkeeps i hi').symm.trans hi''
    split_ifs at hkept
    exact h.armed i hi hi' hkept
  · intro i hi
    refine ⟨hkeeps i hi, ?_⟩
    rw [d.hw.toController.buffStatus_complete, hdone, if_pos rfl, Word.bit_set_of_lt _ hi]

theorem Busy.start (h : Busy d s) :
    (d.submit interface outAddress room).1 = true ∧
      (∃ s', Busy (d.submit interface outAddress room).2.1 s') ∧
      (d.submit interface outAddress room).2.1.hw.regs = d.hw.regs ∧
      Buffers.of (d.submit interface outAddress room).2.1.hw.toController =
        { Buffers.of d.hw.toController with outArmed := true } ∧
      reclaims d.hw (d.submit interface outAddress room).2.2 =
        (Buffers.of d.hw.toController).outArmed := by
  obtain ⟨p, q, hcallers⟩ := h.callers
  have hs := h.active.sound.arranged
  have hkept := Session.kept_submit hs interface outAddress room
  have htransfer := Session.transfer_submit hs interface outAddress room
  rw [submit_eq h.active.session, submit_room hs hcallers] at *
  have hregs := regs_replay htransfer d.hw
  have harmed (i : Nat) (hi : i < Dpram.bufferControls) :
      ((Effect.arm (receiver p) room).apply d.hw).toController.armed i =
        if i = outIndex then true else d.hw.toController.armed i :=
    Effect.armed_apply_arm (placed_receiver p) d.hw room hi
  refine ⟨rfl, ⟨_, ⟨h.active.after hkept, ⟨p.next, q, rfl⟩, ?_, ?_⟩⟩, hregs, ?_, Bool.or_false _⟩
  · exact (Token.packetOffset_arm (placed_receiver p) d.hw room _ _).trans h.outOffset
  · intro i hi hi' hi''
    have hkept := (harmed i hi').symm.trans hi''
    split_ifs at hkept with hself
    · exact .inl hself
    · exact h.armed i hi hi' hkept
  · have hback (i : Nat) : (((Effect.arm (receiver p) room).apply d.hw).read .buffStatus).bit i =
        (d.hw.read .buffStatus).bit i := congrArg (Word.bit · i) (Controller.read_of_regs hregs _)
    show Buffers.of ((Effect.arm (receiver p) room).apply d.hw).toController = _
    rw [Buffers.of, harmed _ (by decide), harmed _ (by decide), if_pos rfl,
      if_neg (show ¬inIndex = outIndex by decide), hback, hback]
    rfl

/-! ### Steps of the device -/

/-- The echo device between two steps, wherever its packets are. -/
structure Poised (d : Device σ) (s : Session) : Prop extends Busy d s where
  /-- Its interrupts are in step. -/
  ready : d.hw.toController.Ready
  /-- Of the buffers of callers the two of the interface only come back. -/
  back : ∀ i, 2 ≤ i → i < Dpram.bufferControls → (d.hw.read .buffStatus).bit i = true →
    i = outIndex ∨ i = inIndex

omit [Board σ] in
/-- What is waiting for the device: events of endpoint 0, then the two buffers, then a reset. -/
theorem Poised.pending_eq (h : Poised d s) :
    ∃ events, (∀ event ∈ events, event.OfEp0) ∧ d.pending =
      events ++ ((if (Buffers.of d.hw.toController).outBack then [.buffer outIndex] else []) ++
        ((if (Buffers.of d.hw.toController).inBack then [.buffer inIndex] else []) ++
          if (d.hw.read .sieStatus).bit Bit.busReset then [.busReset] else [])) := by
  have hback : (List.range' 2 30).filter (d.hw.read .buffStatus).bit =
      (if (Buffers.of d.hw.toController).outBack then [outIndex] else []) ++
        (if (Buffers.of d.hw.toController).inBack then [inIndex] else []) := by
    have hfilter : (List.range' 2 30).filter (d.hw.read .buffStatus).bit =
        (List.range' 2 30).filter fun i =>
          (i == outIndex && (Buffers.of d.hw.toController).outBack) ||
            (i == inIndex && (Buffers.of d.hw.toController).inBack) := by
      apply List.filter_congr
      intro i hi
      rw [List.mem_range'_1] at hi
      rw [Bool.eq_iff_iff, Bool.or_eq_true, Bool.and_eq_true, Bool.and_eq_true, beq_iff_eq,
        beq_iff_eq]
      constructor
      · intro hbit
        rcases h.back i hi.1 hi.2 hbit with rfl | rfl
        · exact .inl ⟨rfl, hbit⟩
        · exact .inr ⟨rfl, hbit⟩
      · rintro (⟨rfl, hbit⟩ | ⟨rfl, hbit⟩) <;> exact hbit
    rw [hfilter]
    cases (Buffers.of d.hw.toController).outBack <;>
      cases (Buffers.of d.hw.toController).inBack <;> rfl
  obtain ⟨events, hevents, heq⟩ := d.hw.toController.exists_events_eq
  refine ⟨events, hevents, ?_⟩
  rw [Device.pending_eq h.ready, heq, hback, List.map_append, List.append_assoc]
  cases (Buffers.of d.hw.toController).outBack <;>
    cases (Buffers.of d.hw.toController).inBack <;> rfl

omit [Board σ] in
theorem Busy.retire (h : Busy d s) :
    Poised (d.mapController Controller.retire) s ∧
      Buffers.of (d.mapController Controller.retire).hw.toController =
        ⟨d.hw.toController.armed outIndex, d.hw.toController.armed inIndex, false, false⟩ := by
  have hservice := h.active.retire
  have hsame : d.hw.toController.SameCallers d.hw.toController.retire :=
    .of_dpram (Controller.dpram_retire _)
  have hnone (i : Nat) : (d.hw.toController.retire.read .buffStatus).bit i = false :=
    Word.bit_of_eq_zero (Controller.buffStatus_retire _) i
  refine ⟨⟨h.of_same hservice.active rfl hsame, hservice.ready, ?_⟩, ?_⟩
  · intro i _ _ hbit
    exact absurd ((hnone i).symm.trans hbit) Bool.false_ne_true
  · rw [toController_mapController, Buffers.of, hsame.armed_eq (by decide) (by decide),
      hsame.armed_eq (by decide) (by decide), hnone, hnone]

theorem Poised.service (h : Poised d s) :
    (∃ s', Poised (d.step .service).2.1 s') ∧
      Buffers.of (d.step .service).2.1.hw.toController =
        (Buffers.of d.hw.toController).serviced ∧
      reclaims d.hw (d.step .service).2.2 = (Buffers.of d.hw.toController).clashes := by
  obtain ⟨events, hevents, hpending⟩ := h.pending_eq
  rw [step_service, snd_step_service, hpending]
  -- endpoint 0 goes first, then the two buffers in turn, and last the reset
  have h₀ := h.toBusy.leads_ofEp0 hevents
  obtain ⟨s₁, hbusy₁⟩ := h₀.busy
  have h₁ := hbusy₁.leads_out (Buffers.of d.hw.toController).outBack
  rw [h₀.outArmed, h₀.inArmed] at h₁
  obtain ⟨s₂, hbusy₂⟩ := h₁.busy
  have h₂ := hbusy₂.leads_in (Buffers.of d.hw.toController).inBack
  rw [h₁.outArmed, h₁.inArmed] at h₂
  obtain ⟨s₃, hbusy₃⟩ := h₂.busy
  have h₃ := hbusy₃.leads_reset ((d.hw.read .sieStatus).bit Bit.busReset)
  rw [h₂.outArmed, h₂.inArmed] at h₃
  have hall := h₀.append (h₁.append (h₂.append h₃))
  obtain ⟨s', hbusy⟩ := hall.busy
  obtain ⟨hpoised, hbuffers⟩ := hbusy.retire
  refine ⟨⟨s', hpoised⟩, ?_, ?_⟩
  · rw [hbuffers, hall.outArmed, hall.inArmed]
    rfl
  · rw [hall.reclaims, Bool.false_or, Bool.or_false]
    rfl

omit [Board σ] in
theorem Poised.of_same (h : Poised d s) {c : Controller} (hready : c.Ready)
    (hsame : d.hw.toController.SameCallers c)
    (hback : ∀ i, 2 ≤ i → i < Dpram.bufferControls →
      (c.read .buffStatus).bit i = (d.hw.read .buffStatus).bit i) :
    Poised (d.mapController fun _ => c) s ∧ Buffers.of c = Buffers.of d.hw.toController := by
  have hactive := (inService_mapController (f := fun _ => c) h.active.session h.active.sound
    hready).active
  refine ⟨⟨h.toBusy.of_same hactive rfl hsame, hready, ?_⟩, ?_⟩
  · intro i hi hi' hbit
    exact h.back i hi hi' ((hback i hi hi').symm.trans hbit)
  · rw [Buffers.of, hsame.armed_eq (by decide) (by decide), hsame.armed_eq (by decide) (by decide),
      hback outIndex (by decide) (by decide), hback inIndex (by decide) (by decide)]
    rfl

omit [Board σ] in
theorem Poised.completeCaller (h : Poised d s) {address : UInt8} {data : List UInt8} {index : Nat}
    (hindex : Dpram.bufferControlIndex address (.ofByte address) = index)
    (hdata : data.length ≤ Dpram.bufferSize) (hcaller : index = outIndex ∨ index = inIndex)
    (harmed : d.hw.toController.armed index = true) :
    Poised (d.mapController fun _ => (d.hw.toController.complete address data false).2) s ∧
      Buffers.of (d.hw.toController.complete address data false).2 =
        ⟨if outIndex = index then false else d.hw.toController.armed outIndex,
          if inIndex = index then false else d.hw.toController.armed inIndex,
          (Buffers.of d.hw.toController).outBack || outIndex == index,
          (Buffers.of d.hw.toController).inBack || inIndex == index⟩ := by
  have hfits : Direction.ofByte address = .output →
      d.hw.toController.packetOffset address .output + data.length ≤ Dpram.size := by
    intro hdirection
    refine Nat.le_trans (Nat.add_le_add_left hdata _) ?_
    rcases h.packetOffset_eq hdirection (hindex ▸ harmed) with heq | heq <;> rw [heq] <;> decide
  obtain ⟨-, hbusy, hafter⟩ := h.toBusy.complete_armed hindex hfits harmed
  refine ⟨⟨hbusy, h.ready.complete address data false, ?_⟩, ?_⟩
  · intro i hi hi' hbit
    rcases Bool.or_eq_true_iff.1 ((hafter i hi').2.symm.trans hbit) with hbit | hself
    · exact h.back i hi hi' hbit
    · exact beq_iff_eq.1 hself ▸ hcaller
  · rw [Buffers.of, (hafter _ (by decide)).1, (hafter _ (by decide)).1, (hafter _ (by decide)).2,
      (hafter _ (by decide)).2]
    rfl

omit [Board σ] in
theorem Poised.complete (h : Poised d s) (address : UInt8) {data : List UInt8}
    (hdata : data.length ≤ Dpram.bufferSize) :
    Poised (d.mapController fun _ => (d.hw.toController.complete address data false).2) s ∧
      (Buffers.of d.hw.toController).Step false false
        (Buffers.of (d.hw.toController.complete address data false).2) := by
  have hready := h.ready.complete address data false
  generalize hindex : Dpram.bufferControlIndex address (.ofByte address) = index
  have hlt : index < Dpram.bufferControls := hindex ▸ Controller.bufferControlIndex_lt _ _
  cases harmed : d.hw.toController.armed index with
  | false =>
    rw [Controller.complete_of_not_armed data (hindex ▸ harmed)]
    exact ⟨⟨h.toBusy, h.ready, h.back⟩, .still⟩
  | true =>
    rcases Nat.lt_or_ge index 2 with hcontrol | hcaller
    · -- endpoint 0
      have hsame := d.hw.toController.sameCallers_complete (hindex ▸ hcontrol) hdata
      obtain ⟨hpoised, hbuffers⟩ := h.of_same hready hsame (by
        intro i hi hi'
        rw [d.hw.toController.buffStatus_complete, hindex]
        split_ifs
        · rw [Word.bit_set_of_lt _ hi', beq_false_of_ne (by omega), Bool.or_false]
        · rfl)
      rw [hbuffers]
      exact ⟨hpoised, .still⟩
    · obtain ⟨hpoised, hbuffers⟩ :=
        h.completeCaller hindex hdata (h.armed index hcaller hlt harmed) harmed
      refine ⟨hpoised, ?_⟩
      rw [hbuffers]
      rcases h.armed index hcaller hlt harmed with rfl | rfl
      · rw [if_pos rfl, if_neg (show ¬inIndex = outIndex by decide), beq_self_eq_true, Bool.or_true,
          show (inIndex == outIndex) = false from rfl, Bool.or_false]
        exact .received harmed
      · rw [if_neg (show ¬outIndex = inIndex by decide), if_pos rfl, beq_self_eq_true, Bool.or_true,
          show (outIndex == inIndex) = false from rfl, Bool.or_false]
        exact .fetched harmed

theorem Poised.host (h : Poised d s) {step : HostStep} (hs : step.Lawful) :
    Poised (d.step (.host step)).2.1 s ∧
      (Buffers.of d.hw.toController).Step false false
        (Buffers.of (d.step (.host step)).2.1.hw.toController) := by
  have hready := HostStep.ready_run h.ready hs
  rw [step_host, toController_mapController]
  have haside (hquiet : step.Quiet) :
      Poised (d.mapController fun _ => (step.run d.hw.toController).2) s ∧
        (Buffers.of d.hw.toController).Step false false
          (Buffers.of (step.run d.hw.toController).2) := by
    obtain ⟨hsame, hback, -⟩ := HostStep.sameCallers_run d.hw.toController hquiet
    obtain ⟨hpoised, hbuffers⟩ := h.of_same hready hsame fun i _ _ => congrArg (Word.bit · i) hback
    rw [hbuffers]
    exact ⟨hpoised, .still⟩
  cases step with
  | poke => cases hs
  | complete address data force =>
    obtain ⟨rfl, hdata⟩ := hs
    exact h.complete address hdata
  | setup | busReset | peek | updateInterrupts => exact haside trivial

theorem Poised.start (h : Poised d s) :
    (d.submit interface outAddress room).1 = true ∧
      (∃ s', Poised (d.submit interface outAddress room).2.1 s') ∧
      (Buffers.of d.hw.toController).Step true
        (reclaims d.hw (d.submit interface outAddress room).2.2)
        (Buffers.of (d.submit interface outAddress room).2.1.hw.toController) := by
  obtain ⟨hanswer, ⟨s', hbusy⟩, hregs, hbuffers, hreclaims⟩ := h.toBusy.start
  refine ⟨hanswer, ⟨s', hbusy, h.ready.of_regs hregs, ?_⟩, ?_⟩
  · intro i hi hi' hbit
    rw [Controller.read_of_regs hregs] at hbit
    exact h.back i hi hi' hbit
  · rw [hreclaims, hbuffers]
    exact .started

end

end Echo

/-! ### The firmware -/

/-- A step of any run: what a host does, the interrupt, and rounds of the main loop. -/
def FirmwareStep.Lawful : FirmwareStep → Prop
  | loop | service => True
  | interrupt => False
  | host step => step.Lawful

namespace Firmware

open Echo Device

/-- Who has the two buffers. -/
def buffers (f : Firmware) : Buffers := .of f.device.hw.toController

/-- The main loop starts in a step: it makes the echo ready. -/
def startsIn (f : Firmware) : FirmwareStep → Bool
  | .loop => f.device.isConfigured && !f.started
  | .interrupt | .service | .host _ => false

/-- How often the main loop starts in a run. -/
def starts (f : Firmware) : List FirmwareStep → Nat
  | [] => 0
  | step :: steps => (f.startsIn step).toNat + (f.step step).2.1.starts steps

/-- In some step of a run the firmware hands over a buffer of the echo that the controller has. -/
def reclaims (f : Firmware) : List FirmwareStep → Bool
  | [] => false
  | step :: steps =>
    UsbGadget.reclaims f.device.hw (f.step step).2.2 || (f.step step).2.1.reclaims steps

/-- The firmware between two steps, wherever its packets are. -/
def Poised (f : Firmware) : Prop := ∃ s, Echo.Poised f.device s

variable {f : Firmware}

theorem Poised.mainLoop (h : f.Poised) :
    f.mainLoop.1.Poised ∧
      f.buffers.Step (f.startsIn .loop) (UsbGadget.reclaims f.device.hw f.mainLoop.2)
        f.mainLoop.1.buffers := by
  obtain ⟨s, hs⟩ := h
  unfold Firmware.mainLoop startsIn
  cases hconfigured : f.device.isConfigured with
  | false => exact ⟨⟨s, hs⟩, .still⟩
  | true =>
    cases hstarted : f.started with
    | true => exact ⟨⟨s, hs⟩, .still⟩
    | false =>
      obtain ⟨-, hpoised, hstep⟩ := hs.start
      exact ⟨hpoised, hstep⟩

theorem busy_writeSoc {s : Session} (h : Busy f.device s) (r : SocRegister) (w : Word) :
    Busy (f.writeSoc r w).device s :=
  ⟨⟨h.active.session, h.active.sound, h.active.inte⟩, h.callers, h.outOffset, h.armed⟩

theorem poised_writeSoc {s : Session} (h : Echo.Poised f.device s) (r : SocRegister) (w : Word) :
    Echo.Poised (f.writeSoc r w).device s := ⟨busy_writeSoc h.toBusy r w, h.ready, h.back⟩

theorem Poised.service (h : f.Poised) :
    (f.step .service).2.1.Poised ∧
      (f.step .service).2.1.buffers = f.buffers.serviced ∧
      UsbGadget.reclaims f.device.hw (f.step .service).2.2 = f.buffers.clashes := by
  obtain ⟨s, hs⟩ := h
  obtain ⟨⟨s', hs'⟩, hbuffers, hreclaims⟩ := (poised_writeSoc hs .gpioOutSet led).service
  rw [reclaims_congr (show (f.writeSoc .gpioOutSet led).device.hw.toController =
    f.device.hw.toController from rfl)] at hreclaims
  rw [step_service]
  generalize (f.writeSoc .gpioOutSet led).device.step .service = result at hs' hbuffers hreclaims ⊢
  exact ⟨⟨s', poised_writeSoc (f := ⟨result.2.1, f.started⟩) hs' .gpioOutClr led⟩, hbuffers,
    hreclaims⟩

/-- One step of the firmware. -/
theorem Poised.step (h : f.Poised) {step : FirmwareStep} (hs : step.Lawful) :
    (f.step step).2.1.Poised ∧
      f.buffers.Step (f.startsIn step) (UsbGadget.reclaims f.device.hw (f.step step).2.2)
        (f.step step).2.1.buffers := by
  cases step with
  | loop => exact h.mainLoop
  | interrupt => cases hs
  | service =>
    obtain ⟨hpoised, hbuffers, hreclaims⟩ := h.service
    rw [hbuffers, hreclaims]
    exact ⟨hpoised, .serviced⟩
  | host step =>
    obtain ⟨s, hpoised⟩ := h
    obtain ⟨hpoised', hstep⟩ := hpoised.host hs
    exact ⟨⟨s, hpoised'⟩, hstep⟩

/-! ### Runs of the firmware -/

theorem starts_append (f : Firmware) (steps steps' : List FirmwareStep) :
    f.starts (steps ++ steps') = f.starts steps + (f.run steps).1.starts steps' := by
  induction steps generalizing f with
  | nil => exact (Nat.zero_add _).symm
  | cons step steps ih => rw [List.cons_append, starts, ih, starts, run_cons, Nat.add_assoc]

theorem starts_of_not_loop {steps : List FirmwareStep} (hsteps : ∀ step ∈ steps, step ≠ .loop)
    (f : Firmware) : f.starts steps = 0 := by
  induction steps generalizing f with
  | nil => rfl
  | cons step steps ih =>
    rw [List.forall_mem_cons] at hsteps
    rw [starts, ih hsteps.2]
    cases step with
    | loop => exact absurd rfl hsteps.1
    | interrupt | service | host => rfl

/-- A packet that goes round by itself is never in its own way. -/
theorem Poised.not_reclaims (h : f.Poised) {steps : List FirmwareStep}
    (hsteps : ∀ step ∈ steps, step.Lawful) (hcount : f.buffers.count + f.starts steps ≤ 1) :
    f.reclaims steps = false := by
  -- the packets that go round and the starts to come do not get more along the run
  induction steps generalizing f with
  | nil => rfl
  | cons step steps ih =>
    rw [List.forall_mem_cons] at hsteps
    obtain ⟨h', hstep⟩ := h.step hsteps.1
    have hle := hstep.count_le
    rw [starts] at hcount
    rw [reclaims, hstep.not_reclaimed (by omega), ih h' hsteps.2 (by omega), Bool.or_false]

/-- Where the controller has both buffers, the one that comes back is in the way of the other. -/
theorem Poised.reclaims_of_both (h : f.Poised) (hout : f.buffers.outArmed = true)
    (hin : f.buffers.inArmed = true) :
    f.reclaims [.host (.complete outAddress [] false), .service] = true := by
  obtain ⟨s, hs⟩ := h
  have hindex : Dpram.bufferControlIndex outAddress (.ofByte outAddress) = outIndex := rfl
  have hfits : ([] : List UInt8).length ≤ Dpram.bufferSize := Nat.zero_le _
  obtain ⟨hcome, hbuffers⟩ := hs.completeCaller hindex hfits (.inl rfl) hout
  obtain ⟨-, -, hreclaims⟩ :=
    Poised.service (f := (f.step (.host (.complete outAddress [] false))).2.1) ⟨s, hcome⟩
  have hclash : (f.step (.host (.complete outAddress [] false))).2.1.buffers.clashes = true := by
    have hin' : f.device.hw.toController.armed inIndex = true := hin
    refine (congrArg Buffers.clashes hbuffers).trans ?_
    simp only [Buffers.clashes, if_neg (show ¬inIndex = outIndex by decide), hin',
      beq_self_eq_true, Bool.or_true, Bool.and_true, Bool.true_or]
  rw [reclaims, reclaims, hreclaims, hclash, Bool.true_or, Bool.or_true]

/-- The interrupt, a packet that comes in, and the interrupt again. -/
def provoking : List FirmwareStep :=
  [.service, .host (.complete outAddress [] false), .service]

theorem Poised.reclaims_provoking (h : f.Poised) (hcount : 2 ≤ f.buffers.count) :
    f.reclaims provoking = true := by
  obtain ⟨hpoised, hbuffers, hreclaims⟩ := h.service
  rw [provoking, reclaims]
  cases hclash : f.buffers.clashes with
  | true => rw [hreclaims, hclash, Bool.true_or]
  | false =>
    obtain ⟨hout, hin⟩ := f.buffers.both_armed hcount hclash
    rw [← hbuffers] at hout hin
    rw [hpoised.reclaims_of_both hout hin, Bool.or_true]

theorem Poised.exists_reclaims_of_pos (h : f.Poised) {steps : List FirmwareStep}
    (hsteps : ∀ step ∈ steps, step.Lawful) (hcount : 1 ≤ f.buffers.count)
    (hstarts : 1 ≤ f.starts steps) :
    ∃ before after, before <+: steps ∧ (∀ step ∈ after, step.Lawful ∧ step ≠ .loop) ∧
      f.reclaims (before ++ after) = true := by
  induction steps generalizing f with
  | nil => exact absurd hstarts (Nat.not_succ_le_zero _)
  | cons step steps ih =>
    rw [List.forall_mem_cons] at hsteps
    obtain ⟨h', hstep⟩ := h.step hsteps.1
    cases hstart : f.startsIn step with
    | true =>
      -- the start itself reclaims the buffer, or the host has it reclaimed afterwards
      rw [hstart] at hstep
      rcases hstep.two_le_count hcount with hreclaimed | htwo
      · refine ⟨[step], [], by simp, List.forall_mem_nil _, ?_⟩
        rw [List.append_nil, reclaims, hreclaimed, Bool.true_or]
      · refine ⟨[step], provoking, by simp, ?_, ?_⟩
        · simp [provoking, FirmwareStep.Lawful, HostStep.Lawful]
        · rw [List.singleton_append, reclaims, h'.reclaims_provoking htwo, Bool.or_true]
    | false =>
      rw [starts, hstart, Bool.toNat_false, Nat.zero_add] at hstarts
      obtain ⟨before, after, hprefix, hafter, hreclaims⟩ :=
        ih h' hsteps.2 (hstep.count_pos hcount) hstarts
      refine ⟨step :: before, after, List.cons_prefix_cons.2 ⟨rfl, hprefix⟩, hafter, ?_⟩
      rw [List.cons_append, reclaims, hreclaims, Bool.or_true]

/-- After two starts the host has had, or can have, the firmware reclaim a buffer. -/
theorem Poised.exists_reclaims (h : f.Poised) {steps : List FirmwareStep}
    (hsteps : ∀ step ∈ steps, step.Lawful) (hstarts : 2 ≤ f.starts steps) :
    ∃ before after, before <+: steps ∧ (∀ step ∈ after, step.Lawful ∧ step ≠ .loop) ∧
      f.reclaims (before ++ after) = true := by
  induction steps generalizing f with
  | nil => exact absurd hstarts (Nat.not_succ_le_zero _)
  | cons step steps ih =>
    rw [List.forall_mem_cons] at hsteps
    obtain ⟨h', hstep⟩ := h.step hsteps.1
    have hrest : ∃ before after, before <+: steps ∧
        (∀ step ∈ after, step.Lawful ∧ step ≠ .loop) ∧
        (f.step step).2.1.reclaims (before ++ after) = true := by
      rw [starts] at hstarts
      cases hstart : f.startsIn step with
      | true =>
        rw [hstart] at hstep hstarts
        exact h'.exists_reclaims_of_pos hsteps.2 hstep.count_pos_of_start
          (Nat.le_of_add_le_add_left hstarts)
      | false =>
        rw [hstart, Bool.toNat_false, Nat.zero_add] at hstarts
        exact ih h' hsteps.2 hstarts
    obtain ⟨before, after, hprefix, hafter, hreclaims⟩ := hrest
    refine ⟨step :: before, after, List.cons_prefix_cons.2 ⟨rfl, hprefix⟩, hafter, ?_⟩
    rw [List.cons_append, reclaims, hreclaims, Bool.or_true]

theorem poised_opened (resets : Word) :
    (opened resets).1.Poised ∧ (opened resets).1.buffers.count = 0 := by
  obtain ⟨s, hrests, -⟩ := echoes_opened resets
  have harmed (i : Nat) (hi : 2 ≤ i) (hi' : i < Dpram.bufferControls) :
      (opened resets).1.device.hw.toController.armed i = false := hrests.agrees.armed i hi hi'
  have howes (i : Nat) (hi : 2 ≤ i) (hi' : i < Dpram.bufferControls) :
      ((opened resets).1.device.hw.read .buffStatus).bit i = false := hrests.owes i hi hi'
  refine ⟨⟨s, ⟨⟨hrests.active, ⟨_, _, hrests.callers⟩, hrests.agrees.outOffset, ?_⟩, hrests.ready,
    ?_⟩⟩, ?_⟩
  · exact fun i hi hi' h => absurd ((harmed i hi hi').symm.trans h) Bool.false_ne_true
  · exact fun i hi hi' h => absurd ((howes i hi hi').symm.trans h) Bool.false_ne_true
  · rw [Buffers.count, buffers, Buffers.of, harmed _ (by decide) (by decide),
      harmed _ (by decide) (by decide), howes _ (by decide) (by decide),
      howes _ (by decide) (by decide)]
    rfl

/-- The firmware never hands over a buffer of the echo that the controller has, at no point of a run
and whatever host and interrupt do from there, exactly where the main loop starts once at most. -/
theorem reclaims_iff (resets : Word) {steps : List FirmwareStep}
    (hsteps : ∀ step ∈ steps, step.Lawful) :
    (∀ before after, before <+: steps → (∀ step ∈ after, step.Lawful ∧ step ≠ .loop) →
        (opened resets).1.reclaims (before ++ after) = false) ↔
      (opened resets).1.starts steps ≤ 1 := by
  obtain ⟨hpoised, hcount⟩ := poised_opened resets
  constructor
  · intro hnever
    by_contra hstarts
    obtain ⟨before, after, hprefix, hafter, hreclaims⟩ :=
      hpoised.exists_reclaims hsteps (Nat.lt_of_not_le hstarts)
    rw [hnever before after hprefix hafter] at hreclaims
    cases hreclaims
  · rintro hstarts before after ⟨rest, rfl⟩ hafter
    rw [List.forall_mem_append] at hsteps
    apply hpoised.not_reclaims (List.forall_mem_append.2 ⟨hsteps.1, fun s hs => (hafter s hs).1⟩)
    rw [starts_append] at hstarts
    rw [starts_append, starts_of_not_loop (fun step hstep => (hafter step hstep).2), hcount]
    omega

theorem once_never_reclaims :
    (∀ step ∈ once, step.Lawful) ∧ (opened 0).1.starts once = 1 ∧
      ∀ before after, before <+: once → (∀ step ∈ after, step.Lawful ∧ step ≠ .loop) →
        (opened 0).1.reclaims (before ++ after) = false := by
  have hsteps : ∀ step ∈ once, step.Lawful := by
    simp [once, FirmwareStep.Lawful, HostStep.Lawful, Dpram.bufferSize]
  have hstarts : (opened 0).1.starts once = 1 := by decide +kernel
  exact ⟨hsteps, hstarts, (reclaims_iff 0 hsteps).2 (Nat.le_of_eq hstarts)⟩

/-- The host chooses the configuration, resets the bus and chooses the configuration again. -/
def reenumerated : List FirmwareStep :=
  [.host (.setup ⟨0, 9, 1, 0, 0⟩), .service, .loop, .host .busReset, .service, .loop,
    .host (.setup ⟨0, 9, 1, 0, 0⟩), .service, .loop]

/-- The main loop starts a second time, and hands over the buffer that the controller has since the
first time. -/
theorem reenumerated_reclaims :
    (∀ step ∈ reenumerated, step.Lawful) ∧ (opened 0).1.reclaims reenumerated = true := by
  refine ⟨?_, by decide +kernel⟩
  simp [reenumerated, FirmwareStep.Lawful, HostStep.Lawful]

end Firmware

end UsbGadget
