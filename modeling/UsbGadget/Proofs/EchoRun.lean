import UsbGadget.Firmware.Basic
import UsbGadget.Proofs.EchoToken

/-!
# Runs of the echo firmware

What a host delivers to the echo device comes back unchanged and in order. `Echo.Stage` is where the
device stands: its token, and how many packets each endpoint has had. `Echo.Passage` is what a host
sees between two stages.

* `Echo.Serves` holds while an interrupt is serviced, `Echo.Rests` between two steps;
* `Firmware.Echoes.step` is the step lemma, and `Firmware.echo_faithful` is what a whole run shows.
-/

namespace UsbGadget

namespace Echo

open Device

/-- The packet that a step of the host delivers to the endpoint that receives, if it does. -/
def delivered (c : Controller) : HostStep → List (List UInt8)
  | .complete address data force =>
    if Dpram.bufferControlIndex address (.ofByte address) = outIndex ∧
        (c.complete address data force).1 = true then [data] else []
  | .setup _ | .busReset | .poke _ _ _ | .peek _ _ | .updateInterrupts => []

/-- The packet that a step of the host fetches from the endpoint that sends, if it does. -/
def collected (c : Controller) : HostStep → List (List UInt8)
  | .complete address data force =>
    if Dpram.bufferControlIndex address (.ofByte address) = inIndex ∧
        (c.complete address data force).1 = true then [(c.inPacket inAddress).data] else []
  | .setup _ | .busReset | .poke _ _ _ | .peek _ _ | .updateInterrupts => []

/-- Where the echo device stands. -/
structure Stage where
  /-- Where the packet is that goes round. -/
  token : Token
  /-- How many packets were handed over on the endpoint that receives. -/
  outs : Nat
  /-- How many packets were handed over on the endpoint that sends. -/
  ins : Nat

/-- What a host sees while the device goes from one stage to another. -/
structure Passage (stage stage' : Stage) (delivered collected : List (List UInt8))
    (log : List Effect) : Prop where
  /-- What is delivered is fetched, but for the packet on its way. -/
  conserved : stage.token.inFlight ++ delivered = collected ++ stage'.token.inFlight
  /-- The identifiers on the endpoint that receives. -/
  outPids : (List.range stage.outs).map Pid.nth ++
    (handedOver interface outAddress log).map Packet.pid = (List.range stage'.outs).map Pid.nth
  /-- The identifiers on the endpoint that sends. -/
  inPids : (List.range stage.ins).map Pid.nth ++
    (handedOver interface inAddress log).map Packet.pid = (List.range stage'.ins).map Pid.nth

namespace Passage

variable {stage stage' stage'' : Stage} {log log' : List Effect}

theorem refl (stage : Stage) : Passage stage stage [] [] [] :=
  ⟨List.append_nil _, List.append_nil _, List.append_nil _⟩

theorem trans {delivered collected delivered' collected' : List (List UInt8)}
    (h : Passage stage stage' delivered collected log)
    (h' : Passage stage' stage'' delivered' collected' log') :
    Passage stage stage'' (delivered ++ delivered') (collected ++ collected') (log ++ log') where
  conserved := by
    rw [← List.append_assoc, h.conserved, List.append_assoc, h'.conserved, List.append_assoc]
  outPids := by
    rw [handedOver_append, List.map_append, ← List.append_assoc, h.outPids, h'.outPids]
  inPids := by
    rw [handedOver_append, List.map_append, ← List.append_assoc, h.inPids, h'.inPids]

/-- The host sees nothing of effects that hand nothing over. -/
theorem of_handed (stage : Stage)
    (h : ∀ address, handedOver interface address log = []) : Passage stage stage [] [] log := by
  refine ⟨List.append_nil _, ?_, ?_⟩
  · rw [h, List.map_nil, List.append_nil]
  · rw [h, List.map_nil, List.append_nil]

end Passage

/-! ### What the handlers do -/

variable {s s' : Session} {p q : Pid}

theorem endpoints_eq (hs : Session.Arranged s.endpoints)
    (hcallers : s.callers = [receiver p, sender q]) :
    s.endpoints =
      [.ofControl .input s.pidIn, .ofControl .output s.pidOut, receiver p, sender q] := by
  rw [hs.endpoints_eq, hcallers]

/-- A packet that has come in is handed to the other endpoint. -/
theorem react_receiver (hs : Session.Arranged s.endpoints)
    (hcallers : s.callers = [receiver p, sender q]) (m : Memory Dpram.size) :
    s.react m (.buffer outIndex) =
      ({ s with endpoints :=
          [.ofControl .input s.pidIn, .ofControl .output s.pidOut, receiver p, sender q.next] },
        [.collect (receiver p) ((receiver p).completedData m),
          .call sendBack.name ((receiver p).completedData m) [true],
          .arm (sender q) (((receiver p).completedData m).take Dpram.bufferSize)]) := by
  obtain ⟨c, set, endpoints, k⟩ := s
  obtain ⟨pidIn, pidOut, rest, rfl, -⟩ := hs
  obtain rfl : rest = [receiver p, sender q] := hcallers
  rfl

/-- Once a packet has gone out the device makes ready for the next one. -/
theorem react_sender (hs : Session.Arranged s.endpoints)
    (hcallers : s.callers = [receiver p, sender q]) (m : Memory Dpram.size) :
    s.react m (.buffer inIndex) =
      ({ s with endpoints :=
          [.ofControl .input s.pidIn, .ofControl .output s.pidOut, receiver p.next, sender q] },
        [.collect (sender q) ((sender q).completedData m),
          .call listen.name ((sender q).completedData m) [true],
          .arm (receiver p) room]) := by
  obtain ⟨c, set, endpoints, k⟩ := s
  obtain ⟨pidIn, pidOut, rest, rfl, -⟩ := hs
  obtain rfl : rest = [receiver p, sender q] := hcallers
  rfl

theorem submit_room (hs : Session.Arranged s.endpoints)
    (hcallers : s.callers = [receiver p, sender q]) :
    s.submit interface outAddress room =
      ({ s with endpoints :=
          [.ofControl .input s.pidIn, .ofControl .output s.pidOut, receiver p.next, sender q] },
        [.arm (receiver p) room], true) := by
  obtain ⟨c, set, endpoints, k⟩ := s
  obtain ⟨pidIn, pidOut, rest, rfl, -⟩ := hs
  obtain rfl : rest = [receiver p, sender q] := hcallers
  rfl

/-! ### One interrupt -/

section

variable {σ : Type} [Board σ] {d : Device σ} {stage : Stage}

/-- The echo device while an interrupt is serviced. -/
structure Serves (d : Device σ) (s : Session) (stage : Stage) : Prop where
  /-- It is open. -/
  active : d.Active s
  /-- Its two endpoints, each with the identifier of its next packet. -/
  callers : s.callers = [receiver (.nth stage.outs), sender (.nth stage.ins)]
  /-- The packet memory. -/
  agrees : stage.token.Agrees d.hw.toController
  /-- It is made ready only once it is configured. -/
  configured : stage.token.started = true → s.control.configured = true

/-- Events of endpoint 0 do not move the token. -/
theorem Serves.within_handleAll (h : Serves d s stage) {events : List Event}
    (hevents : ∀ event ∈ events, event.OfEp0) :
    ∃ s', Serves (d.handleAll events).1 s' stage ∧
      Passage stage stage [] [] (d.handleAll events).2 := by
  obtain ⟨s', hleft⟩ := h.active.within_handleAll hevents
  exact ⟨s', ⟨hleft.active, hleft.callers.trans h.callers, h.agrees.of_same hleft.memory,
    hleft.configured ∘ h.configured⟩,
    .of_handed stage fun address => hleft.handed interface address (by decide)⟩

theorem Token.Agrees.acknowledged {token : Token} {h : Hardware σ}
    (hh : token.Agrees h.toController) (event : Event) :
    token.Agrees (event.acknowledge.apply h).toController :=
  hh.of_same (sameCallers_apply h event.ofEp0_acknowledge)

theorem Serves.receive {data : List UInt8} {m n : Nat} (h : Serves d s ⟨.arrived data, m, n⟩) :
    ∃ s', Serves (d.handle (.buffer outIndex)).1 s' ⟨.answering data, m, n + 1⟩ ∧
      Passage ⟨.arrived data, m, n⟩ ⟨.answering data, m, n + 1⟩ [] []
        (d.handle (.buffer outIndex)).2 := by
  have hdata := h.agrees.completedData_eq (.nth m)
  have hreact := react_receiver h.active.sound.arranged h.callers d.hw.dpram
  rw [hdata, List.take_of_length_le h.agrees.carried.fits] at hreact
  have hactive := h.active.handle (.buffer outIndex)
  rw [handle_eq h.active.session, hreact] at hactive ⊢
  refine ⟨_, ⟨hactive, ?_, ?_, h.configured⟩, rfl, ?_, ?_⟩
  · rw [Pid.nth_succ]
    rfl
  · exact (h.agrees.acknowledged (.buffer outIndex)).answer (.nth n)
  · exact List.append_nil _
  · rw [List.range_succ, List.map_append]
    rfl

theorem Serves.listen {m n : Nat} (h : Serves d s ⟨.answered, m, n⟩) :
    ∃ s', Serves (d.handle (.buffer inIndex)).1 s' ⟨.listening, m + 1, n⟩ ∧
      Passage ⟨.answered, m, n⟩ ⟨.listening, m + 1, n⟩ [] [] (d.handle (.buffer inIndex)).2 := by
  have hreact := react_sender h.active.sound.arranged h.callers d.hw.dpram
  have hactive := h.active.handle (.buffer inIndex)
  rw [handle_eq h.active.session, hreact] at hactive ⊢
  refine ⟨_, ⟨hactive, ?_, ?_, h.configured⟩, rfl, ?_, ?_⟩
  · rw [Pid.nth_succ]
    rfl
  · exact (h.agrees.acknowledged (.buffer inIndex)).listen (fun _ => rfl) (.nth m) room
  · rw [List.range_succ, List.map_append]
    rfl
  · exact List.append_nil _

/-! ### Steps -/

/-- The echo device between two steps. -/
structure Rests (d : Device σ) (s : Session) (stage : Stage) : Prop extends Serves d s stage where
  /-- Its interrupts are in step. -/
  ready : d.hw.toController.Ready
  /-- The buffers that have come back. -/
  owes : ∀ i, 2 ≤ i → i < Dpram.bufferControls →
    (d.hw.read .buffStatus).bit i = stage.token.owes i
  /-- The bus was not reset. -/
  noReset : (d.hw.read .sieStatus).bit Bit.busReset = false

omit [Board σ] in
/-- What is waiting for the device: events of endpoint 0, and then the buffer that came back. -/
theorem Rests.events_eq (h : Rests d s stage) :
    ∃ events, (∀ event ∈ events, event.OfEp0) ∧ d.pending =
      events ++ ((List.range' 2 30).filter stage.token.owes).map .buffer := by
  have howed : (List.range' 2 30).filter (d.hw.read .buffStatus).bit =
      (List.range' 2 30).filter stage.token.owes := by
    apply List.filter_congr
    intro i hi
    rw [List.mem_range'_1] at hi
    exact h.owes i hi.1 (by simp only [Dpram.bufferControls]; omega)
  obtain ⟨events, hevents, heq⟩ := d.hw.toController.exists_events_eq
  rw [h.noReset, if_neg Bool.false_ne_true, List.append_nil, howed] at heq
  exact ⟨events, hevents, (Device.pending_eq h.ready).trans heq⟩

omit [Board σ] in
theorem Serves.retire (h : Serves d s stage) (hnone : ∀ i, stage.token.owes i = false) :
    Rests (d.mapController Controller.retire) s stage := by
  have hservice := h.active.retire
  refine ⟨⟨hservice.active, h.callers, h.agrees.of_same (.of_dpram (Controller.dpram_retire _)),
    h.configured⟩, hservice.ready, ?_, ?_⟩
  · intro i _ _
    rw [hnone]
    exact Word.bit_of_eq_zero (Controller.buffStatus_retire _) i
  · exact Word.bit_of_eq_zero (Controller.sieStatus_retire _) _

/-- Servicing the interrupt moves the token on if its buffer has come back. -/
theorem Rests.service (h : Rests d s stage) :
    ∃ s' stage', Rests (d.step .service).2.1 s' stage' ∧
      stage'.token.started = stage.token.started ∧
      Passage stage stage' [] [] (d.step .service).2.2 := by
  -- endpoint 0 goes first and does not move the token
  obtain ⟨events, hevents, hpending⟩ := h.events_eq
  obtain ⟨s₁, h₁, hpassage⟩ := h.toServes.within_handleAll hevents
  rw [step_service, snd_step_service, hpending, handleAll_append]
  clear hpending
  obtain ⟨token, m, n⟩ := stage
  cases token with
  | waiting => exact ⟨s₁, _, h₁.retire fun _ => rfl, rfl, hpassage.trans (.refl _)⟩
  | listening => exact ⟨s₁, _, h₁.retire fun _ => rfl, rfl, hpassage.trans (.refl _)⟩
  | answering data => exact ⟨s₁, _, h₁.retire fun _ => rfl, rfl, hpassage.trans (.refl _)⟩
  | arrived data =>
    rw [show ((List.range' 2 30).filter (Token.arrived data).owes).map Event.buffer =
      [.buffer outIndex] from rfl, handleAll_singleton]
    obtain ⟨s₂, h₂, hpassage'⟩ := h₁.receive
    exact ⟨s₂, _, h₂.retire fun _ => rfl, rfl, hpassage.trans hpassage'⟩
  | answered =>
    rw [show ((List.range' 2 30).filter Token.answered.owes).map Event.buffer =
      [.buffer inIndex] from rfl, handleAll_singleton]
    obtain ⟨s₂, h₂, hpassage'⟩ := h₁.listen
    exact ⟨s₂, _, h₂.retire fun _ => rfl, rfl, hpassage.trans hpassage'⟩

theorem Rests.start {m n : Nat} (h : Rests d s ⟨.waiting, m, n⟩)
    (hconfigured : s.control.configured = true) :
    (d.submit interface outAddress room).1 = true ∧
      ∃ s', Rests (d.submit interface outAddress room).2.1 s' ⟨.listening, m + 1, n⟩ ∧
        Passage ⟨.waiting, m, n⟩ ⟨.listening, m + 1, n⟩ [] []
          (d.submit interface outAddress room).2.2 := by
  have hs := h.active.sound.arranged
  have hkept := Session.kept_submit hs interface outAddress room
  have htransfer := Session.transfer_submit hs interface outAddress room
  rw [submit_eq h.active.session, submit_room hs h.callers] at *
  have hregs := regs_replay htransfer d.hw
  refine ⟨rfl, _, ⟨⟨h.active.after hkept, ?_, ?_, fun _ => hconfigured⟩, h.ready.of_regs hregs,
    ?_, ?_⟩, rfl, ?_, ?_⟩
  · rw [Pid.nth_succ]
    rfl
  · exact h.agrees.listen (fun _ => rfl) (.nth m) room
  · intro i hi hi'
    rw [hw_after, Controller.read_of_regs hregs]
    exact h.owes i hi hi'
  · rw [hw_after, Controller.read_of_regs hregs]
    exact h.noReset
  · rw [List.range_succ, List.map_append]
    rfl
  · exact List.append_nil _

omit [Board σ] in
theorem Rests.mapController (h : Rests d s stage) {c : Controller} {token : Token}
    (hready : c.Ready) (hagrees : token.Agrees c)
    (howes : ∀ i, 2 ≤ i → i < Dpram.bufferControls → (c.read .buffStatus).bit i = token.owes i)
    (hnoReset : (c.read .sieStatus).bit Bit.busReset = false)
    (hstarted : token.started = stage.token.started) :
    Rests (d.mapController fun _ => c) s ⟨token, stage.outs, stage.ins⟩ where
  active := (inService_mapController h.active.session h.active.sound hready).active
  callers := h.callers
  agrees := hagrees
  configured hs := h.configured (hstarted ▸ hs)
  ready := hready
  owes := howes
  noReset := hnoReset

section

variable {address : UInt8} {data : List UInt8}

omit [Board σ]

theorem Rests.completed (h : Rests d s stage) {token : Token}
    (hagrees : token.Agrees (d.hw.toController.complete address data false).2)
    (howes : ∀ i, 2 ≤ i → i < Dpram.bufferControls →
      ((d.hw.toController.complete address data false).2.read .buffStatus).bit i = token.owes i)
    (hstarted : token.started = stage.token.started) :
    Rests (d.mapController fun _ => (d.hw.toController.complete address data false).2) s
      ⟨token, stage.outs, stage.ins⟩ := by
  refine h.mapController (h.ready.complete _ _ _) hagrees howes ?_ hstarted
  rw [d.hw.toController.read_complete address data false (by decide) (by decide)]
  exact h.noReset

theorem Rests.bit_complete (h : Rests d s stage) (hnone : ∀ i, stage.token.owes i = false)
    {index : Nat} (hindex : Dpram.bufferControlIndex address (.ofByte address) = index)
    (hdone : (d.hw.toController.complete address data false).1 = true) {i : Nat} (hi : 2 ≤ i)
    (hi' : i < Dpram.bufferControls) :
    ((d.hw.toController.complete address data false).2.read .buffStatus).bit i = (i == index) := by
  have howes : (d.hw.toController.read .buffStatus).bit i = false :=
    (h.owes i hi hi').trans (hnone i)
  rw [d.hw.toController.buffStatus_complete, hdone, if_pos rfl, hindex, Word.bit_set_of_lt _ hi',
    howes, Bool.false_or]

theorem Rests.arrive {m n : Nat} (h : Rests d s ⟨.listening, m, n⟩)
    (hindex : Dpram.bufferControlIndex address (.ofByte address) = outIndex)
    (hdata : data.length ≤ Dpram.bufferSize) :
    Rests (d.mapController fun _ => (d.hw.toController.complete address data false).2) s
        ⟨.arrived data, m, n⟩ ∧
      delivered d.hw.toController (.complete address data false) = [data] ∧
      collected d.hw.toController (.complete address data false) = [] := by
  obtain ⟨hdone, hagrees⟩ := h.agrees.arrive hindex hdata
  refine ⟨h.completed hagrees (fun i => h.bit_complete (fun _ => rfl) hindex hdone) rfl,
    if_pos ⟨hindex, hdone⟩, if_neg ?_⟩
  exact fun hsend => absurd (hindex.symm.trans hsend.1) (by decide)

theorem Rests.leave {m n : Nat} {data' : List UInt8} (h : Rests d s ⟨.answering data', m, n⟩)
    (data : List UInt8)
    (hindex : Dpram.bufferControlIndex address (.ofByte address) = inIndex) :
    Rests (d.mapController fun _ => (d.hw.toController.complete address data false).2) s
        ⟨.answered, m, n⟩ ∧
      delivered d.hw.toController (.complete address data false) = [] ∧
      collected d.hw.toController (.complete address data false) = [data'] := by
  obtain ⟨hdone, hagrees⟩ := h.agrees.leave data hindex
  refine ⟨h.completed hagrees (fun i => h.bit_complete (fun _ => rfl) hindex hdone) rfl, if_neg ?_,
    (if_pos ⟨hindex, hdone⟩).trans (by rw [h.agrees.inPacket_eq])⟩
  exact fun hreceive => absurd (hindex.symm.trans hreceive.1) (by decide)

theorem Rests.completeEp0 (h : Rests d s stage)
    (hindex : Dpram.bufferControlIndex address (.ofByte address) < 2)
    (hdata : data.length ≤ Dpram.bufferSize) :
    Rests (d.mapController fun _ => (d.hw.toController.complete address data false).2) s stage ∧
      delivered d.hw.toController (.complete address data false) = [] ∧
      collected d.hw.toController (.complete address data false) = [] := by
  have hagrees := h.agrees.of_same (d.hw.toController.sameCallers_complete hindex hdata)
  refine ⟨h.completed hagrees ?_ rfl, if_neg ?_, if_neg ?_⟩
  · intro i hi hi'
    rw [d.hw.toController.buffStatus_complete, ← h.owes i hi hi']
    split_ifs
    · rw [Word.bit_set_of_lt _ hi', beq_false_of_ne (by omega), Bool.or_false]
    · rfl
  · exact fun hreceive => absurd (hreceive.1 ▸ hindex) (by decide)
  · exact fun hsend => absurd (hsend.1 ▸ hindex) (by decide)

theorem Rests.complete (h : Rests d s stage) (address : UInt8)
    (hdata : data.length ≤ Dpram.bufferSize) :
    ∃ token, Rests (d.mapController fun _ => (d.hw.toController.complete address data false).2) s
        ⟨token, stage.outs, stage.ins⟩ ∧ token.started = stage.token.started ∧
      stage.token.inFlight ++ delivered d.hw.toController (.complete address data false) =
        collected d.hw.toController (.complete address data false) ++ token.inFlight := by
  by_cases hcaller : 2 ≤ Dpram.bufferControlIndex address (.ofByte address)
  · cases harms : stage.token.arms (Dpram.bufferControlIndex address (.ofByte address)) with
    | false =>
      -- nothing was handed over there, so nothing happens
      have hnot := h.agrees.complete_of_not data hcaller harms
      rw [delivered, collected, hnot, if_neg (by simp), if_neg (by simp)]
      exact ⟨stage.token, h.mapController h.ready h.agrees h.owes h.noReset rfl, rfl,
        List.append_nil _⟩
    | true =>
      obtain ⟨token, m, n⟩ := stage
      cases token with
      | waiting | arrived | answered => cases harms
      | listening =>
        obtain ⟨hrests, hdelivered, hcollected⟩ := h.arrive (beq_iff_eq.1 harms) hdata
        exact ⟨_, hrests, rfl, by rw [hdelivered, hcollected]; rfl⟩
      | answering data' =>
        obtain ⟨hrests, hdelivered, hcollected⟩ := h.leave data (beq_iff_eq.1 harms)
        exact ⟨_, hrests, rfl, by rw [hdelivered, hcollected]; rfl⟩
  · obtain ⟨hrests, hdelivered, hcollected⟩ := h.completeEp0 (Nat.lt_of_not_le hcaller) hdata
    refine ⟨stage.token, hrests, rfl, ?_⟩
    rw [hdelivered, hcollected, List.append_nil, List.nil_append]

end

theorem Rests.host (h : Rests d s stage) {step : HostStep} (hs : step.Lawful)
    (hreset : step ≠ .busReset) :
    ∃ token, Rests (d.step (.host step)).2.1 s ⟨token, stage.outs, stage.ins⟩ ∧
      token.started = stage.token.started ∧
      stage.token.inFlight ++ delivered d.hw.toController step =
        collected d.hw.toController step ++ token.inFlight := by
  rw [step_host]
  cases step with
  | setup p =>
    have hsame := d.hw.toController.sameCallers_deliverSetup p
    refine ⟨stage.token, h.mapController (h.ready.deliverSetup p) (h.agrees.of_same hsame)
      ?_ ?_ rfl, rfl, List.append_nil _⟩
    · intro i hi hi'
      rw [HostStep.run, Controller.read_deliverSetup _ _ (by decide) (by decide)]
      exact h.owes i hi hi'
    · rw [HostStep.run, Controller.sieStatus_deliverSetup, Word.bit_set, h.noReset]
      rfl
  | busReset => exact absurd rfl hreset
  | complete address data force =>
    obtain ⟨rfl, hdata⟩ := hs
    exact h.complete address hdata
  | poke => cases hs
  | peek =>
    exact ⟨stage.token, h.mapController h.ready h.agrees h.owes h.noReset rfl, rfl,
      List.append_nil _⟩
  | updateInterrupts =>
    refine ⟨stage.token, h.mapController (Controller.ready_updateInterrupts h.ready.inte)
      (h.agrees.of_same (.of_dpram (Controller.dpram_updateInterrupts _))) ?_ ?_
      rfl, rfl, List.append_nil _⟩
    · intro i hi hi'
      rw [HostStep.run, Controller.read_updateInterrupts _ (by decide)]
      exact h.owes i hi hi'
    · rw [HostStep.run, Controller.read_updateInterrupts _ (by decide)]
      exact h.noReset

end

end Echo

/-! ### The firmware -/

/-- A step of a run in which the bus is not reset. -/
def FirmwareStep.Orderly : FirmwareStep → Prop
  | loop | service => True
  | interrupt => False
  | host step => step.Lawful ∧ step ≠ .busReset

namespace Firmware

open Echo Device

/-- The packets that the host delivers in a step. -/
def deliveredBy (f : Firmware) : FirmwareStep → List (List UInt8)
  | .host step => Echo.delivered f.device.hw.toController step
  | .loop | .interrupt | .service => []

/-- The packets that the host fetches in a step. -/
def collectedBy (f : Firmware) : FirmwareStep → List (List UInt8)
  | .host step => Echo.collected f.device.hw.toController step
  | .loop | .interrupt | .service => []

/-- The packets that the host delivers in a run, in order. -/
def delivered (f : Firmware) : List FirmwareStep → List (List UInt8)
  | [] => []
  | step :: steps => f.deliveredBy step ++ (f.step step).2.1.delivered steps

/-- The packets that the host fetches in a run, in order. -/
def collected (f : Firmware) : List FirmwareStep → List (List UInt8)
  | [] => []
  | step :: steps => f.collectedBy step ++ (f.step step).2.1.collected steps

/-- The firmware stands at a stage, and knows whether it made the device ready. -/
def Echoes (f : Firmware) (stage : Stage) : Prop :=
  ∃ s, Rests f.device s stage ∧ f.started = stage.token.started

variable {f : Firmware} {stage : Stage}

theorem Echoes.mainLoop (h : f.Echoes stage) :
    ∃ stage', f.mainLoop.1.Echoes stage' ∧ Passage stage stage' [] [] f.mainLoop.2 := by
  obtain ⟨s, hrests, hstarted⟩ := h
  have hconfigured : f.device.isConfigured = s.control.configured := by
    rw [Device.isConfigured, hrests.active.session]
    rfl
  cases hc : s.control.configured with
  | false =>
    -- the host has not chosen the configuration, so nothing was started
    have hnot : stage.token.started = false := by
      cases hs : stage.token.started with
      | false => rfl
      | true => exact (hrests.configured hs).symm.trans hc
    rw [Firmware.mainLoop, hconfigured, hc]
    exact ⟨stage, ⟨s, hrests, hnot.symm⟩, .refl stage⟩
  | true =>
    cases hstart : f.started with
    | true =>
      rw [Firmware.mainLoop, hconfigured, hc, hstart]
      exact ⟨stage, ⟨s, hrests, hstarted⟩, .refl stage⟩
    | false =>
      obtain ⟨token, m, n⟩ := stage
      rw [hstart] at hstarted
      cases token with
      | listening | arrived | answering | answered => cases hstarted
      | waiting =>
        obtain ⟨hanswer, s', hrests', hpassage⟩ := hrests.start hc
        rw [Firmware.mainLoop, hconfigured, hc, hstart]
        exact ⟨_, ⟨s', hrests', hanswer⟩, hpassage⟩

theorem rests_writeSoc {s : Session} (h : Rests f.device s stage) (r : SocRegister) (w : Word) :
    Rests (f.writeSoc r w).device s stage :=
  ⟨⟨⟨h.active.session, h.active.sound, h.active.inte⟩, h.callers, h.agrees, h.configured⟩, h.ready,
    h.owes, h.noReset⟩

/-- The interrupt of the firmware is that of the device, with the LED around it. -/
theorem step_service (f : Firmware) :
    (f.step .service).2 =
      (writeSoc ⟨((f.writeSoc .gpioOutSet led).device.step .service).2.1, f.started⟩
          .gpioOutClr led,
        ((f.writeSoc .gpioOutSet led).device.step .service).2.2) := by
  simp only [Firmware.step, Firmware.interrupt, Device.step]
  generalize (f.writeSoc .gpioOutSet led).device.interrupt = result
  generalize Controller.retire = g
  rfl

theorem Echoes.service (h : f.Echoes stage) :
    ∃ stage', (f.step .service).2.1.Echoes stage' ∧
      Passage stage stage' [] [] (f.step .service).2.2 := by
  obtain ⟨s, hrests, hstarted⟩ := h
  obtain ⟨s', stage', hrests', hstarted', hpassage⟩ :=
    (rests_writeSoc hrests .gpioOutSet led).service
  rw [step_service]
  generalize (f.writeSoc .gpioOutSet led).device.step .service = result at hrests' hpassage ⊢
  exact ⟨stage', ⟨s', rests_writeSoc (f := ⟨result.2.1, f.started⟩) hrests' .gpioOutClr led,
    hstarted.trans hstarted'.symm⟩, hpassage⟩

theorem Echoes.host (h : f.Echoes stage) {step : HostStep} (hs : step.Lawful)
    (hreset : step ≠ .busReset) :
    ∃ stage', (f.step (.host step)).2.1.Echoes stage' ∧
      Passage stage stage' (f.deliveredBy (.host step)) (f.collectedBy (.host step))
        (f.step (.host step)).2.2 := by
  obtain ⟨s, hrests, hstarted⟩ := h
  obtain ⟨token, hrests', hstarted', hconserved⟩ := hrests.host hs hreset
  exact ⟨_, ⟨s, hrests', hstarted.trans hstarted'.symm⟩, hconserved, List.append_nil _,
    List.append_nil _⟩

/-- One step of the firmware. -/
theorem Echoes.step (h : f.Echoes stage) {step : FirmwareStep} (hs : step.Orderly) :
    ∃ stage', (f.step step).2.1.Echoes stage' ∧
      Passage stage stage' (f.deliveredBy step) (f.collectedBy step) (f.step step).2.2 := by
  cases step with
  | loop => exact h.mainLoop
  | interrupt => cases hs
  | service => exact h.service
  | host step => exact h.host hs.1 hs.2

theorem run_cons (f : Firmware) (step : FirmwareStep) (steps : List FirmwareStep) :
    f.run (step :: steps) =
      (((f.step step).2.1.run steps).1, (f.step step).2.2 ++ ((f.step step).2.1.run steps).2) := rfl

theorem Echoes.run (h : f.Echoes stage) {steps : List FirmwareStep}
    (hsteps : ∀ step ∈ steps, step.Orderly) :
    ∃ stage', (f.run steps).1.Echoes stage' ∧
      Passage stage stage' (f.delivered steps) (f.collected steps) (f.run steps).2 := by
  -- the stage is carried along the steps; what the host sees of each adds up
  induction steps generalizing f stage with
  | nil => exact ⟨stage, h, .refl stage⟩
  | cons step steps ih =>
    rw [List.forall_mem_cons] at hsteps
    obtain ⟨stage₁, h₁, hpassage₁⟩ := h.step hsteps.1
    obtain ⟨stage₂, h₂, hpassage₂⟩ := ih h₁ hsteps.2
    rw [run_cons]
    exact ⟨stage₂, h₂, hpassage₁.trans hpassage₂⟩

theorem toController_blank (board : Soc) : (Device.blank board).hw.toController = .blank := rfl

theorem opened_eq {s : Session} (hs : Session.ofDescription Echo.device = .ok s) (resets : Word) :
    opened resets =
      (⟨(Device.blank (Boot.run (Soc.fresh resets))).after (bringUp s.endpoints) (some s), false⟩,
        bringUp s.endpoints) := by
  have hopen : (Device.blank (Boot.run (Soc.fresh resets))).open Echo.device =
      (.ok (), _, _) := open_eq_ok.2 ⟨rfl, s, hs, rfl, rfl⟩
  simp only [opened, hopen]

/-- The device is ready for a host once it was opened, but not for a packet yet. -/
theorem echoes_opened (resets : Word) : (opened resets).1.Echoes ⟨.waiting, 0, 0⟩ := by
  obtain ⟨hinte, hints, hbuff, hsie, hout, hin, harmed⟩ :
      (opened 0).1.device.hw.read .inte = Controller.wanted ∧
        (opened 0).1.device.hw.read .ints = (opened 0).1.device.hw.toController.raised ∧
        (opened 0).1.device.hw.read .buffStatus = 0 ∧
        (opened 0).1.device.hw.read .sieStatus = 0 ∧
        (opened 0).1.device.hw.toController.packetOffset outAddress .output = 0x180 ∧
        (opened 0).1.device.hw.toController.packetOffset inAddress .input = 0x1C0 ∧
        ∀ i < Dpram.bufferControls, (opened 0).1.device.hw.toController.armed i = false := by
    decide +kernel
  have hcallers := callers_ofDescription
  cases hs : Session.ofDescription Echo.device with
  | error e =>
    rw [hs] at hcallers
    cases hcallers
  | ok s =>
    rw [hs] at hcallers
    -- the blocks that are held in reset at first are no matter to the controller
    have hcontroller : (opened resets).1.device.hw.toController =
        (opened 0).1.device.hw.toController := by
      rw [opened_eq hs, opened_eq hs, hw_after, hw_after]
      exact toController_replay_congr rfl
        ((toController_blank _).trans (toController_blank _).symm) _
    have hsession : (opened resets).1.device.session = some s := by rw [opened_eq hs]; rfl
    rw [← hcontroller] at hinte hints hbuff hsie hout hin harmed
    exact ⟨s, ⟨⟨⟨hsession, Session.sound_of_ofDescription hs, hinte⟩, Except.ok.inj hcallers,
      ⟨hout, hin, fun i _ hi => harmed i hi, trivial⟩, nofun⟩, ⟨hinte, hints⟩,
      fun i _ _ => Word.bit_of_eq_zero hbuff i, Word.bit_of_eq_zero hsie _⟩, rfl⟩

/-- Packets whose identifiers alternate, `data0` first. -/
def Alternating (packets : List Packet) : Prop :=
  packets.map Packet.pid = (List.range packets.length).map Pid.nth

/-- What the host has fetched is what it has delivered, but for one packet at most; one of the two
endpoints at most has a packet with the controller or with the engine; and the identifiers alternate
on both. -/
theorem echo_faithful (resets : Word) {steps : List FirmwareStep}
    (hsteps : ∀ step ∈ steps, step.Orderly) :
    let f := (opened resets).1
    let c := (f.run steps).1.device.hw.toController
    let log := (f.run steps).2
    f.collected steps <+: f.delivered steps ∧
      (f.delivered steps).length ≤ (f.collected steps).length + 1 ∧
      [c.armed outIndex, c.armed inIndex, (c.read .buffStatus).bit outIndex,
        (c.read .buffStatus).bit inIndex].count true ≤ 1 ∧
      Alternating (handedOver interface outAddress log) ∧
      Alternating (handedOver interface inAddress log) := by
  obtain ⟨⟨token, m, n⟩, ⟨s, hrests, -⟩, hpassage⟩ := (echoes_opened resets).run hsteps
  -- the stage counts the packets, so the identifiers are those of the count
  have halternating : ∀ {k : Nat} {packets : List Packet},
      packets.map Packet.pid = (List.range k).map Pid.nth → Alternating packets := by
    intro k packets h
    have hlength : packets.length = k := by simpa using congrArg List.length h
    rw [Alternating, hlength, h]
  have hconserved := hpassage.conserved
  refine ⟨⟨_, hconserved.symm⟩, ?_, ?_, halternating hpassage.outPids, halternating hpassage.inPids⟩
  · have hlength : ((opened resets).1.delivered steps).length =
        ((opened resets).1.collected steps).length + token.inFlight.length := by
      rw [← List.length_append, ← hconserved]
      rfl
    rw [hlength]
    exact Nat.add_le_add_left token.length_inFlight_le _
  · rw [hrests.agrees.armed _ (by decide) (by decide),
      hrests.agrees.armed _ (by decide) (by decide),
      hrests.owes _ (by decide) (by decide), hrests.owes _ (by decide) (by decide)]
    exact token.count_le

/-- The host chooses the configuration, and a packet goes round. -/
def once : List FirmwareStep :=
  [.host (.setup ⟨0, 9, 1, 0, 0⟩), .service, .loop, .host (.complete outAddress [1, 2, 3] false),
    .service, .host (.complete inAddress [] false), .service]

theorem echo_faithful_once :
    (opened 0).1.collected once = [[1, 2, 3]] ∧
      (opened 0).1.collected once <+: (opened 0).1.delivered once ∧
      Alternating (handedOver interface outAddress ((opened 0).1.run once).2) := by
  have hsteps : ∀ step ∈ once, step.Orderly := by
    simp [once, FirmwareStep.Orderly, HostStep.Lawful, Dpram.bufferSize]
  have hfaithful := echo_faithful 0 hsteps
  exact ⟨by decide +kernel, hfaithful.1, hfaithful.2.2.2.1⟩

end Firmware

end UsbGadget
