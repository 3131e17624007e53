import UsbGadget.Proofs.ControlEndpoint
import UsbGadget.Proofs.Packets

/-!
# What endpoint 0 leaves alone

Control transfers have endpoint 0 for themselves: its buffer, its two buffer control words and the
SETUP packet. The rest of the packet memory belongs to the endpoints of callers.

* `Controller.SameCallers` says that two controllers agree on that rest;
* `Session.Within` are the steps of a session that are about endpoint 0 only, and
  `Device.Active.within_handleAll` is what they leave of a device.
-/

namespace UsbGadget

/-! ### Controllers -/

namespace Controller

theorem endpointControlIndex_lt {number : UInt8} {d : Direction} {index : Nat}
    (h : Dpram.endpointControlIndex number d = some index) : index < Dpram.endpointControls := by
  unfold Dpram.endpointControlIndex at h
  split_ifs at h
  have hplace := d.place_le
  rw [← Option.some.inj h]
  simp only [Dpram.endpointControls]
  omega

theorem endpointControl_congr {c c' : Controller}
    (h : ∀ i, 8 ≤ i → i < Dpram.bufferControlOffset 0 → c'.dpram.byte i = c.dpram.byte i)
    {index : Nat} (hlt : index < Dpram.endpointControls) :
    c'.endpointControl index = c.endpointControl index := by
  apply Memory.word_congr
  intro i hi hi'
  simp only [Dpram.endpointControlOffset, Dpram.endpointControls] at hi hi' hlt
  exact h i (by omega) (by simp only [Dpram.bufferControlOffset]; omega)

theorem packetOffset_congr {c c' : Controller}
    (h : ∀ i, 8 ≤ i → i < Dpram.bufferControlOffset 0 → c'.dpram.byte i = c.dpram.byte i)
    (number : UInt8) (d : Direction) : c'.packetOffset number d = c.packetOffset number d := by
  unfold packetOffset
  cases hindex : Dpram.endpointControlIndex number d with
  | none => rfl
  | some index => simp only [endpointControl_congr h (endpointControlIndex_lt hindex)]

theorem packetOffset_congr_number (c : Controller) {number number' : UInt8}
    (h : number.toNat % 16 = number'.toNat % 16) (d : Direction) :
    c.packetOffset number d = c.packetOffset number' d := by
  rw [packetOffset, packetOffset, Dpram.endpointControlIndex, Dpram.endpointControlIndex, h]

theorem packetOffset_giveBack (c : Controller) {i : Nat} (hi : i < Dpram.bufferControls) (w : Word)
    (number : UInt8) (d : Direction) :
    (c.giveBack i w).packetOffset number d = c.packetOffset number d :=
  packetOffset_congr (fun _ _ hj => c.byte_giveBack hi w (.inl hj)) number d

/-- A buffer that the controller has is completed: it has the buffer no more, and every other one
still, and where packets lie is not changed. -/
theorem complete_armed {c : Controller} {address : UInt8} {data : List UInt8}
    (harmed : c.armed (Dpram.bufferControlIndex address (.ofByte address)) = true)
    (hfit : Direction.ofByte address = .output → Dpram.ep0Buffer ≤ c.packetOffset address .output ∧
      c.packetOffset address .output + data.length ≤ Dpram.size) :
    (c.complete address data false).1 = true ∧
      (∀ j < Dpram.bufferControls, (c.complete address data false).2.armed j =
        if j = Dpram.bufferControlIndex address (.ofByte address) then false else c.armed j) ∧
      ∀ number d, (c.complete address data false).2.packetOffset number d =
        c.packetOffset number d := by
  have hindex := bufferControlIndex_lt address (.ofByte address)
  cases hd : Direction.ofByte address with
  | input =>
    rw [hd] at harmed hindex
    rw [c.complete_input address data _ rfl hd, if_pos harmed]
    exact ⟨rfl, fun j _ => c.armed_giveBack hindex (by simp),
      fun number d => c.packetOffset_giveBack hindex _ number d⟩
  | output =>
    rw [hd] at harmed hindex
    obtain ⟨hle, hfit⟩ := hfit hd
    have havailable := (ofWord_filledWord
      (c.bufferControl (Dpram.bufferControlIndex address .output)) data.length).1
    rw [c.complete_output address data _ rfl hd hfit, if_pos harmed]
    refine ⟨rfl, ?_, ?_⟩
    · intro j hj
      rw [armed_giveBack _ hindex havailable, armed, c.bufferControl_writeBytes hj hle, armed]
    · intro number d
      rw [packetOffset_giveBack _ hindex]
      refine packetOffset_congr ?_ number d
      intro i _ hi
      simp only [Dpram.ep0Buffer, Dpram.bufferControlOffset] at hle hi
      rw [Memory.byte_writeBytes, if_neg (by omega)]

/-- The packet memories are the same but for what belongs to endpoint 0. -/
structure SameCallers (c c' : Controller) : Prop where
  /-- The endpoint control words. -/
  low : ∀ i, 8 ≤ i → i < Dpram.bufferControlOffset 0 → c'.dpram.byte i = c.dpram.byte i
  /-- The buffer control words. -/
  word : ∀ i, 2 ≤ i → i < Dpram.bufferControls → c'.bufferControl i = c.bufferControl i
  /-- The slots. -/
  slot : ∀ offset count, Dpram.ep0Buffer < offset → offset % Dpram.bufferSize = 0 →
    count ≤ Dpram.bufferSize → c'.dpram.readBytes offset count = c.dpram.readBytes offset count

namespace SameCallers

variable {c c' c'' : Controller}

theorem of_dpram (h : c'.dpram = c.dpram) : c.SameCallers c' := by
  refine ⟨fun i _ _ => by rw [h], ?_, fun offset count _ _ _ => by rw [h]⟩
  intro i _ _
  rw [bufferControl, bufferControl, h]

theorem refl (c : Controller) : c.SameCallers c := of_dpram rfl

theorem trans (h : c.SameCallers c') (h' : c'.SameCallers c'') : c.SameCallers c'' where
  low i hi hi' := (h'.low i hi hi').trans (h.low i hi hi')
  word i hi hi' := (h'.word i hi hi').trans (h.word i hi hi')
  slot offset count hoff halign hcount :=
    (h'.slot offset count hoff halign hcount).trans (h.slot offset count hoff halign hcount)

theorem armed_eq (h : c.SameCallers c') {i : Nat} (hi : 2 ≤ i) (hi' : i < Dpram.bufferControls) :
    c'.armed i = c.armed i := by rw [armed, armed, h.word i hi hi']

theorem packetOffset_eq (h : c.SameCallers c') (number : UInt8) (d : Direction) :
    c'.packetOffset number d = c.packetOffset number d := packetOffset_congr h.low number d

end SameCallers

theorem sameCallers_deliverSetup (c : Controller) (p : SetupPacket) :
    c.SameCallers (c.deliverSetup p) := by
  refine ⟨fun i hi _ => c.byte_deliverSetup p hi, ?_, ?_⟩
  · intro i _ _
    apply Memory.word_congr
    intro j hj _
    simp only [Dpram.bufferControlOffset] at hj
    exact c.byte_deliverSetup p (by omega)
  · intro offset count hoff _ _
    apply Memory.readBytes_congr
    intro j hj _
    simp only [Dpram.ep0Buffer] at hoff
    exact c.byte_deliverSetup p (by omega)

theorem sameCallers_giveBack (c : Controller) {i : Nat} (hi : i < 2) (w : Word) :
    c.SameCallers (c.giveBack i w) := by
  have hlt : i < Dpram.bufferControls := Nat.lt_trans hi (by decide)
  refine ⟨fun j _ hj => c.byte_giveBack hlt w (.inl hj), ?_, ?_⟩
  · intro j hj _
    rw [c.bufferControl_giveBack hlt, if_neg (by omega)]
  · intro offset count hoff _ _
    exact Memory.readBytes_congr fun j hj _ =>
      c.byte_giveBack hlt w (.inr (Nat.le_trans (Nat.le_of_lt hoff) hj))

theorem sameCallers_writeBytes (c : Controller) {data : List UInt8}
    (hdata : data.length ≤ Dpram.bufferSize) :
    c.SameCallers { c with dpram := c.dpram.writeBytes Dpram.ep0Buffer data } := by
  simp only [Dpram.bufferSize] at hdata
  refine ⟨?_, fun i _ hi => c.bufferControl_writeBytes hi (Nat.le_refl _) data, ?_⟩
  · intro i _ hi
    simp only [Dpram.bufferControlOffset] at hi
    rw [Memory.byte_writeBytes, if_neg (by simp only [Dpram.ep0Buffer]; omega)]
  · intro offset count hoff halign _
    apply Memory.readBytes_congr
    intro i hi _
    simp only [Dpram.ep0Buffer, Dpram.bufferSize] at hoff halign
    rw [Memory.byte_writeBytes, if_neg (by simp only [Dpram.ep0Buffer]; omega)]

theorem sameCallers_complete (c : Controller) {address : UInt8} {data : List UInt8}
    (hindex : Dpram.bufferControlIndex address (.ofByte address) < 2)
    (hdata : data.length ≤ Dpram.bufferSize) :
    c.SameCallers (c.complete address data false).2 := by
  have hnumber : address.toNat % 16 = 0 := by
    simp only [Dpram.bufferControlIndex] at hindex
    omega
  cases hd : Direction.ofByte address with
  | input =>
    rw [hd] at hindex
    rw [c.complete_input address data _ rfl hd]
    split_ifs
    · exact c.sameCallers_giveBack hindex _
    · exact .refl c
  | output =>
    -- endpoint 0 has no endpoint control word: its packets lie where they always do
    have hoff : c.packetOffset address .output = Dpram.ep0Buffer := by
      rw [packetOffset, Dpram.endpointControlIndex, if_pos hnumber]
    rw [hd] at hindex
    rw [c.complete_output address data _ rfl hd
      (hoff ▸ Nat.le_trans (Nat.add_le_add_left hdata _) (by decide)), hoff]
    split_ifs
    · exact (c.sameCallers_writeBytes hdata).trans (sameCallers_giveBack _ hindex _)
    · exact .refl c

end Controller

/-! ### Effects -/

/-- An effect of a control transfer. -/
def Effect.OfEp0 : Effect → Prop
  | write r _ => r = .addrEndp ∨ r = .sieStatus ∨ r = .buffStatus
  | arm e data => (∃ d pid, e = .ofControl d pid) ∧ data.length ≤ Dpram.bufferSize
  | heed _ | collect _ _ => True
  | call _ _ _ | reset | clear | line _ | enable _ => False

theorem Event.ofEp0_acknowledge (event : Event) : event.acknowledge.OfEp0 := by
  cases event with
  | setup => exact .inr (.inl rfl)
  | buffer index => exact .inr (.inr rfl)
  | busReset => exact .inr (.inl rfl)

section

variable {σ : Type} [Board σ]

theorem sameCallers_apply (h : Hardware σ) {e : Effect} (he : e.OfEp0) :
    h.toController.SameCallers (e.apply h).toController := by
  cases e with
  | write r w => exact .of_dpram (Controller.dpram_write _ _ _)
  | arm e data =>
    obtain ⟨⟨d, pid, rfl⟩, hdata⟩ := he
    have hplaced := Endpoint.placed_ofControl d pid
    have hcontrol : (Endpoint.ofControl d pid).bufferControl < 2 := by
      cases d with
      | input => exact Nat.zero_lt_two
      | output => exact Nat.one_lt_two
    refine ⟨fun i _ hi => hplaced.byte_arm_low data h.dpram hi, ?_, ?_⟩
    · intro i hi hi'
      exact (hplaced.word_arm data h.dpram hi').trans (if_neg (by omega))
    · intro offset count hoff halign hcount
      exact hplaced.readBytes_arm_of_ne data h.dpram hdata (Nat.le_of_lt hoff) halign hcount
        (Nat.ne_of_lt hoff)
  | heed | collect => exact .refl _
  | call | reset | clear | line | enable => cases he

theorem sameCallers_replay (h : Hardware σ) {log : List Effect} (hlog : ∀ e ∈ log, e.OfEp0) :
    h.toController.SameCallers (replay log h).toController :=
  replay_preserves (P := fun h' => h.toController.SameCallers h'.toController)
    (fun e he h' hh => hh.trans (sameCallers_apply h' (hlog e he))) (.refl _)

end

theorem handedOver_ofEp0 {log : List Effect} (hlog : ∀ e ∈ log, e.OfEp0) {interface : UInt8}
    (hinterface : interface ≠ 0) (address : UInt8) : handedOver interface address log = [] := by
  rw [handedOver, List.filterMap_eq_nil_iff]
  intro e he
  cases e with
  | arm e data =>
    obtain ⟨⟨d, pid, rfl⟩, -⟩ := hlog _ he
    exact if_neg fun h => hinterface h.1.symm
  | write | heed | collect | call | reset | clear | line | enable => rfl

/-! ### Sessions -/

namespace Control

variable {c : Control}

theorem configured_setup {set : DescriptorSet} {limit : Nat} {p : SetupPacket}
    (h : c.configured = true) : (c.setup set limit p).1.configured = true := by
  rw [(c.memory_setup set limit p).2.2, h, Bool.or_true]

theorem configured_sent (h : c.configured = true) : c.sent.1.configured = true := by
  unfold sent
  split_ifs <;> exact h

end Control

/-- An event of a control transfer, but for a bus reset. -/
def Event.OfEp0 : Event → Prop
  | setup => True
  | buffer index => index < 2
  | busReset => False

/-- What waits for an interrupt: events of endpoint 0, then the buffers of callers, and last a reset
of the bus. -/
theorem Controller.exists_events_eq (c : Controller) :
    ∃ events, (∀ event ∈ events, event.OfEp0) ∧ c.events =
      events ++ (((List.range' 2 30).filter (c.read .buffStatus).bit).map .buffer ++
        if (c.read .sieStatus).bit Bit.busReset then [.busReset] else []) := by
  rw [events, returned_eq, List.map_append, List.append_assoc, List.append_assoc,
    ← List.append_assoc]
  refine ⟨_, ?_, rfl⟩
  intro event hevent
  rw [List.mem_append, List.mem_map] at hevent
  rcases hevent with hsetup | ⟨i, hi, rfl⟩
  · split_ifs at hsetup
    · rw [List.mem_singleton.1 hsetup]
      trivial
    · cases hsetup
  · show i < 2
    rw [List.mem_append] at hi
    rcases hi with hi | hi <;> split_ifs at hi <;> simp_all

namespace Session

/-- A step of a session that was about endpoint 0 only, and left it configured. -/
structure Within (s : Session) (result : Session × List Effect) : Prop where
  /-- The endpoints of callers. -/
  callers : result.1.callers = s.callers
  /-- The host's choice of a configuration. -/
  configured : s.control.configured = true → result.1.control.configured = true
  /-- The effects. -/
  effects : ∀ e ∈ result.2, e.OfEp0

namespace Within

variable {s s' : Session} {log : List Effect}

theorem cons {e : Effect} (he : e.OfEp0) (h : s.Within (s', log)) : s.Within (s', e :: log) :=
  ⟨h.callers, h.configured, List.forall_mem_cons.2 ⟨he, h.effects⟩⟩

/-- Only the callers' endpoints and the control machine count. -/
theorem of_eq {result : Session × List Effect} (hcallers : s'.callers = s.callers)
    (hcontrol : s'.control = s.control) (h : s'.Within result) : s.Within result :=
  ⟨h.callers.trans hcallers, fun hc => h.configured (hcontrol ▸ hc), h.effects⟩

end Within

theorem within_proceed {s : Session} (hs : Arranged s.endpoints) {step : Control × Reply}
    (hstep : s.control.configured = true → step.1.configured = true) :
    s.Within (s.proceed step) := by
  obtain ⟨c, reply⟩ := step
  cases reply with
  | silent => exact ⟨rfl, hstep, List.forall_mem_nil _⟩
  | send data =>
    rw [proceed_send hs]
    refine ⟨rfl, hstep, List.forall_mem_singleton.2 ⟨⟨_, _, rfl⟩, ?_⟩⟩
    rw [List.length_take]
    exact Nat.min_le_left _ _
  | receive =>
    rw [proceed_receive hs]
    exact ⟨rfl, hstep, List.forall_mem_singleton.2 ⟨⟨_, _, rfl⟩, Nat.zero_le _⟩⟩
  | moveTo address => exact ⟨rfl, hstep, List.forall_mem_singleton.2 (.inl rfl)⟩

theorem within_setup {s : Session} (hs : Arranged s.endpoints) (p : SetupPacket) :
    s.Within (s.setup p) := by
  rw [setup_eq hs]
  refine .of_eq ?_ ?_ (within_proceed (hs.replace .data1 .data1) Control.configured_setup)
  · rfl
  · rfl

theorem within_react {s : Session} (hs : Arranged s.endpoints) (m : Memory Dpram.size)
    {event : Event} (hevent : event.OfEp0) : s.Within (s.react m event) := by
  cases event with
  | setup => exact .cons trivial (within_setup hs _)
  | busReset => cases hevent
  | buffer index =>
    obtain rfl | rfl : index = 0 ∨ index = 1 := by
      have hlt : index < 2 := hevent
      omega
    · rw [react_sent hs]
      exact .cons trivial (within_proceed hs Control.configured_sent)
    · rw [react_received hs]
      exact ⟨rfl, id, List.forall_mem_singleton.2 trivial⟩

end Session

/-! ### Devices -/

namespace Device

variable {σ : Type} [Board σ]

/-- The device has gone from one session to another, and left the endpoints of callers alone. -/
structure LeftCallers (d : Device σ) (s : Session) (d' : Device σ) (s' : Session)
    (log : List Effect) : Prop where
  /-- The device is still active. -/
  active : d'.Active s'
  /-- The endpoints of callers. -/
  callers : s'.callers = s.callers
  /-- The host's choice of a configuration. -/
  configured : s.control.configured = true → s'.control.configured = true
  /-- The packet memory. -/
  memory : d.hw.toController.SameCallers d'.hw.toController
  /-- Nothing was handed over on interfaces of callers. -/
  handed : ∀ interface address, interface ≠ 0 → handedOver interface address log = []

theorem Active.within_handle {d : Device σ} {s : Session} (hd : d.Active s) {event : Event}
    (hevent : event.OfEp0) :
    d.LeftCallers s (d.handle event).1 (s.react d.hw.dpram event).1 (d.handle event).2 := by
  have hwithin := Session.within_react hd.sound.arranged d.hw.dpram hevent
  have hlog : ∀ e ∈ event.acknowledge :: (s.react d.hw.dpram event).2, e.OfEp0 :=
    List.forall_mem_cons.2 ⟨event.ofEp0_acknowledge, hwithin.effects⟩
  refine ⟨hd.handle event, hwithin.callers, hwithin.configured, ?_, ?_⟩
  · rw [handle_eq hd.session, hw_after]
    exact sameCallers_replay d.hw hlog
  · rw [handle_eq hd.session]
    exact fun interface address hinterface => handedOver_ofEp0 hlog hinterface address

/-- Handling events of endpoint 0 in a row. -/
theorem Active.within_handleAll {d : Device σ} {s : Session} (hd : d.Active s)
    {events : List Event} (hevents : ∀ event ∈ events, event.OfEp0) :
    ∃ s', d.LeftCallers s (d.handleAll events).1 s' (d.handleAll events).2 := by
  induction events generalizing d s with
  | nil => exact ⟨s, hd, rfl, id, .refl _, fun _ _ _ => rfl⟩
  | cons event events ih =>
    rw [List.forall_mem_cons] at hevents
    have h := hd.within_handle hevents.1
    obtain ⟨s', h'⟩ := ih h.active hevents.2
    refine ⟨s', h'.active, h'.callers.trans h.callers, h'.configured ∘ h.configured,
      h.memory.trans h'.memory, ?_⟩
    intro interface address hinterface
    rw [handleAll_cons, handedOver_append, h.handed interface address hinterface,
      h'.handed interface address hinterface]
    rfl

end Device

end UsbGadget
