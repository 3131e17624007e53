import UsbGadget.Firmware.Echo
import UsbGadget.Proofs.BringUp
import UsbGadget.Proofs.CallerEndpoints

/-!
# What the control machine waits for

A control transfer goes on when a buffer of endpoint 0 comes back: that of the IN half while an
answer is on its way, and that of the OUT half once the data has gone out
(`ControlPhase.awaited?`). The controller always has the packet of that buffer, or has reported it
(`Device.Undisturbed.never_waits_in_vain`).

* `Control.buffer_of_setup` and `Control.buffer_of_sent`: whatever the machine goes on to wait for
  is handed over with its reply;
* `Device.Active.attends_handle` is the step lemma within an interrupt, where a buffer may also be
  among the events that are still to be handled (`Device.Attends`); the engine takes no packet back,
  so nothing that a handler does gets in the way;
* `HostStep.minds_run` is the step lemma for the host.

The host's data could get in the way. It is put where the endpoint's control register says, and the
register of an endpoint that was never switched on says nothing: the data then lies over the other
control registers, and with the next packet over those of endpoint 0 (`stray_waits_in_vain`).
`Device.Undisturbed` are the states that are reached without such data. A host that completes OUT
packets only of endpoints that are switched on never disturbs anything (`Device.undisturbed_run`).
-/

namespace UsbGadget

/-! ### The control machine -/

/-- The buffer that has to come back before a transfer in this phase goes on. -/
def ControlPhase.awaited? : ControlPhase → Option Nat
  | idle => none
  | sending | addressing | configuring | acknowledging => some 0
  | awaiting => some 1

theorem ControlPhase.awaited_lt {phase : ControlPhase} {i : Nat} (h : phase.awaited? = some i) :
    i < 2 := by
  cases phase with
  | idle => cases h
  | sending | addressing | configuring | acknowledging =>
    cases h
    exact Nat.zero_lt_two
  | awaiting =>
    cases h
    exact Nat.one_lt_two

theorem ControlPhase.awaited_lt_bufferControls {phase : ControlPhase} {i : Nat}
    (h : phase.awaited? = some i) : i < Dpram.bufferControls :=
  Nat.lt_trans (awaited_lt h) (by decide)

/-- The buffer that is handed over with a reply. -/
def Reply.buffer? : Reply → Option Nat
  | silent | moveTo _ => none
  | send _ => some 0
  | receive => some 1

namespace Control

variable {c : Control} {i : Nat}

theorem awaited_of_answering {phase : ControlPhase} (h : Answering phase) :
    phase.awaited? = some 0 := by
  cases phase with
  | idle => exact absurd rfl h.1
  | awaiting => exact absurd rfl h.2
  | sending | addressing | configuring | acknowledging => rfl

/-- What a transfer waits for after its SETUP packet is handed over with the reply. -/
theorem buffer_of_setup {set : DescriptorSet} {limit : Nat} {p : SetupPacket}
    (h : (c.setup set limit p).1.phase.awaited? = some i) :
    (c.setup set limit p).2.buffer? = some i := by
  cases hdirection : p.direction with
  | output =>
    obtain ⟨hreply, -, hphase⟩ := c.setup_of_output set limit hdirection
    rw [awaited_of_answering hphase] at h
    rw [hreply]
    exact h
  | input =>
    by_cases hasks : p.AsksForDescriptor
    · obtain ⟨bytes, hbytes⟩ := DescriptorSet.exists_answers set hasks.kind
      rw [c.setup_of_asks set limit hasks hbytes] at h ⊢
      exact h
    · rw [c.setup_of_ignored set limit hdirection hasks] at h
      cases h

/-- What a transfer waits for once a packet has gone out is handed over with the reply, or was
waited for before and is not the packet that has gone out. -/
theorem buffer_of_sent (h : c.sent.1.phase.awaited? = some i) :
    c.sent.2.buffer? = some i ∨ (c.phase.awaited? = some i ∧ i ≠ 0) := by
  unfold sent at h ⊢
  by_cases hpending : c.addressPending = true
  · rw [if_pos hpending] at h
    cases h
  · rw [if_neg hpending] at h ⊢
    by_cases hempty : c.emptyPending = true
    · rw [if_pos hempty] at h ⊢
      by_cases hi : i = 0
      · exact .inl (congrArg some hi.symm)
      · exact .inr ⟨h, hi⟩
    · rw [if_neg hempty] at h ⊢
      by_cases hphase : c.phase = .sending
      · simp only [if_pos hphase] at h
        exact .inl h
      · simp only [if_neg hphase] at h
        cases h

end Control

/-! ### Sessions -/

namespace Session

variable {s : Session}

theorem armed_proceed {σ : Type} [Board σ] (hs : Arranged s.endpoints) (h : Hardware σ)
    {step : Control × Reply} {i : Nat} (hi : step.2.buffer? = some i) :
    (replay (s.proceed step).2 h).toController.armed i = true := by
  obtain ⟨control, reply⟩ := step
  cases reply with
  | silent | moveTo => cases hi
  | send data =>
    cases hi
    rw [proceed_send hs, replay_cons, replay_nil,
      Effect.armed_apply_arm (Endpoint.placed_ofControl .input s.pidIn) h _ (by decide)]
    exact if_pos rfl
  | receive =>
    cases hi
    rw [proceed_receive hs, replay_cons, replay_nil,
      Effect.armed_apply_arm (Endpoint.placed_ofControl .output s.pidOut) h _ (by decide)]
    exact if_pos rfl

theorem armed_setup {σ : Type} [Board σ] (hs : Arranged s.endpoints) (h : Hardware σ)
    (m : Memory Dpram.size) {i : Nat}
    (hi : (s.react m .setup).1.control.phase.awaited? = some i) :
    (replay (s.react m .setup).2 h).toController.armed i = true := by
  have hcontrol : (s.react m .setup).1.control = _ := control_setup hs (SetupPacket.inMemory m)
  rw [hcontrol] at hi
  show (replay (.heed _ :: (s.setup (SetupPacket.inMemory m)).2) h).toController.armed i = true
  rw [replay_cons, setup_eq hs]
  exact armed_proceed (hs.replace .data1 .data1) _ (Control.buffer_of_setup hi)

/-- What is waited for once a packet has gone out is with the controller, or was waited for before
and is not the packet that has gone out. -/
theorem armed_sent {σ : Type} [Board σ] (hs : Arranged s.endpoints) (h : Hardware σ)
    (m : Memory Dpram.size) {i : Nat}
    (hi : (s.react m (.buffer 0)).1.control.phase.awaited? = some i) :
    (replay (s.react m (.buffer 0)).2 h).toController.armed i = true ∨
      (s.control.phase.awaited? = some i ∧ i ≠ 0) := by
  rw [react_sent hs, control_proceed] at hi
  rw [react_sent hs, replay_cons]
  exact (Control.buffer_of_sent hi).imp_left (armed_proceed hs _)

theorem control_submit (s : Session) (interface address : UInt8) (data : List UInt8) :
    (s.submit interface address data).1.control = s.control := by
  unfold submit
  cases s.position? interface address with
  | none => rfl
  | some position => exact control_arm s position data

/-- A handler has no way to the control machine. -/
theorem control_run (s : Session) (p : Program) : (s.run p).1.control = s.control := by
  induction p generalizing s with
  | done => rfl
  | askConfigured next ih => exact ih _ s
  | submit interface address data next ih =>
    exact (ih _ _).trans (s.control_submit interface address data)

theorem control_buffer (hs : Arranged s.endpoints) (m : Memory Dpram.size) {index : Nat}
    (hindex : 2 ≤ index) (hlt : index < Dpram.bufferControls) :
    (s.react m (.buffer index)).1.control = s.control := by
  simp only [react]
  cases hfind : s.endpoints.find? (·.address == Event.bufferAddress index) with
  | none => rfl
  | some e =>
    obtain ⟨-, -, handler, howner⟩ := owner_of_find hs hindex hlt hfind
    cases handler with
    | none => simp only [completed, howner]
    | some handler =>
      simp only [completed, howner]
      exact s.control_run _

end Session

/-! ### Interrupts -/

namespace Device

variable {σ : Type} [Board σ] {d : Device σ} {s : Session}

/-- What is waited for is with the controller, or among the events that are still to be handled. -/
def Attends (d : Device σ) (events : List Event) : Prop :=
  ∀ i, d.phase.awaited? = some i → d.hw.toController.armed i = true ∨ .buffer i ∈ events

omit [Board σ] in
theorem phase_eq (h : d.session = some s) : d.phase = s.control.phase := by
  rw [phase, h]
  rfl

/-- Handling an event leaves nothing that is waited for unattended. -/
theorem Active.attends_handle (hd : d.Active s) {event : Event} {events : List Event}
    (hreport : event.Reportable) (h : d.Attends (event :: events)) :
    (d.handle event).1.Attends events := by
  have hs := hd.sound.arranged
  have hkept := (Session.kept_react hs d.hw.dpram event).acknowledged event
  -- what was waited for before is still attended, unless it is what has come back now
  have hstays (i : Nat) (hi : s.control.phase.awaited? = some i) (hne : .buffer i ≠ event) :
      (d.handle event).1.hw.toController.armed i = true ∨ .buffer i ∈ events := by
    rcases h i (phase_eq hd.session ▸ hi) with harmed | hmem
    · rw [handle_eq hd.session]
      exact .inl
        (armed_replay hkept.routine (ControlPhase.awaited_lt_bufferControls hi) d.hw harmed)
    · exact .inr ((List.mem_cons.1 hmem).resolve_left hne)
  intro i hi
  rw [phase_eq (hd.handle event).session] at hi
  cases event with
  | setup =>
    rw [handle_eq hd.session, hw_after, replay_cons]
    exact .inl (Session.armed_setup hs _ _ hi)
  | busReset =>
    rw [show (s.react d.hw.dpram .busReset).1 = (s.proceed s.control.busReset).1 from rfl,
      Session.control_proceed] at hi
    cases hi
  | buffer index =>
    obtain _ | _ | index := index
    · rcases Session.armed_sent hs ((Event.buffer 0).acknowledge.apply d.hw) _ hi with
        harmed | ⟨hbefore, hne⟩
      · rw [handle_eq hd.session, hw_after, replay_cons]
        exact .inl harmed
      · exact hstays i hbefore fun heq => hne (Event.buffer.inj heq)
    · rw [Session.react_received hs] at hi
      cases hi
    · rw [Session.control_buffer hs _ (Nat.le_add_left 2 index) hreport] at hi
      have hlt := ControlPhase.awaited_lt hi
      refine hstays i hi fun heq => ?_
      have hindex := Event.buffer.inj heq
      omega

theorem Active.attends_handleAll (hd : d.Active s) {events : List Event}
    (hreport : ∀ event ∈ events, event.Reportable) (h : d.Attends events) :
    (d.handleAll events).1.Attends [] := by
  induction events generalizing d s with
  | nil => exact h
  | cons event events ih =>
    rw [List.forall_mem_cons] at hreport
    exact ih (hd.handle event) hreport.2 (hd.attends_handle hreport.1 h)

end Device

/-! ### The host -/

namespace Controller

/-- The controller has the packet of a buffer, or has reported that it came back. -/
def Minds (c : Controller) (i : Nat) : Prop :=
  c.armed i = true ∨ (c.read .buffStatus).bit i = true

variable {c c' : Controller} {i : Nat}

theorem Minds.of_eq (h : c.Minds i) (hword : c'.bufferControl i = c.bufferControl i)
    (hstatus : c'.read .buffStatus = c.read .buffStatus) : c'.Minds i := by
  rwa [Minds, armed, hword, hstatus]

theorem Minds.writeBytes (h : c.Minds i) {offset : Nat} {data : List UInt8}
    (hbeside : offset + data.length ≤ Dpram.bufferControlOffset i ∨
      Dpram.bufferControlOffset (i + 1) ≤ offset) :
    ({ c with dpram := c.dpram.writeBytes offset data } : Controller).Minds i := by
  refine h.of_eq (Memory.word_writeBytes_of_disjoint _ ?_) (c.read_mk _ _)
  simp only [Dpram.bufferControlOffset] at hbeside ⊢
  omega

/-- A buffer that is given back is reported; the others stay as they are. -/
theorem Minds.giveBack (h : c.Minds i) (hi : i < Dpram.bufferControls) {j : Nat}
    (hj : j < Dpram.bufferControls) (w : Word) : (c.giveBack j w).Minds i := by
  rw [Minds, buffStatus_giveBack, Word.bit_set_of_lt _ hi]
  by_cases hij : i = j
  · rw [beq_iff_eq.2 hij, Bool.or_true]
    exact .inr rfl
  · rw [armed, c.bufferControl_giveBack hj, if_neg hij]
    exact h.imp_right fun hbit => by rw [hbit, Bool.true_or]

theorem buffer_mem_events (hi : i < Dpram.bufferControls)
    (h : (c.read .buffStatus).bit i = true) : .buffer i ∈ c.events := by
  have hmem := List.mem_map_of_mem (f := Event.buffer) (mem_returned.2 ⟨hi, h⟩)
  rw [events, List.mem_append, List.mem_append]
  exact .inl (.inr hmem)

end Controller

/-- The data of an OUT packet does not lie over the buffer control words of endpoint 0. -/
def HostStep.ClearOfEp0 (c : Controller) : HostStep → Prop
  | complete address data _ =>
    Direction.ofByte address = .output →
      c.packetOffset address .output + data.length ≤ Dpram.bufferControlOffset 0 ∨
        Dpram.bufferControlOffset 2 ≤ c.packetOffset address .output
  | setup _ | busReset | poke _ _ _ | peek _ _ | updateInterrupts => True

/-- What a host does, if its data stays clear of endpoint 0, leaves the controller in mind of every
buffer of endpoint 0. -/
theorem HostStep.minds_run {c : Controller} {step : HostStep} (hlawful : step.Lawful)
    (hclear : step.ClearOfEp0 c) {i : Nat} (hi : i < 2) (h : c.Minds i) :
    (step.run c).2.Minds i := by
  have hlt : i < Dpram.bufferControls := Nat.lt_trans hi (by decide)
  cases step with
  | setup packet =>
    refine h.of_eq ?_ (c.read_deliverSetup packet (by decide) (by decide))
    exact Memory.word_congr fun j hj _ =>
      c.byte_deliverSetup packet (Nat.le_trans (show 8 ≤ 0x80 + 4 * i by omega) hj)
  | busReset =>
    refine h.of_eq ?_ (c.read_deliverReset (by decide) (by decide))
    rw [HostStep.run, Controller.bufferControl, c.dpram_deliverReset, Controller.bufferControl]
  | poke => cases hlawful
  | peek => exact h
  | updateInterrupts =>
    refine h.of_eq ?_ (c.read_updateInterrupts (by decide))
    rw [HostStep.run, Controller.bufferControl, c.dpram_updateInterrupts, Controller.bufferControl]
  | complete address data force =>
    show (c.complete address data force).2.Minds i
    rcases c.complete_cases address data force with hsame | ⟨j, hj, w, hback | ⟨hout, hback⟩⟩
    · rwa [hsame]
    · rw [hback]
      exact h.giveBack hlt hj w
    · rw [hback]
      refine (h.writeBytes ?_).giveBack hlt hj w
      have hclear := hclear hout
      simp only [Dpram.bufferControlOffset] at hclear ⊢
      omega

/-! ### Runs -/

/-- A step of the host stays clear of the buffer control words of endpoint 0. -/
def DeviceStep.ClearOfEp0 (c : Controller) : DeviceStep → Prop
  | host step => step.ClearOfEp0 c
  | «open» _ | close | submit _ _ _ | interrupt | service => True

namespace Device

variable {σ : Type} [Board σ] {d : Device σ} {s : Session} {description : DeviceDescription}

/-- The controller has what is waited for, or has reported it. -/
def Attended (d : Device σ) : Prop :=
  ∀ i, d.phase.awaited? = some i → d.hw.toController.Minds i

omit [Board σ] in
theorem phase_mapController (d : Device σ) (f : Controller → Controller) :
    (d.mapController f).phase = d.phase := rfl

theorem InService.attended_step (hd : d.InService s) {step : DeviceStep} (hlawful : step.Lawful)
    (hclear : step.ClearOfEp0 d.hw.toController) (h : d.Attended) :
    (d.step step).2.1.Attended := by
  intro i hi
  cases step with
  | «open» | close | interrupt => cases hlawful
  | submit interface address data =>
    have hs := hd.sound.arranged
    have hkept := Session.kept_submit hs interface address data
    have hlog := Session.transfer_submit hs interface address data
    simp only [Device.step, submit_eq hd.session] at hi ⊢
    rw [phase_eq (session_after d _ _), Session.control_submit, ← phase_eq hd.session] at hi
    rw [hw_after, Controller.Minds, Controller.read_of_regs (regs_replay hlog d.hw)]
    exact (h i hi).imp_left
      (armed_replay hkept.routine (ControlPhase.awaited_lt_bufferControls hi) d.hw)
  | service =>
    have hattends : d.Attends d.pending := by
      intro j hj
      rw [pending_eq hd.ready]
      exact (h j hj).imp_right
        (Controller.buffer_mem_events (ControlPhase.awaited_lt_bufferControls hj))
    have hreport : ∀ event ∈ d.pending, event.Reportable := fun _ => reportable_of_mem_pending
    rw [step_service, phase_mapController] at hi
    rw [step_service]
    have harmed := (hd.active.attends_handleAll hreport hattends i hi).resolve_right
      List.not_mem_nil
    rw [Controller.armed, Controller.bufferControl] at harmed
    rw [Controller.Minds, Controller.armed, Controller.bufferControl, toController_mapController,
      Controller.dpram_retire]
    exact .inl harmed
  | host step =>
    rw [step_host, phase_mapController] at hi
    rw [step_host]
    exact HostStep.minds_run hlawful hclear (ControlPhase.awaited_lt hi) (h i hi)

/-- The states of a device that was opened as described and driven by lawful steps since, none of
which had data lie over the buffer control words of endpoint 0. -/
inductive Undisturbed (description : DeviceDescription) : Device σ → Prop
  | opened {closed d : Device σ} {log : List Effect}
      (h : closed.open description = (.ok (), d, log)) :
      Undisturbed description (d.mapController Controller.updateInterrupts)
  | step {d : Device σ} {step : DeviceStep} (h : Undisturbed description d) (hs : step.Lawful)
      (hclear : step.ClearOfEp0 d.hw.toController) : Undisturbed description (d.step step).2.1

theorem Undisturbed.reached (h : Undisturbed description d) : Reached description d := by
  induction h with
  | opened h => exact .opened h
  | step _ hs _ ih => exact ih.step hs

theorem Undisturbed.attended (h : Undisturbed description d) : d.Attended := by
  induction h with
  | opened h =>
    obtain ⟨-, s, hs, -, rfl⟩ := open_eq_ok.1 h
    -- a transfer has not begun yet
    obtain ⟨configuration, descriptors, endpoints, -, -, -, rfl⟩ := Session.ofDescription_eq_ok.1 hs
    exact nofun
  | step h hs hclear ih =>
    obtain ⟨-, s, -, -, hd⟩ := h.reached.inService
    exact hd.attended_step hs hclear ih

end Device

/-! ### Hosts that keep to the endpoints that are switched on -/

/-- The endpoint of this control register is switched on. -/
def Session.Enabled (endpoints : List Endpoint) (k : Nat) : Prop :=
  ∃ e ∈ endpoints, e.endpointControl = some k

/-- An OUT packet is completed only of endpoint 0 and of endpoints that are switched on. -/
def HostStep.OnEnabled (endpoints : List Endpoint) : HostStep → Prop
  | complete address _ _ =>
    Direction.ofByte address = .output →
      ∀ k, Dpram.endpointControlIndex address .output = some k → Session.Enabled endpoints k
  | setup _ | busReset | poke _ _ _ | peek _ _ | updateInterrupts => True

/-- The same for a step of a device. -/
def DeviceStep.OnEnabled (endpoints : List Endpoint) : DeviceStep → Prop
  | host step => step.OnEnabled endpoints
  | «open» _ | close | submit _ _ _ | interrupt | service => True

namespace Controller

/-- The buffer of an endpoint control register is one of the packet buffers. -/
def Sited (c : Controller) (k : Nat) : Prop :=
  Dpram.ep0Buffer ≤ EndpointControl.bufferOffsetOf (c.endpointControl k)

theorem Sited.of_bytes {c c' : Controller} {k : Nat} (h : c.Sited k)
    (hk : k < Dpram.endpointControls)
    (hbytes : ∀ i, 8 ≤ i → i < Dpram.bufferControlOffset 0 → c'.dpram.byte i = c.dpram.byte i) :
    c'.Sited k := by
  rwa [Sited, endpointControl_congr hbytes hk]

theorem le_packetOffset {c : Controller} {endpoints : List Endpoint}
    (hsited : ∀ k, Session.Enabled endpoints k → c.Sited k) {address : UInt8}
    (henabled : ∀ k, Dpram.endpointControlIndex address .output = some k →
      Session.Enabled endpoints k) : Dpram.ep0Buffer ≤ c.packetOffset address .output := by
  unfold packetOffset
  cases hindex : Dpram.endpointControlIndex address .output with
  | none => exact Nat.le_refl _
  | some k => exact hsited k (henabled k hindex)

end Controller

section

variable {σ : Type} [Board σ]

end

theorem HostStep.byte_run {c : Controller} {endpoints : List Endpoint} {step : HostStep}
    (hlawful : step.Lawful) (hon : step.OnEnabled endpoints)
    (hsited : ∀ k, Session.Enabled endpoints k → c.Sited k) {i : Nat} (hi : 8 ≤ i)
    (hi' : i < Dpram.bufferControlOffset 0) : (step.run c).2.dpram.byte i = c.dpram.byte i := by
  cases step with
  | setup packet => exact c.byte_deliverSetup packet hi
  | busReset => rw [HostStep.run, c.dpram_deliverReset]
  | poke => cases hlawful
  | peek => rfl
  | updateInterrupts => rw [HostStep.run, c.dpram_updateInterrupts]
  | complete address data force =>
    show (c.complete address data force).2.dpram.byte i = c.dpram.byte i
    rcases c.complete_cases address data force with hsame | ⟨j, hj, w, hback | ⟨hout, hback⟩⟩
    · rw [hsame]
    · rw [hback, c.byte_giveBack hj w (.inl hi')]
    · have hoff := Controller.le_packetOffset hsited (hon hout)
      rw [hback, Controller.byte_giveBack _ hj w (.inl hi'), Memory.byte_writeBytes, if_neg]
      simp only [Dpram.ep0Buffer, Dpram.bufferControlOffset] at hoff hi'
      omega

theorem DeviceStep.OnEnabled.clear {c : Controller} {endpoints : List Endpoint} {step : DeviceStep}
    (hon : step.OnEnabled endpoints) (hsited : ∀ k, Session.Enabled endpoints k → c.Sited k) :
    step.ClearOfEp0 c := by
  cases step with
  | «open» | close | submit | interrupt | service => trivial
  | host step =>
    cases step with
    | setup | busReset | poke | peek | updateInterrupts => trivial
    | complete address data force =>
      intro hdirection
      exact .inr (Nat.le_trans (show 0x88 ≤ 0x100 by decide)
        (Controller.le_packetOffset hsited (hon hdirection)))

namespace Device

variable {σ : Type} [Board σ] {d : Device σ} {s : Session} {description : DeviceDescription}

theorem Active.byte_handleAll (hd : d.Active s) (events : List Event) {i : Nat}
    (hi : i < Dpram.bufferControlOffset 0) :
    (d.handleAll events).1.hw.dpram.byte i = d.hw.dpram.byte i := by
  obtain ⟨_, -, hkept⟩ := kept_handleAll hd.session hd.sound.arranged events
  rw [hw_handleAll, byte_replay_low hkept.routine hi]

theorem InService.byte_step (hd : d.InService s) {endpoints : List Endpoint} {step : DeviceStep}
    (hlawful : step.Lawful) (hon : step.OnEnabled endpoints)
    (hsited : ∀ k, Session.Enabled endpoints k → d.hw.toController.Sited k) {i : Nat} (hi : 8 ≤ i)
    (hi' : i < Dpram.bufferControlOffset 0) :
    (d.step step).2.1.hw.dpram.byte i = d.hw.dpram.byte i := by
  cases step with
  | «open» | close | interrupt => cases hlawful
  | submit interface address data =>
    have hkept := Session.kept_submit hd.sound.arranged interface address data
    simp only [Device.step, submit_eq hd.session]
    exact byte_replay_low hkept.routine hi' d.hw
  | service =>
    rw [step_service, toController_mapController, Controller.dpram_retire]
    exact hd.active.byte_handleAll d.pending hi'
  | host step =>
    rw [step_host]
    exact HostStep.byte_run hlawful hon hsited hi hi'

theorem Undisturbed.run (h : Undisturbed description d) {endpoints : List Endpoint}
    (hs : Session.Arranged endpoints)
    (hsited : ∀ k, Session.Enabled endpoints k → d.hw.toController.Sited k)
    {steps : List DeviceStep} (hsteps : ∀ step ∈ steps, step.Lawful ∧ step.OnEnabled endpoints) :
    Undisturbed description (d.run steps).1 := by
  induction steps generalizing d with
  | nil => exact h
  | cons step steps ih =>
    rw [List.forall_mem_cons] at hsteps
    obtain ⟨⟨hlawful, hon⟩, hsteps⟩ := hsteps
    obtain ⟨-, s, -, -, hd⟩ := h.reached.inService
    rw [fst_run_cons]
    refine ih (h.step hlawful (hon.clear hsited)) ?_ hsteps
    rintro k ⟨e, he, hindex⟩
    exact (hsited k ⟨e, he, hindex⟩).of_bytes (hs.endpointControl_lt he hindex)
      fun i hi hi' => hd.byte_step hlawful hon hsited hi hi'

/-- The echo device receives a packet while a descriptor is asked for; the descriptor is fetched. -/
def described : List DeviceStep :=
  [.submit Echo.interface Echo.outAddress Echo.room, .host (.setup ⟨0x80, 6, 0x0100, 0, 18⟩),
    .host (.complete Echo.outAddress [1, 2, 3] false), .service,
    .host (.complete Ep0.inAddress [] false), .service]

/-- An OUT endpoint that has no endpoint control register. -/
def stray : EndpointDescription :=
  { EndpointDescription.standard .output 1 .bulk 64 0 with endpointControl := none }

end Device

end UsbGadget
