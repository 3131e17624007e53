import UsbGadget.Proofs.Waiting

/-!
# What a device has handled

The history of a device, as far as the control machine and the address register go, is the list of
the events that it has handled, each with the controller as it was then (`Device.occasions`).

* `Control.take` is what an event does to the control machine and `Reply.addrEndp` what becomes of
  the address register; `Session.take_react` shows that nothing else touches the two, whatever the
  handlers do in between;
* `Lasts` says that a property of the history, the control machine and the register goes on from
  event to event, and `Device.Bears.run` that it then holds all along a run.
-/

namespace UsbGadget

/-! ### Histories -/

/-- An event that was handled, and the controller as it was then. -/
structure Occasion where
  /-- The event. -/
  event : Event
  /-- The controller when the event's turn had come. -/
  controller : Controller

namespace Occasion

/-- The SETUP packet that lay in the memory. -/
def packet (o : Occasion) : SetupPacket := .inMemory o.controller.dpram

/-- What was handled since the last event of a kind, the newest first. -/
def since (kind : Event → Bool) (history : List Occasion) : List Occasion :=
  history.reverse.takeWhile fun o => !kind o.event

theorem since_concat (kind : Event → Bool) (history : List Occasion) (o : Occasion) :
    since kind (history ++ [o]) = if kind o.event then [] else o :: since kind history := by
  rw [since, List.reverse_concat, List.takeWhile_cons]
  cases kind o.event <;> rfl

/-- What was handled since then stays so while nothing of the kind is handled. -/
theorem since_append {kind : Event → Bool} {history later : List Occasion}
    (hlater : ∀ o ∈ later, kind o.event = false) :
    since kind (history ++ later) = later.reverse ++ since kind history := by
  rw [since, List.reverse_append, List.takeWhile_append_of_pos, since]
  intro o ho
  rw [hlater o (List.mem_reverse.1 ho)]
  rfl

end Occasion

namespace Device

variable {σ : Type} [Board σ]

/-- Events in a row, each with the controller as it is when the event's turn comes. -/
def occasionsOf (d : Device σ) : List Event → List Occasion
  | [] => []
  | event :: events => ⟨event, d.hw.toController⟩ :: (d.handle event).1.occasionsOf events

/-- What a device handles in a step. -/
def occasionsIn (d : Device σ) : DeviceStep → List Occasion
  | .interrupt | .service => d.occasionsOf d.pending
  | .open _ | .close | .submit _ _ _ | .host _ => []

/-- What a device handles in a row of steps. -/
def occasions (d : Device σ) : List DeviceStep → List Occasion
  | [] => []
  | step :: steps => d.occasionsIn step ++ (d.step step).2.1.occasions steps

theorem fst_run_append (d : Device σ) (steps steps' : List DeviceStep) :
    (d.run (steps ++ steps')).1 = ((d.run steps).1.run steps').1 := by
  induction steps generalizing d with
  | nil => rfl
  | cons step steps ih => rw [List.cons_append, fst_run_cons, ih, fst_run_cons]

theorem occasionsOf_append (d : Device σ) (events events' : List Event) :
    d.occasionsOf (events ++ events') =
      d.occasionsOf events ++ (d.handleAll events).1.occasionsOf events' := by
  induction events generalizing d with
  | nil => rfl
  | cons event events ih => rw [List.cons_append, occasionsOf, ih, occasionsOf, List.cons_append,
      handleAll_cons]

end Device

/-! ### The control machine and the address register -/

/-- What the control machine makes of an event, when `p` is the SETUP packet in memory. The buffers
of callers are none of its business. -/
def Control.take (c : Control) (set : DescriptorSet) (p : SetupPacket) : Event → Control × Reply
  | .setup => c.setup set packetLimit p
  | .buffer 0 => c.sent
  | .buffer 1 => c.received
  | .buffer _ => (c, .silent)
  | .busReset => c.busReset

/-- The word in the address register after a reply. -/
def Reply.addrEndp (w : Word) : Reply → Word
  | moveTo address => UInt32.ofNat address.toNat
  | silent | send _ | receive => w

namespace Session

variable {σ : Type} [Board σ] {s : Session}

theorem regs_arm (s : Session) (position : Nat) (data : List UInt8) (h : Hardware σ) :
    (replay (s.arm position data).2 h).regs = h.regs := by
  unfold arm
  cases s.endpoints[position]? with
  | none => rfl
  | some e => exact Effect.regs_mapDpram h (e.arm (e.clip data))

theorem regs_submit (s : Session) (interface address : UInt8) (data : List UInt8)
    (h : Hardware σ) : (replay (s.submit interface address data).2.1 h).regs = h.regs := by
  unfold submit
  cases s.position? interface address with
  | none => rfl
  | some position => exact s.regs_arm position data h

/-- A handler has no way to the registers. -/
theorem regs_run (s : Session) (p : Program) (h : Hardware σ) :
    (replay (s.run p).2.1 h).regs = h.regs := by
  induction p generalizing s h with
  | done => rfl
  | askConfigured next ih => exact ih _ s h
  | submit interface address data next ih =>
    simp only [run, replay_append]
    exact (ih _ _ _).trans (s.regs_submit interface address data h)

theorem addrEndp_proceed (s : Session) (step : Control × Reply) (h : Hardware σ) :
    (replay (s.proceed step).2 h).read .addrEndp = step.2.addrEndp (h.read .addrEndp) := by
  obtain ⟨control, reply⟩ := step
  cases reply with
  | silent => rfl
  | send data => exact Controller.read_of_regs (regs_arm _ ep0In data h) _
  | receive => exact Controller.read_of_regs (regs_arm _ ep0Out [] h) _
  | moveTo address => exact Effect.read_apply_write h .addrEndp _

theorem regs_buffer (hs : Arranged s.endpoints) (m : Memory Dpram.size) {index : Nat}
    (hindex : 2 ≤ index) (hlt : index < Dpram.bufferControls) (h : Hardware σ) :
    (replay (s.react m (.buffer index)).2 h).regs = h.regs := by
  simp only [react]
  cases hfind : s.endpoints.find? (·.address == Event.bufferAddress index) with
  | none => rfl
  | some e =>
    obtain ⟨-, -, handler, howner⟩ := owner_of_find hs hindex hlt hfind
    cases handler with
    | none => simp only [completed, howner, replay_cons, replay_nil, Effect.apply]
    | some handler =>
      simp only [completed, howner, replay_cons, Effect.apply]
      exact s.regs_run _ h

/-- An event does to the control machine and to the address register what `Control.take` says. -/
theorem take_react (hs : Arranged s.endpoints) (m : Memory Dpram.size) {event : Event}
    (hreport : event.Reportable) (h : Hardware σ) :
    (s.react m event).1.control =
        (s.control.take s.descriptors (SetupPacket.inMemory m) event).1 ∧
      (replay (s.react m event).2 h).read .addrEndp =
        (s.control.take s.descriptors (SetupPacket.inMemory m) event).2.addrEndp
          (h.read .addrEndp) := by
  cases event with
  | setup =>
    refine ⟨control_setup hs _, ?_⟩
    simp only [react, setup_eq hs, replay_cons, Effect.apply]
    exact addrEndp_proceed _ _ h
  | busReset => exact ⟨control_proceed s _, addrEndp_proceed s _ h⟩
  | buffer index =>
    obtain _ | _ | index := index
    · rw [react_sent hs]
      exact ⟨control_proceed s _, addrEndp_proceed s _ h⟩
    · rw [react_received hs]
      exact ⟨rfl, rfl⟩
    · have hindex : 2 ≤ index + 2 := Nat.le_add_left 2 index
      exact ⟨control_buffer hs m hindex hreport,
        Controller.read_of_regs (regs_buffer hs m hindex hreport h) _⟩

end Session

/-- A step on the other side of the controller that has no way to the address register. -/
def HostStep.SparesAddress : HostStep → Prop
  | poke .regs offset _ => 4 ≤ offset
  | poke .dpram _ _ | setup _ | busReset | complete _ _ _ | peek _ _ | updateInterrupts => True

/-- A step in which the device stays open, and only the engine has a way to the address register. -/
def DeviceStep.SparesAddress : DeviceStep → Prop
  | close => False
  | host step => step.SparesAddress
  | «open» _ | submit _ _ _ | interrupt | service => True

theorem HostStep.addrEndp_run {step : HostStep} (h : step.SparesAddress) (c : Controller) :
    (step.run c).2.read .addrEndp = c.read .addrEndp := by
  cases step with
  | setup packet => exact c.read_deliverSetup packet (by decide) (by decide)
  | busReset => exact c.read_deliverReset (by decide) (by decide)
  | complete address data force => exact c.read_complete address data force (by decide) (by decide)
  | peek => rfl
  | updateInterrupts => exact c.read_updateInterrupts (by decide)
  | poke space offset w =>
    cases space with
    | dpram => rfl
    | regs =>
      have hoffset : 4 ≤ offset := h
      exact Memory.word_writeBytes_of_disjoint _ (.inl hoffset)

theorem DeviceStep.SparesAddress.ne_close {step : DeviceStep} (h : step.SparesAddress) :
    step ≠ .close := by
  rintro rfl
  exact h

/-! ### Properties that last -/

/-- A property of the history, the control machine and the address register goes on from event to
event. -/
def Lasts (P : List Occasion → Control → Word → Prop) : Prop :=
  ∀ history c set (o : Occasion), o.event.Reportable → P history c (o.controller.read .addrEndp) →
    P (history ++ [o]) (c.take set o.packet o.event).1
      ((c.take set o.packet o.event).2.addrEndp (o.controller.read .addrEndp))

namespace Device

variable {σ : Type} [Board σ] {d : Device σ} {P : List Occasion → Control → Word → Prop}
  {history : List Occasion}

omit [Board σ] in
/-- The device is open, and its control machine and its address register have a property. -/
def Bears (d : Device σ) (P : Control → Word → Prop) : Prop :=
  ∃ s, d.session = some s ∧ Session.Arranged s.endpoints ∧ P s.control (d.hw.read .addrEndp)

omit [Board σ] in
theorem Bears.mono {Q R : Control → Word → Prop} (hd : d.Bears Q)
    (h : ∀ c w, Q c w → R c w) : d.Bears R := by
  obtain ⟨s, hsession, hs, hQ⟩ := hd
  exact ⟨s, hsession, hs, h _ _ hQ⟩

omit [Board σ] in
theorem Bears.exists_control {Q : Control → Word → Prop} (hd : d.Bears Q) :
    ∃ c, Q c (d.hw.read .addrEndp) ∧ d.session.map Session.control = some c ∧ d.isOpen = true ∧
      d.address = c.address ∧ d.isConfigured = c.configured ∧ d.phase = c.phase := by
  obtain ⟨s, hsession, -, hQ⟩ := hd
  refine ⟨s.control, hQ, ?_⟩
  simp only [isOpen, address, isConfigured, phase, hsession, Option.map_some, Option.getD_some,
    Option.isSome_some, and_self]

omit [Board σ] in
theorem Bears.mapController {Q R : Control → Word → Prop} {f : Controller → Controller}
    (hd : d.Bears Q) (hf : ∀ c, Q c (d.hw.read .addrEndp) →
      R c ((f d.hw.toController).read .addrEndp)) : (d.mapController f).Bears R := by
  obtain ⟨s, hsession, hs, h⟩ := hd
  exact ⟨s, hsession, hs, hf _ h⟩

theorem Bears.handle (hd : d.Bears (P history)) (hP : Lasts P) {event : Event}
    (hreport : event.Reportable) :
    (d.handle event).1.Bears (P (history ++ [⟨event, d.hw.toController⟩])) := by
  obtain ⟨s, hsession, hs, h⟩ := hd
  have hkept := Session.kept_react hs d.hw.dpram event
  -- the acknowledgement comes first, and is no write to the address register
  have hack : (event.acknowledge.apply d.hw).read .addrEndp = d.hw.read .addrEndp := by
    cases event <;> exact Controller.read_write_of_ne _ _ (by decide)
  obtain ⟨hcontrol, hregister⟩ :=
    Session.take_react hs d.hw.dpram hreport (event.acknowledge.apply d.hw)
  rw [handle_eq hsession]
  refine ⟨_, rfl, hs.of_map_fixed hkept.same.endpoints, ?_⟩
  rw [hw_after, replay_cons, hregister, hcontrol, hack]
  exact hP history s.control s.descriptors ⟨event, d.hw.toController⟩ hreport h

theorem Bears.handleAll (hd : d.Bears (P history)) (hP : Lasts P) {events : List Event}
    (hreport : ∀ event ∈ events, event.Reportable) :
    (d.handleAll events).1.Bears (P (history ++ d.occasionsOf events)) := by
  induction events generalizing d history with
  | nil =>
    rw [occasionsOf, List.append_nil]
    exact hd
  | cons event events ih =>
    rw [List.forall_mem_cons] at hreport
    rw [handleAll_cons, occasionsOf, List.append_cons]
    exact ih (hd.handle hP hreport.1) hreport.2

theorem Bears.step (hd : d.Bears (P history)) (hP : Lasts P) {step : DeviceStep}
    (hstep : step ≠ .close)
    (hhost : ∀ s, step = .host s → ∀ h c (k : Controller), P h c (k.read .addrEndp) →
      P h c ((s.run k).2.read .addrEndp)) :
    (d.step step).2.1.Bears (P (history ++ d.occasionsIn step)) := by
  cases step with
  | close => exact absurd rfl hstep
  | «open» description =>
    rw [occasionsIn, List.append_nil]
    -- a device that is open already is not opened again
    have hopen : d.open description = (.error .alreadyOpen, d, []) := by
      obtain ⟨s, hsession, -⟩ := hd
      simp only [«open», hsession]
    simp only [Device.step, hopen]
    exact hd
  | submit interface address data =>
    obtain ⟨s, hsession, hs, h⟩ := hd
    have hkept := Session.kept_submit hs interface address data
    rw [occasionsIn, List.append_nil]
    simp only [Device.step, submit_eq hsession]
    refine ⟨_, rfl, hs.of_map_fixed hkept.same.endpoints, ?_⟩
    rw [Session.control_submit, hw_after, Controller.read_of_regs (s.regs_submit _ _ _ d.hw)]
    exact h
  | interrupt => exact hd.handleAll hP fun _ => reportable_of_mem_pending
  | service =>
    rw [step_service, occasionsIn]
    refine (hd.handleAll hP fun _ => reportable_of_mem_pending).mapController fun c h => ?_
    rwa [Controller.read_retire _ (by decide) (by decide) (by decide)]
  | host step =>
    rw [occasionsIn, List.append_nil, step_host]
    exact hd.mapController fun c h => hhost step rfl history c d.hw.toController h

/-- A property that lasts holds all along a run, provided that it lasts through what the host does.
-/
theorem Bears.run (hd : d.Bears (P history)) (hP : Lasts P) {steps : List DeviceStep}
    (hsteps : ∀ step ∈ steps, step ≠ .close)
    (hhost : ∀ s, .host s ∈ steps → ∀ h c (k : Controller), P h c (k.read .addrEndp) →
      P h c ((s.run k).2.read .addrEndp)) :
    (d.run steps).1.Bears (P (history ++ d.occasions steps)) := by
  induction steps generalizing d history with
  | nil =>
    rw [occasions, List.append_nil]
    exact hd
  | cons step steps ih =>
    rw [List.forall_mem_cons] at hsteps
    have hd' := hd.step hP hsteps.1 fun s hs => hhost s (hs ▸ List.mem_cons_self)
    rw [fst_run_cons, occasions, ← List.append_assoc]
    exact ih hd' hsteps.2 fun s hs => hhost s (List.mem_cons_of_mem _ hs)

theorem Bears.run_of_spares (hd : d.Bears (P history)) (hP : Lasts P) {steps : List DeviceStep}
    (hsteps : ∀ step ∈ steps, step.SparesAddress) :
    (d.run steps).1.Bears (P (history ++ d.occasions steps)) := by
  refine hd.run hP (fun step hstep => (hsteps step hstep).ne_close) ?_
  intro step hstep h c k hk
  rwa [HostStep.addrEndp_run (hsteps _ hstep)]

/-- A property that lasts holds in the middle of an interrupt as well. -/
theorem Bears.during (hd : d.Bears (P history)) (hP : Lasts P) {events : List Event}
    (hevents : events <+: d.pending) :
    (d.handleAll events).1.Bears (P (history ++ d.occasionsOf events)) :=
  hd.handleAll hP fun _ hevent => reportable_of_mem_pending (hevents.subset hevent)

theorem bears_of_open {closed : Device σ} {description : DeviceDescription} {log : List Effect}
    (hopen : closed.open description = (.ok (), d, log)) (h : P [] {} (d.hw.read .addrEndp)) :
    d.Bears (P []) := by
  obtain ⟨-, s, hs, -, rfl⟩ := open_eq_ok.1 hopen
  have hcontrol : s.control = {} := by
    obtain ⟨c, set, endpoints, -, -, -, rfl⟩ := Session.ofDescription_eq_ok.1 hs
    rfl
  exact ⟨s, rfl, (Session.sound_of_ofDescription hs).arranged, hcontrol ▸ h⟩

end Device

end UsbGadget
