import UsbGadget.Proofs.Accepted
import UsbGadget.Proofs.Effects
import UsbGadget.Proofs.Moves
import UsbGadget.Proofs.Registers
import UsbGadget.Run

/-!
# What stays while a device is open

Whatever an open device does changes its session only in the state of the control machine and in
the identifiers of next packets (`Session.Same`), and of the registers only the address and the two
status registers (`Effect.Routine`). A device is `Device.InService` while its session is sound and
its interrupts are in step.

* `Session.Moves.kept` is the step lemma, for whatever a session does;
* `Device.Reached` are the states of a device that was opened as described and then driven by its
  owner, its interrupt and a host in any order;
* `Device.Reached.inService` is the main statement.
-/

namespace UsbGadget

/-- An endpoint without the identifier of its next packet. -/
def Endpoint.fixed (e : Endpoint) : Endpoint := { e with nextPid := .data0 }

namespace Endpoint

theorem eq_of_fixed {e e' : Endpoint} (h : e'.fixed = e.fixed) :
    e' = { e with nextPid := e'.nextPid } := by
  cases e
  cases e'
  simp_all [fixed]

theorem eq_ofControl {e : Endpoint} {d : Direction} {pid : Pid}
    (h : e.fixed = (ofControl d pid).fixed) : e = ofControl d e.nextPid := eq_of_fixed h

theorem OfCaller.of_fixed {e e' : Endpoint} (he : e.OfCaller) (h : e'.fixed = e.fixed) :
    e'.OfCaller := by
  rw [eq_of_fixed h]
  exact ⟨⟨he.bufferControl_lt, he.le_bufferOffset, he.bufferOffset_add_le, he.aligned,
    he.maxPacketSize_le⟩, he.owner, he.interface, he.endpointControl_lt⟩

end Endpoint

theorem map_modify {α β : Type} {f : α → β} {g : α → α} {l : List α} {i : Nat}
    (h : ∀ a, f (g a) = f a) : (l.modify i g).map f = l.map f := by
  induction l generalizing i with
  | nil => cases i <;> rfl
  | cons a l ih => cases i <;> simp [h, ih]

theorem map_set {α β : Type} {f : α → β} {l : List α} {i : Nat} {a b : α} (hb : l[i]? = some b)
    (h : f a = f b) : (l.set i a).map f = l.map f := by
  rw [List.map_set, h]
  apply List.ext_getElem?
  intro j
  rw [List.getElem?_set]
  split_ifs with hij hlen
  · rw [← hij, List.getElem?_map, hb]
    rfl
  · rw [List.getElem?_eq_none (by omega)]
  · rfl

theorem Effect.Quiet.routine {e : Effect} (h : e.Quiet) : e.Routine := by
  cases e with
  | write r w => exact .inl h
  | heed | collect | call => trivial
  | arm | reset | clear | line | enable => cases h

/-! ### Sessions -/

namespace Session

/-- The same session but for the control machine and the identifiers of next packets. -/
structure Same (s s' : Session) : Prop where
  /-- The configuration. -/
  configuration : s'.configuration = s.configuration
  /-- The descriptors. -/
  descriptors : s'.descriptors = s.descriptors
  /-- The endpoints. -/
  endpoints : s'.endpoints.map Endpoint.fixed = s.endpoints.map Endpoint.fixed

namespace Same

theorem refl (s : Session) : s.Same s := ⟨rfl, rfl, rfl⟩

theorem trans {s s' s'' : Session} (h : s.Same s') (h' : s'.Same s'') : s.Same s'' :=
  ⟨h'.1.trans h.1, h'.2.trans h.2, h'.3.trans h.3⟩

theorem mk_control (s : Session) (c : Control) : s.Same { s with control := c } := ⟨rfl, rfl, rfl⟩

theorem getElem? {s s' : Session} (h : s.Same s') {i : Nat} {e' : Endpoint}
    (he' : s'.endpoints[i]? = some e') :
    ∃ e, s.endpoints[i]? = some e ∧ e' = { e with nextPid := e'.nextPid } := by
  have hmap := congrArg (·[i]?) h.endpoints
  simp only [List.getElem?_map, he', Option.map_some] at hmap
  obtain ⟨e, he, hfixed⟩ := Option.map_eq_some_iff.1 hmap.symm
  exact ⟨e, he, Endpoint.eq_of_fixed hfixed.symm⟩

end Same

theorem Arranged.of_map_fixed {endpoints endpoints' : List Endpoint} (h : Arranged endpoints)
    (hmap : endpoints'.map Endpoint.fixed = endpoints.map Endpoint.fixed) :
    Arranged endpoints' := by
  obtain ⟨pidIn, pidOut, rest, rfl, hrest⟩ := h
  -- a list that maps to the same has two endpoints in front as well
  obtain _ | ⟨e₀, _ | ⟨e₁, rest'⟩⟩ := endpoints' <;> simp only [List.map_nil, List.map_cons,
    List.cons.injEq, reduceCtorEq, and_false] at hmap
  obtain ⟨h₀, h₁, hmap⟩ := hmap
  rw [Endpoint.eq_ofControl h₀, Endpoint.eq_ofControl h₁]
  refine ⟨_, _, rest', rfl, ?_⟩
  intro e' he'
  obtain ⟨e, he, hfixed⟩ := List.mem_map.1 (hmap ▸ List.mem_map_of_mem he')
  exact (hrest e he).of_fixed hfixed.symm

theorem Sound.of_same {s s' : Session} (hs : s.Sound) (h : s.Same s') : s'.Sound :=
  ⟨hs.arranged.of_map_fixed h.endpoints, h.descriptors ▸ hs.fits⟩

theorem Arranged.placed {endpoints : List Endpoint} (h : Arranged endpoints) {e : Endpoint}
    (he : e ∈ endpoints) : e.Placed := by
  obtain ⟨pidIn, pidOut, rest, rfl, hrest⟩ := h
  simp only [List.mem_cons] at he
  rcases he with rfl | rfl | he
  · exact Endpoint.placed_ofControl .input pidIn
  · exact Endpoint.placed_ofControl .output pidOut
  · exact (hrest e he).toPlaced

theorem Arranged.endpointControl_lt {endpoints : List Endpoint} (h : Arranged endpoints)
    {e : Endpoint} (he : e ∈ endpoints) {i : Nat} (hi : e.endpointControl = some i) :
    i < Dpram.endpointControls := by
  obtain ⟨pidIn, pidOut, rest, rfl, hrest⟩ := h
  simp only [List.mem_cons] at he
  -- endpoint 0 has no endpoint control register
  rcases he with rfl | rfl | he
  · cases hi
  · cases hi
  · exact (hrest e he).endpointControl_lt i hi

/-- A step of a session that kept its setup and had routine effects only. -/
structure Kept (s : Session) (result : Session × List Effect) : Prop where
  /-- The setup. -/
  same : s.Same result.1
  /-- The effects. -/
  routine : ∀ e ∈ result.2, e.Routine

namespace Kept

theorem nil {s s' : Session} (h : s.Same s') : s.Kept (s', []) := ⟨h, List.forall_mem_nil _⟩

theorem cons {s s' : Session} {log : List Effect} {e : Effect} (h : s.Kept (s', log))
    (he : e.Routine) : s.Kept (s', e :: log) :=
  ⟨h.same, List.forall_mem_cons.2 ⟨he, h.routine⟩⟩

theorem acknowledged {s : Session} {result : Session × List Effect} (event : Event)
    (h : s.Kept result) : s.Kept (result.1, event.acknowledge :: result.2) :=
  h.cons event.routine_acknowledge

theorem of_same {s s' : Session} {result : Session × List Effect} (h : s.Same s')
    (h' : s'.Kept result) : s.Kept result := ⟨h.trans h'.same, h'.routine⟩

end Kept

theorem same_setPid (s : Session) (position : Nat) (pid : Pid) :
    s.Same (s.setPid position pid) where
  configuration := rfl
  descriptors := rfl
  endpoints := by
    apply map_modify
    exact fun _ => rfl

theorem same_advance {s : Session} {position : Nat} {e : Endpoint}
    (he : s.endpoints[position]? = some e) :
    s.Same { s with endpoints := s.endpoints.set position e.advance } := ⟨rfl, rfl, map_set he rfl⟩

/-- Every move leaves the setup alone. -/
theorem Moves.kept {s : Session} {result : Session × List Effect} (h : s.Moves result)
    (hs : Arranged s.endpoints) : s.Kept result := by
  induction h with
  | still s => exact .nil (.refl s)
  | control c _ ih => exact .of_same (.mk_control _ c) (ih hs)
  | @restart s _ position _ pid _ ih =>
    have hsame := s.same_setPid position pid
    exact .of_same hsame (ih (hs.of_map_fixed hsame.endpoints))
  | quiet heffect _ ih => exact (ih hs).cons heffect.routine
  | arm he _ data _ ih =>
    have hsame := same_advance he
    have hplaced := hs.placed (List.mem_of_getElem? he)
    exact (Kept.of_same hsame (ih (hs.of_map_fixed hsame.endpoints))).cons
      ⟨hplaced, hplaced.length_clip_le data⟩

/-- Of the registers a session writes the address only. -/
theorem Moves.read_replay {s : Session} {result : Session × List Effect} (h : s.Moves result)
    {σ : Type} [Board σ] {r : Register} (hr : r ≠ .addrEndp) (hw : Hardware σ) :
    (replay result.2 hw).read r = hw.read r := by
  induction h generalizing hw with
  | still => rfl
  | control c _ ih => exact ih hw
  | restart hposition pid _ ih => exact ih hw
  | arm he hposition data _ ih =>
    rw [replay_cons, ih]
    exact Controller.read_of_regs (Effect.regs_mapDpram hw _) r
  | @quiet s s' log effect heffect _ ih =>
    rw [replay_cons, ih]
    cases effect with
    | write r' w =>
      obtain rfl : r' = .addrEndp := heffect
      exact Effect.read_apply_write_of_ne hw w hr
    | heed | collect | call => rfl
    | reset | clear | line | enable | arm => cases heffect

theorem kept_submit {s : Session} (hs : Arranged s.endpoints) (interface address : UInt8)
    (data : List UInt8) :
    s.Kept ((s.submit interface address data).1, (s.submit interface address data).2.1) :=
  (s.moves_submit interface address data).kept hs

theorem kept_react {s : Session} (hs : Arranged s.endpoints) (dpram : Memory Dpram.size)
    (event : Event) : s.Kept (s.react dpram event) := (s.moves_react dpram event).kept hs

theorem transfer_submit {s : Session} (hs : Arranged s.endpoints) (interface address : UInt8)
    (data : List UInt8) : ∀ e ∈ (s.submit interface address data).2.1, e.Transfer := by
  unfold submit
  cases s.position? interface address with
  | none => exact List.forall_mem_nil _
  | some position =>
    simp only [arm]
    cases he : s.endpoints[position]? with
    | none => exact List.forall_mem_nil _
    | some e =>
      have hplaced := hs.placed (List.mem_of_getElem? he)
      simpa [Effect.Transfer] using ⟨hplaced, hplaced.length_clip_le data⟩

end Session

/-! ### Devices -/

/-- The status register that the acknowledgement of an event writes. -/
def Event.status : Event → Register
  | setup | busReset => .sieStatus
  | buffer _ => .buffStatus

namespace Device

variable {σ : Type} [Board σ]

@[simp] theorem session_after (d : Device σ) (log : List Effect) (session : Option Session) :
    (d.after log session).session = session := rfl

@[simp] theorem hw_after (d : Device σ) (log : List Effect) (session : Option Session) :
    (d.after log session).hw = replay log d.hw := rfl

/-- A device that is open with a sound session, and wants the engine's interrupts. -/
structure Active (d : Device σ) (s : Session) : Prop where
  /-- The session. -/
  session : d.session = some s
  /-- It is sound. -/
  sound : s.Sound
  /-- The interrupts that are wanted. -/
  inte : d.hw.read .inte = Controller.wanted

/-- An active device whose interrupts are in step: what holds between two interrupts. -/
structure InService (d : Device σ) (s : Session) : Prop where
  /-- The session. -/
  session : d.session = some s
  /-- It is sound. -/
  sound : s.Sound
  /-- The interrupts are in step. -/
  ready : d.hw.toController.Ready

omit [Board σ] in
theorem InService.active {d : Device σ} {s : Session} (h : d.InService s) : d.Active s :=
  ⟨h.session, h.sound, h.ready.inte⟩

theorem handle_eq {d : Device σ} {s : Session} (h : d.session = some s) (event : Event) :
    d.handle event =
      (d.after (event.acknowledge :: (s.react d.hw.dpram event).2)
        (some (s.react d.hw.dpram event).1),
        event.acknowledge :: (s.react d.hw.dpram event).2) := by
  simp only [handle, h]

theorem hw_handleAll (d : Device σ) (events : List Event) :
    (d.handleAll events).1.hw = replay (d.handleAll events).2 d.hw := by
  induction events generalizing d with
  | nil => rfl
  | cons event events ih =>
    have hfirst : (d.handle event).1.hw = replay (d.handle event).2 d.hw := by
      cases hs : d.session with
      | none => simp only [handle, hs, replay_nil]
      | some s => rw [handle_eq hs, hw_after]
    rw [handleAll_cons, ih, hfirst, replay_append]

theorem read_handle (d : Device σ) {event : Event} {r : Register} (ha : r ≠ .addrEndp)
    (hr : r ≠ event.status) : (d.handle event).1.hw.read r = d.hw.read r := by
  cases hs : d.session with
  | none => simp only [handle, hs]
  | some s =>
    rw [handle_eq hs, hw_after, replay_cons, (s.moves_react _ event).read_replay ha]
    cases event <;> exact Effect.read_apply_write_of_ne d.hw _ hr

/-- An interrupt writes the address and the registers of the events that it handles only. -/
theorem read_handleAll (d : Device σ) {events : List Event} {r : Register} (ha : r ≠ .addrEndp)
    (hr : ∀ event ∈ events, r ≠ event.status) :
    (d.handleAll events).1.hw.read r = d.hw.read r := by
  induction events generalizing d with
  | nil => rfl
  | cons event events ih =>
    rw [List.forall_mem_cons] at hr
    rw [handleAll_cons, ih _ hr.2, read_handle d ha hr.1]

theorem submit_eq {d : Device σ} {s : Session} (h : d.session = some s) (i a : UInt8)
    (data : List UInt8) :
    d.submit i a data =
      ((s.submit i a data).2.2, d.after (s.submit i a data).2.1 (some (s.submit i a data).1),
        (s.submit i a data).2.1) := by
  simp only [submit, h]

theorem Active.after {d : Device σ} {s s' : Session} {log : List Effect} (h : d.Active s)
    (hk : s.Kept (s', log)) : (d.after log (some s')).Active s' where
  session := rfl
  sound := h.sound.of_same hk.same
  inte := (read_replay hk.routine (by decide) (by decide) (by decide) d.hw).trans h.inte

/-- Handling an event leaves a device active, with the session that the event leads to. -/
theorem Active.handle {d : Device σ} {s : Session} (h : d.Active s) (event : Event) :
    (d.handle event).1.Active (s.react d.hw.dpram event).1 := by
  rw [handle_eq h.session]
  exact h.after ((Session.kept_react h.sound.arranged d.hw.dpram event).acknowledged event)

/-- Handling events leaves the setup alone, whatever is in the registers. -/
theorem kept_handleAll {d : Device σ} {s : Session} (h : d.session = some s)
    (hs : Session.Arranged s.endpoints) (events : List Event) :
    ∃ s', (d.handleAll events).1.session = some s' ∧ s.Kept (s', (d.handleAll events).2) := by
  induction events generalizing d s with
  | nil => exact ⟨s, h, .nil (.refl s)⟩
  | cons event events ih =>
    have hfirst := (Session.kept_react hs d.hw.dpram event).acknowledged event
    have hhandle := handle_eq h event
    obtain ⟨s', hs', hrest⟩ := ih (d := (d.handle event).1) (by rw [hhandle, session_after])
      (hs.of_map_fixed hfirst.same.endpoints)
    refine ⟨s', hs', hfirst.same.trans hrest.same, ?_⟩
    rw [handleAll_cons, congrArg Prod.snd hhandle]
    exact List.forall_mem_append.2 ⟨hfirst.routine, hrest.routine⟩

theorem Active.handleAll {d : Device σ} {s : Session} (h : d.Active s) (events : List Event) :
    ∃ s', s.Same s' ∧ (d.handleAll events).1.Active s' := by
  obtain ⟨s', hsession, hkept⟩ := kept_handleAll h.session h.sound.arranged events
  refine ⟨s', hkept.same, hsession, h.sound.of_same hkept.same, ?_⟩
  rw [hw_handleAll, read_replay hkept.routine (by decide) (by decide) (by decide)]
  exact h.inte

end Device

/-! ### Lawful steps -/

/-- What a host does: it completes only packets that were handed over, with no more data than a
packet holds, and has no other way into the controller. -/
def HostStep.Lawful : HostStep → Prop
  | complete _ data force => force = false ∧ data.length ≤ Dpram.bufferSize
  | poke _ _ _ => False
  | setup _ | busReset | peek _ _ | updateInterrupts => True

/-- What happens to an open device: its owner submits packets, its interrupt is serviced, and the
host goes on. Status bits go away once they are acknowledged, so the interrupt is always `service`.
-/
def DeviceStep.Lawful : DeviceStep → Prop
  | submit _ _ _ | service => True
  | host step => step.Lawful
  | «open» _ | close | interrupt => False

theorem HostStep.ready_run {c : Controller} (h : c.Ready) {step : HostStep} (hs : step.Lawful) :
    (step.run c).2.Ready := by
  cases step with
  | setup packet => exact h.deliverSetup packet
  | busReset => exact h.deliverReset
  | complete address data force => exact h.complete address data force
  | poke => cases hs
  | peek => exact h
  | updateInterrupts => exact Controller.ready_updateInterrupts h.inte

namespace Device

variable {σ : Type} [Board σ]

omit [Board σ] in
theorem session_mapController (d : Device σ) (f : Controller → Controller) :
    (d.mapController f).session = d.session := rfl

omit [Board σ] in
@[simp] theorem toController_mapController (d : Device σ) (f : Controller → Controller) :
    (d.mapController f).hw.toController = f d.hw.toController := rfl

omit [Board σ] in
/-- The other side of the controller cannot reach the session. -/
theorem inService_mapController {d : Device σ} {s : Session} {f : Controller → Controller}
    (h : d.session = some s) (hs : s.Sound) (hf : (f d.hw.toController).Ready) :
    (d.mapController f).InService s := ⟨h, hs, hf⟩

omit [Board σ] in
theorem Active.retire {d : Device σ} {s : Session} (h : d.Active s) :
    (d.mapController Controller.retire).InService s :=
  inService_mapController h.session h.sound (.retire h.inte)

theorem fst_run_cons (d : Device σ) (step : DeviceStep) (steps : List DeviceStep) :
    (d.run (step :: steps)).1 = ((d.step step).2.1.run steps).1 := rfl

theorem step_service (d : Device σ) :
    (d.step .service).2.1 = (d.handleAll d.pending).1.mapController Controller.retire := rfl

theorem snd_step_service (d : Device σ) :
    (d.step .service).2.2 = (d.handleAll d.pending).2 := by simp only [Device.step, interrupt]

theorem step_host (d : Device σ) (step : HostStep) :
    (d.step (.host step)).2.1 = d.mapController fun _ => (step.run d.hw.toController).2 := rfl

theorem InService.step {d : Device σ} {s : Session} (h : d.InService s) {step : DeviceStep}
    (hs : step.Lawful) : ∃ s', s.Same s' ∧ (d.step step).2.1.InService s' := by
  cases step with
  | «open» | close | interrupt => cases hs
  | submit i a data =>
    have hk := Session.kept_submit h.sound.arranged i a data
    simp only [Device.step, submit_eq h.session]
    exact ⟨_, hk.same, rfl, h.sound.of_same hk.same,
      h.ready.of_regs (regs_replay (Session.transfer_submit h.sound.arranged i a data) d.hw)⟩
  | service =>
    obtain ⟨s', hs', h'⟩ := h.active.handleAll d.pending
    rw [step_service]
    exact ⟨s', hs', h'.retire⟩
  | host step =>
    rw [step_host]
    exact ⟨s, .refl s, inService_mapController h.session h.sound (HostStep.ready_run h.ready hs)⟩

/-- The states of a device that was opened as described, on whatever hardware, and driven by lawful
steps since. Interrupts that the hardware asks for are raised as soon as they are wanted. -/
inductive Reached (description : DeviceDescription) : Device σ → Prop
  | opened {closed d : Device σ} {log : List Effect}
      (h : closed.open description = (.ok (), d, log)) :
      Reached description (d.mapController Controller.updateInterrupts)
  | step {d : Device σ} {step : DeviceStep} (h : Reached description d) (hs : step.Lawful) :
      Reached description (d.step step).2.1

theorem open_eq_ok {closed d : Device σ} {description : DeviceDescription} {log : List Effect} :
    closed.open description = (.ok (), d, log) ↔ closed.session = none ∧
      ∃ s, Session.ofDescription description = .ok s ∧ log = bringUp s.endpoints ∧
        d = closed.after log (some s) := by
  unfold «open»
  cases closed.session with
  | some s => simp
  | none =>
    cases Session.ofDescription description with
    | error e => simp
    | ok s =>
      simp only [Prod.mk.injEq, true_and, Except.ok.injEq, exists_eq_left']
      constructor
      · rintro ⟨rfl, rfl⟩
        exact ⟨rfl, rfl⟩
      · rintro ⟨rfl, rfl⟩
        exact ⟨rfl, rfl⟩

theorem regs_enable (endpoints : List Endpoint) (h : Hardware σ) :
    (replay (endpoints.map .enable) h).regs = h.regs := by
  refine replay_preserves (P := fun h' => h'.regs = h.regs) ?_ rfl
  intro e he h' hh
  obtain ⟨endpoint, -, rfl⟩ := List.mem_map.1 he
  exact (Effect.regs_mapDpram h' endpoint.enable).trans hh

theorem inte_bringUp (endpoints : List Endpoint) (h : Hardware σ) :
    (replay (bringUp endpoints) h).read .inte = Controller.wanted := by
  -- the interrupts are wanted before the endpoints are enabled, and what follows leaves that alone
  have hlast (h : Hardware σ) (w : Word) :
      (replay [.write .sieCtrl w, .line true] h).read .inte = h.read .inte :=
    Controller.read_write_of_ne _ _ (by decide)
  rw [bringUp, replay_append, replay_append, hlast, Controller.read_of_regs (regs_enable _ _)]
  simp only [replay_cons, replay_nil, Effect.read_apply_write]
  rfl

/-- A device that was opened is in service from then on, with the setup of its description. -/
theorem Reached.inService {description : DeviceDescription} {d : Device σ}
    (h : Reached description d) :
    ∃ s₀ s, Session.ofDescription description = .ok s₀ ∧ s₀.Same s ∧ d.InService s := by
  induction h with
  | @opened closed d log h =>
    obtain ⟨-, s, hs, rfl, rfl⟩ := open_eq_ok.1 h
    have hinte := inte_bringUp s.endpoints closed.hw
    have hsound := Session.sound_of_ofDescription hs
    exact ⟨s, s, hs, .refl s, inService_mapController (session_after closed _ _) hsound
      (Controller.ready_updateInterrupts hinte)⟩
  | step _ hlawful ih =>
    obtain ⟨s₀, s, h₀, hs, hd⟩ := ih
    obtain ⟨s', hs', hd'⟩ := hd.step hlawful
    exact ⟨s₀, s', h₀, hs.trans hs', hd'⟩

theorem Reached.run {description : DeviceDescription} {d : Device σ} (h : Reached description d)
    {steps : List DeviceStep} (hsteps : ∀ step ∈ steps, step.Lawful) :
    Reached description (d.run steps).1 := by
  induction steps generalizing d with
  | nil => exact h
  | cons step steps ih =>
    rw [List.forall_mem_cons] at hsteps
    rw [fst_run_cons]
    exact ih (h.step hsteps.1) hsteps.2

/-- A device on a bench, opened as described. -/
def opened (description : DeviceDescription) : Device Bench :=
  ((Device.blank {}).open description).2.1.mapController Controller.updateInterrupts

theorem reached_opened {description : DeviceDescription}
    (h : ((Device.blank ({} : Bench)).open description).1 = .ok ()) :
    Reached description (opened description) :=
  .opened (Prod.ext h rfl : (blank ({} : Bench)).open description = (.ok (), _, _))

theorem reached_default : Reached {} (opened {}) := reached_opened (by decide +kernel)

end Device

end UsbGadget
