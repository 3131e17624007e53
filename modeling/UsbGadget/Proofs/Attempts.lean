import UsbGadget.Proofs.CallerEndpoints
import UsbGadget.Proofs.History

/-!
# Attempts to submit a packet

A packet is submitted by the owner of a device or by a handler, and the one who submits it is told
whether it was taken. `Device.attempts` lists the attempts of both along a run, in order.

* `Session.Composes` says that a property holds of a submitted packet and of an event, and of pieces
  one after the other; `Session.Composes.run` that it then holds of a run of a device that stays
  open, whatever the host does. `Session.Pieces.composes` takes events apart, with all that a
  handler does.
* `Paired` says that the packets that went over on an endpoint are those of the attempts that were
  taken, each cut to fit. `Session.pieces_paired` says that this is so on every endpoint of a
  caller.
-/

namespace UsbGadget

/-- An attempt to submit a packet. -/
structure Attempt where
  /-- The interface that was asked for. -/
  interface : UInt8
  /-- The address that was asked for. -/
  address : UInt8
  /-- The data. -/
  data : List UInt8
  /-- The packet was taken. -/
  taken : Bool
deriving DecidableEq

/-- The attempts on an endpoint of an interface that were taken. -/
def takenOn (interface address : UInt8) (attempts : List Attempt) : List Attempt :=
  attempts.filter fun a => a.taken && (a.interface == interface && a.address == address)

/-! ### The attempts of a run -/

namespace Session

/-- What a handler attempts. -/
def attempts (s : Session) : Program → List Attempt
  | .done => []
  | .askConfigured next => s.attempts (next s.control.configured)
  | .submit interface address data next =>
    let result := s.submit interface address data
    ⟨interface, address, data, result.2.2⟩ :: result.1.attempts (next result.2.2)

/-- What is attempted when a packet of an endpoint is done. -/
def attemptsAfter (s : Session) (e : Endpoint) (data : List UInt8) : List Attempt :=
  match e.owner with
  | .control | .caller none => []
  | .caller (some handler) => s.attempts (handler.onData data)

/-- What is attempted upon an event. -/
def attemptsUpon (s : Session) (dpram : Memory Dpram.size) : Event → List Attempt
  | .setup | .busReset => []
  | .buffer index =>
    match s.endpoints.find? (·.address == Event.bufferAddress index) with
    | none => []
    | some e => s.attemptsAfter e (e.completedData dpram)

end Session

namespace Device

variable {σ : Type} [Board σ]

/-- What handlers attempt upon events in a row. -/
def attemptsOf (d : Device σ) : List Event → List Attempt
  | [] => []
  | event :: events =>
    (d.session.map fun s => s.attemptsUpon d.hw.dpram event).getD [] ++
      (d.handle event).1.attemptsOf events

/-- What is attempted in a step. -/
def attemptsIn (d : Device σ) : DeviceStep → List Attempt
  | .submit interface address data =>
    [⟨interface, address, data, (d.submit interface address data).1⟩]
  | .interrupt | .service => d.attemptsOf d.pending
  | .open _ | .close | .host _ => []

/-- What is attempted in a row of steps. -/
def attempts (d : Device σ) : List DeviceStep → List Attempt
  | [] => []
  | step :: steps => d.attemptsIn step ++ (d.step step).2.1.attempts steps

end Device

/-! ### What holds of pieces and of a run -/

namespace Session

/-- Something that can be said of a piece of a session's course: of the session, of what is
attempted, and of the session and the log that come of it. It holds of packets in a row. -/
structure Chains (P : Session → List Attempt → Session × List Effect → Prop) : Prop where
  /-- It holds of nothing. -/
  still : ∀ s, P s [] (s, [])
  /-- It holds of two pieces one after the other. -/
  append : ∀ {s s' s'' attempts attempts' log log'}, P s attempts (s', log) →
    P s' attempts' (s'', log') → P s (attempts ++ attempts') (s'', log ++ log')
  /-- It holds of a packet that is submitted. -/
  submit : ∀ {s}, Arranged s.endpoints → ∀ interface address data,
    P s [⟨interface, address, data, (s.submit interface address data).2.2⟩]
      ((s.submit interface address data).1, (s.submit interface address data).2.1)

/-- It holds of whatever a device does with its session, since it holds of events as well. -/
structure Composes (P : Session → List Attempt → Session × List Effect → Prop) : Prop
    extends Chains P where
  /-- It holds of an event that is acknowledged and handled. -/
  react : ∀ {s}, Arranged s.endpoints → ∀ dpram event, P s (s.attemptsUpon dpram event)
    ((s.react dpram event).1, event.acknowledge :: (s.react dpram event).2)

/-- It holds of the pieces that the handling of an event is made of. -/
structure Pieces (P : Session → List Attempt → Session × List Effect → Prop) : Prop
    extends Chains P where
  /-- It holds of an effect that hands nothing over and reads no SETUP packet. -/
  quiet : ∀ s (e : Effect), Happening.heeded? (.effect e) = none →
    (∀ interface address, e.handed? interface address = none) → P s [] (s, [e])
  /-- It holds of a step of the control machine. -/
  proceed : ∀ {s}, Arranged s.endpoints → ∀ step, P s [] (s.proceed step)
  /-- It holds of a SETUP packet that is read. -/
  setup : ∀ {s}, Arranged s.endpoints → ∀ packet,
    P s [] ((s.setup packet).1, .heed packet :: (s.setup packet).2)

namespace Pieces

variable {s : Session} {P : Session → List Attempt → Session × List Effect → Prop}

/-- A handler's packets are submitted one by one. -/
theorem run (hP : Pieces P) (hs : Arranged s.endpoints) (p : Program) :
    P s (s.attempts p) ((s.run p).1, (s.run p).2.1) := by
  induction p generalizing s with
  | done => exact hP.still s
  | askConfigured next ih => exact ih _ hs
  | submit interface address data next ih =>
    have hs' := hs.of_map_fixed (kept_submit hs interface address data).same.endpoints
    exact hP.append (hP.submit hs interface address data) (ih _ hs')

theorem completed (hP : Pieces P) (hs : Arranged s.endpoints) (e : Endpoint) (data : List UInt8) :
    P s (s.attemptsAfter e data) (s.completed e data) := by
  unfold attemptsAfter Session.completed
  cases e.owner with
  | control => cases e.direction <;> exact hP.proceed hs _
  | caller handler =>
    cases handler with
    | none => exact hP.still s
    | some handler =>
      exact hP.append (hP.quiet s _ rfl fun _ _ => rfl) (hP.run hs (handler.onData data))

theorem react (hP : Pieces P) (hs : Arranged s.endpoints) (dpram : Memory Dpram.size)
    (event : Event) : P s (s.attemptsUpon dpram event) (s.react dpram event) := by
  cases event with
  | setup => exact hP.setup hs (.inMemory dpram)
  | busReset => exact hP.proceed hs s.control.busReset
  | buffer index =>
    simp only [attemptsUpon, Session.react]
    cases s.endpoints.find? (·.address == Event.bufferAddress index) with
    | none => exact hP.still s
    | some e =>
      exact hP.append (hP.quiet s _ rfl fun _ _ => rfl) (hP.completed hs e (e.completedData dpram))

/-- What holds of the pieces holds of whatever a device does with its session. -/
theorem composes (hP : Pieces P) : Composes P where
  toChains := hP.toChains
  react {s} hs dpram event := by
    have hacknowledge := hP.quiet s event.acknowledge (by cases event <;> rfl) fun _ _ => by
      cases event <;> rfl
    exact hP.append hacknowledge (hP.react hs dpram event)

end Pieces

namespace Composes

variable {σ : Type} [Board σ] {d : Device σ} {s : Session}
  {P : Session → List Attempt → Session × List Effect → Prop}

theorem handleAll (hP : Composes P) (hd : d.session = some s) (hs : Arranged s.endpoints)
    (events : List Event) : ∃ s', (d.handleAll events).1.session = some s' ∧
      Arranged s'.endpoints ∧ P s (d.attemptsOf events) (s', (d.handleAll events).2) := by
  induction events generalizing d s with
  | nil => exact ⟨s, hd, hs, hP.still s⟩
  | cons event events ih =>
    have hhandle := Device.handle_eq hd event
    have hs' := hs.of_map_fixed (kept_react hs d.hw.dpram event).same.endpoints
    obtain ⟨s'', hd'', hs'', hrest⟩ :=
      ih (d := (d.handle event).1) (congrArg (·.1.session) hhandle) hs'
    refine ⟨s'', hd'', hs'', ?_⟩
    rw [Device.attemptsOf, hd, Device.handleAll_cons, congrArg Prod.snd hhandle]
    exact hP.append (hP.react hs d.hw.dpram event) hrest

theorem step (hP : Composes P) (hd : d.session = some s) (hs : Arranged s.endpoints)
    {step : DeviceStep} (hstep : step ≠ .close) : ∃ s', (d.step step).2.1.session = some s' ∧
      Arranged s'.endpoints ∧ P s (d.attemptsIn step) (s', (d.step step).2.2) := by
  cases step with
  | close => exact absurd rfl hstep
  | «open» description =>
    have hopen : d.open description = (.error .alreadyOpen, d, []) := by
      simp only [Device.open, hd]
    simp only [Device.step, hopen]
    exact ⟨s, hd, hs, hP.still s⟩
  | submit interface address data =>
    have hs' := hs.of_map_fixed (kept_submit hs interface address data).same.endpoints
    simp only [Device.step, Device.attemptsIn, Device.submit_eq hd]
    exact ⟨_, rfl, hs', hP.submit hs interface address data⟩
  | interrupt => exact hP.handleAll hd hs d.pending
  | service =>
    -- the status bits that go away are no concern of the session
    obtain ⟨s', hd', hs', hall⟩ := hP.handleAll hd hs d.pending
    rw [Device.step_service, Device.snd_step_service]
    exact ⟨s', (Device.session_mapController _ _).trans hd', hs', hall⟩
  | host step =>
    rw [Device.step_host]
    exact ⟨s, hd, hs, hP.still s⟩

/-- What holds of the pieces holds of a run of a device that stays open. -/
theorem run (hP : Composes P) (hd : d.session = some s) (hs : Arranged s.endpoints)
    {steps : List DeviceStep} (hsteps : ∀ step ∈ steps, step ≠ .close) :
    ∃ s', (d.run steps).1.session = some s' ∧ Arranged s'.endpoints ∧
      P s (d.attempts steps) (s', (d.run steps).2) := by
  induction steps generalizing d s with
  | nil => exact ⟨s, hd, hs, hP.still s⟩
  | cons step steps ih =>
    rw [List.forall_mem_cons] at hsteps
    obtain ⟨s', hd', hs', hfirst⟩ := hP.step hd hs hsteps.1
    obtain ⟨s'', hd'', hs'', hrest⟩ := ih hd' hs' hsteps.2
    exact ⟨s'', hd'', hs'', hP.append hfirst hrest⟩

end Composes

end Session

/-! ### What goes over -/

/-- The packets that went over on an endpoint of an interface are those that were taken, in order,
each as far as it fits. -/
def Paired (interface address : UInt8) (attempts : List Attempt) (log : List Effect) : Prop :=
  List.Forall₂ (fun attempt packet => packet.data <+: attempt.data)
    (takenOn interface address attempts) (handedOver interface address log)

variable {interface address : UInt8}

theorem Paired.append {attempts attempts' : List Attempt} {log log' : List Effect}
    (h : Paired interface address attempts log) (h' : Paired interface address attempts' log') :
    Paired interface address (attempts ++ attempts') (log ++ log') := by
  rw [Paired, takenOn, List.filter_append, handedOver_append]
  exact List.rel_append h h'

theorem paired_nil {log : List Effect} (h : handedOver interface address log = []) :
    Paired interface address [] log := by
  rw [Paired, h]
  exact .nil

namespace Session

theorem paired_submit (s : Session) (interface' address' : UInt8) (data : List UInt8) :
    Paired interface address [⟨interface', address', data, (s.submit interface' address' data).2.2⟩]
      (s.submit interface' address' data).2.1 := by
  unfold submit
  cases hposition : s.position? interface' address' with
  | none => exact paired_nil rfl
  | some i =>
    obtain ⟨e, he, rfl, rfl⟩ := of_position? hposition
    simp only [arm, he]
    by_cases hkey : e.interface = interface ∧ e.address = address
    · have hhanded : Effect.handed? interface address (.arm e (e.clip data)) =
          some ⟨e.nextPid, e.clip data⟩ := if_pos hkey
      rw [Paired, handedOver, List.filterMap_cons_some hhanded, takenOn, List.filter_cons_of_pos]
      · exact .cons (List.take_prefix _ _) .nil
      · simp [hkey]
    · have hhanded : Effect.handed? interface address (.arm e (e.clip data)) = none := if_neg hkey
      rw [Paired, handedOver, List.filterMap_cons_none hhanded, takenOn, List.filter_cons_of_neg]
      · exact .nil
      · simpa using hkey

/-- The control machine hands nothing over on the interfaces of callers. -/
theorem handedOver_proceed_of_ne {s : Session} (hs : Arranged s.endpoints)
    (hinterface : interface ≠ 0) (step : Control × Reply) :
    handedOver interface address (s.proceed step).2 = [] := by
  obtain ⟨control, reply⟩ := step
  cases reply with
  | silent | moveTo => rfl
  | send data =>
    rw [proceed_send hs]
    exact List.filterMap_cons_none (if_neg fun h => hinterface h.1.symm)
  | receive =>
    rw [proceed_receive hs]
    exact List.filterMap_cons_none (if_neg fun h => hinterface h.1.symm)

theorem pieces_paired (hinterface : interface ≠ 0) :
    Pieces fun _ attempts result => Paired interface address attempts result.2 where
  still _ := paired_nil rfl
  append h h' := h.append h'
  submit _ := paired_submit _
  quiet _ _ _ hhanded := paired_nil (List.filterMap_cons_none (hhanded interface address))
  proceed hs step := paired_nil (handedOver_proceed_of_ne hs hinterface step)
  setup hs packet := by
    rw [setup_eq hs]
    exact paired_nil (handedOver_proceed_of_ne (hs.replace .data1 .data1) hinterface _)

end Session

end UsbGadget
