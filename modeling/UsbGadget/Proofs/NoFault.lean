import UsbGadget.Firmware.Echo
import UsbGadget.Guarded.Device
import UsbGadget.Proofs.GuardedSession

/-!
# A device never goes wrong

Whatever its owner, its handlers and the host do, and whatever is written over the registers and the
packet memory between two steps, a guarded device has no fault: no index and no range lies outside,
no packet is copied past the packet memory and no sum is too large (`Guarded.run_never_faults`).

The invariant is that a session is sound whenever there is one (`Device.Sound`), and it says nothing
about the hardware. One step keeps it, and takes the guarded device to where the plain device goes
(`Guarded.turn_eq`).
-/

namespace UsbGadget

/-! ### Effects -/

/-- An effect that stays inside the packet memory. -/
def Effect.Safe : Effect → Prop
  | enable e => ∀ i, e.endpointControl = some i → i < Dpram.endpointControls
  | arm e data => e.Placed ∧ data.length ≤ Dpram.bufferSize
  | reset | clear | write _ _ | line _ | heed _ | collect _ _ | call _ _ _ => True

theorem Effect.Routine.safe {e : Effect} (h : e.Routine) : e.Safe := by
  cases e with
  | arm e data => exact h
  | write | heed | collect | call => trivial
  | reset | clear | line | enable => cases h

theorem safe_bringUp {endpoints : List Endpoint} (h : Session.Arranged endpoints) :
    ∀ e ∈ bringUp endpoints, e.Safe := by
  intro e he
  rcases List.mem_append.1 he with he | he
  · rcases List.mem_append.1 he with he | he
    · simp only [List.mem_cons, List.not_mem_nil, or_false] at he
      rcases he with rfl | rfl | rfl | rfl | rfl | rfl | rfl <;> trivial
    · obtain ⟨endpoint, hendpoint, rfl⟩ := List.mem_map.1 he
      exact fun i hi => h.endpointControl_lt hendpoint hi
  · simp only [List.mem_cons, List.not_mem_nil, or_false] at he
    rcases he with rfl | rfl <;> trivial

theorem safe_shutDown : ∀ e ∈ shutDown, e.Safe := by
  simp [shutDown, Effect.Safe]

/-! ### Soundness -/

namespace Device

variable {σ : Type} [Board σ]

/-- The session is sound, if the device is open. -/
def Sound (d : Device σ) : Prop := ∀ s, d.session = some s → s.Sound

omit [Board σ] in
theorem sound_of_session {d : Device σ} {s : Session} (h : d.session = some s) (hs : s.Sound) :
    d.Sound := by
  intro s' hs'
  rw [h, Option.some.injEq] at hs'
  exact hs' ▸ hs

omit [Board σ] in
theorem sound_of_closed {d : Device σ} (h : d.session = none) : d.Sound := by
  intro s hs
  rw [h] at hs
  cases hs

omit [Board σ] in
theorem Sound.mapController {d : Device σ} (h : d.Sound) (f : Controller → Controller) :
    (d.mapController f).Sound := h

theorem Sound.handle {d : Device σ} (h : d.Sound) (event : Event) : (d.handle event).1.Sound := by
  cases hsession : d.session with
  | none =>
    rw [Device.handle, hsession]
    exact h
  | some s =>
    have hs := h s hsession
    rw [handle_eq hsession]
    exact sound_of_session rfl
      (hs.of_same (Session.kept_react hs.arranged d.hw.dpram event).same)

theorem Sound.handleAll {d : Device σ} (h : d.Sound) (events : List Event) :
    (d.handleAll events).1.Sound := by
  induction events generalizing d with
  | nil => exact h
  | cons event events ih => exact ih (h.handle event)

theorem Sound.open {d : Device σ} (h : d.Sound) (description : DeviceDescription) :
    (d.open description).2.1.Sound := by
  unfold Device.open
  cases hsession : d.session with
  | some s => exact h
  | none =>
    cases hs : Session.ofDescription description with
    | error e => exact h
    | ok s => exact sound_of_session rfl (Session.sound_of_ofDescription hs)

theorem Sound.close {d : Device σ} (h : d.Sound) : d.close.1.Sound := by
  unfold Device.close
  cases hsession : d.session with
  | none => exact h
  | some s => exact sound_of_closed rfl

theorem Sound.submit {d : Device σ} (h : d.Sound) (interface address : UInt8) (data : List UInt8) :
    (d.submit interface address data).2.1.Sound := by
  cases hsession : d.session with
  | none =>
    rw [Device.submit, hsession]
    exact h
  | some s =>
    have hs := h s hsession
    rw [submit_eq hsession]
    exact sound_of_session rfl
      (hs.of_same (Session.kept_submit hs.arranged interface address data).same)

theorem Sound.turn {d : Device σ} (h : d.Sound) (t : Turn) : (d.turn t).2.1.Sound := by
  cases t with
  | overwrite c => exact h
  | step step =>
    cases step with
    | «open» description => exact h.open description
    | close => exact h.close
    | submit interface address data => exact h.submit interface address data
    | interrupt => exact h.handleAll d.pending
    | service => exact (h.handleAll d.pending).mapController _
    | host step => exact h

theorem turn_service (d : Device σ) :
    d.turn (.step .service) = (.ok .silent,
      (d.handleAll d.pending).1.mapController Controller.retire, (d.handleAll d.pending).2) := rfl

omit [Board σ] in
theorem lt_of_mem_pending {d : Device σ} {i : Nat} (h : Event.buffer i ∈ d.pending) :
    i < Dpram.bufferControls := (Controller.mem_returned.1 (buffer_mem_pending.1 h).2).1

end Device

/-! ### The guarded device -/

/-- The texts of a description that is opened lie in memory. -/
def Turn.InMemory : Turn → Prop
  | .step (.open description) => description.InMemory
  | .step _ | .overwrite _ => True

namespace Guarded

variable {σ : Type} [Board σ]

theorem apply_eq {e : Effect} (he : e.Safe) (h : Hardware σ) : apply h e = .ok (e.apply h) := by
  -- a change of the packet memory, once its result is known
  have hmap (f : Memory Dpram.size → Memory Dpram.size) :
      (h.mapDpram fun _ => f h.dpram) = h.mapDpram f := rfl
  cases e with
  | clear =>
    rw [apply, clear_eq]
    exact congrArg Except.ok (hmap fun _ => .zero)
  | enable e =>
    rw [apply, enableEndpoint_eq _ he]
    exact congrArg Except.ok (hmap e.enable)
  | arm e data =>
    rw [apply, armEndpoint_eq he.1 he.2]
    exact congrArg Except.ok (hmap (e.arm data))
  | reset | write | line | heed | collect | call => rfl

theorem replay_eq {log : List Effect} (hlog : ∀ e ∈ log, e.Safe) (h : Hardware σ) :
    replay log h = .ok (UsbGadget.replay log h) := by
  induction log generalizing h with
  | nil => rfl
  | cons e log ih =>
    rw [List.forall_mem_cons] at hlog
    rw [replay, List.foldlM_cons, apply_eq hlog.1, ok_bind, UsbGadget.replay_cons]
    exact ih hlog.2 _

theorem open_eq {m : Machine σ} {description : DeviceDescription} (hd : description.InMemory) :
    ∃ scratch, «open» m description = .ok ((m.toDevice.open description).1,
      ⟨(m.toDevice.open description).2.1, scratch⟩, (m.toDevice.open description).2.2) := by
  unfold «open» Device.open
  cases m.session with
  | some s => exact ⟨m.scratch, rfl⟩
  | none =>
    rw [settle_openSession hd, ok_bind]
    cases hs : Session.ofDescription description with
    | error e => exact ⟨m.scratch, rfl⟩
    | ok s =>
      have hsafe := safe_bringUp (Session.sound_of_ofDescription hs).arranged
      refine ⟨.zero, ?_⟩
      simp only [replay_eq hsafe]
      rfl

theorem close_eq (m : Machine σ) :
    close m = .ok (⟨m.toDevice.close.1, m.scratch⟩, m.toDevice.close.2) := by
  unfold close Device.close
  cases m.session with
  | none => rfl
  | some s =>
    simp only [replay_eq safe_shutDown]
    rfl

theorem submitTo_eq {m : Machine σ} (hm : m.toDevice.Sound) (interface address : UInt8)
    (data : List UInt8) :
    submitTo m interface address data = .ok ((m.toDevice.submit interface address data).1,
      ⟨(m.toDevice.submit interface address data).2.1, m.scratch⟩,
      (m.toDevice.submit interface address data).2.2) := by
  unfold submitTo Device.submit
  cases hs : m.session with
  | none => rfl
  | some s =>
    have hkept := Session.kept_submit (hm s hs).arranged interface address data
    simp only [submit_eq, ok_bind, replay_eq fun e he => (hkept.routine e he).safe]
    rfl

theorem acknowledge_eq {event : Event} (h : ∀ i, event = .buffer i → i < Dpram.bufferControls) :
    acknowledge event = .ok event.acknowledge := by
  cases event with
  | setup | busReset => rfl
  | buffer i =>
    have hbit : bitAt 32 i = .ok (1 <<< i) := bitAt_eq (h i rfl)
    rw [acknowledge, hbit]
    rfl

theorem handle_eq {m : Machine σ} (hm : m.toDevice.Sound) (event : Event)
    (hevent : ∀ i, event = .buffer i → i < Dpram.bufferControls) :
    ∃ scratch, handle m event =
      .ok (⟨(m.toDevice.handle event).1, scratch⟩, (m.toDevice.handle event).2) := by
  unfold handle Device.handle
  cases hs : m.session with
  | none => exact ⟨m.scratch, rfl⟩
  | some s =>
    have hkept := (Session.kept_react (hm s hs).arranged m.hw.dpram event).acknowledged event
    obtain ⟨scratch, hreact⟩ := react_eq (hm s hs) m.scratch m.hw.dpram event
    refine ⟨scratch, ?_⟩
    simp only [acknowledge_eq hevent, ok_bind, hreact,
      replay_eq fun e he => (hkept.routine e he).safe]
    rfl

theorem handleAll_eq {m : Machine σ} (hm : m.toDevice.Sound) {events : List Event}
    (hevents : ∀ i, Event.buffer i ∈ events → i < Dpram.bufferControls) :
    ∃ scratch, handleAll m events =
      .ok (⟨(m.toDevice.handleAll events).1, scratch⟩, (m.toDevice.handleAll events).2) := by
  induction events generalizing m with
  | nil => exact ⟨m.scratch, rfl⟩
  | cons event events ih =>
    obtain ⟨scratch, hhandle⟩ := handle_eq hm event
      fun i hi => hevents i (hi ▸ List.mem_cons_self)
    -- what an event leaves in the scratch buffer is of no concern to those behind it
    obtain ⟨scratch', hrest⟩ := ih (m := ⟨(m.toDevice.handle event).1, scratch⟩) (hm.handle event)
      fun i hi => hevents i (List.mem_cons_of_mem _ hi)
    refine ⟨scratch', ?_⟩
    rw [handleAll, hhandle, ok_bind]
    simp only [hrest]
    rfl

/-- One turn takes a sound device where the plain one goes, and has no fault. -/
theorem turn_eq {m : Machine σ} (hm : m.toDevice.Sound) {t : Turn} (ht : t.InMemory) :
    ∃ scratch, turn m t = .ok ((m.toDevice.turn t).1, ⟨(m.toDevice.turn t).2.1, scratch⟩,
      (m.toDevice.turn t).2.2) := by
  cases t with
  | overwrite c => exact ⟨m.scratch, rfl⟩
  | step step =>
    cases step with
    | «open» description =>
      obtain ⟨scratch, h⟩ := open_eq (m := m) ht
      refine ⟨scratch, ?_⟩
      rw [turn, Guarded.step, h]
      rfl
    | close =>
      refine ⟨m.scratch, ?_⟩
      rw [turn, Guarded.step, close_eq]
      rfl
    | submit interface address data =>
      refine ⟨m.scratch, ?_⟩
      rw [turn, Guarded.step, submitTo_eq hm]
      rfl
    | interrupt =>
      obtain ⟨scratch, h⟩ := handleAll_eq hm fun i => Device.lt_of_mem_pending (d := m.toDevice)
      refine ⟨scratch, ?_⟩
      rw [turn, Guarded.step, interrupt, h]
      rfl
    | service =>
      obtain ⟨scratch, h⟩ := handleAll_eq hm fun i => Device.lt_of_mem_pending (d := m.toDevice)
      refine ⟨scratch, ?_⟩
      rw [turn, Guarded.step, interrupt, h, Device.turn_service]
      rfl
    | host step => exact ⟨m.scratch, rfl⟩

theorem run_eq {m : Machine σ} (hm : m.toDevice.Sound) {turns : List Turn}
    (hturns : ∀ t ∈ turns, t.InMemory) :
    ∃ scratch, run m turns = .ok ((m.toDevice.turns turns).1,
      ⟨(m.toDevice.turns turns).2.1, scratch⟩, (m.toDevice.turns turns).2.2) := by
  induction turns generalizing m with
  | nil => exact ⟨m.scratch, rfl⟩
  | cons t ts ih =>
    rw [List.forall_mem_cons] at hturns
    obtain ⟨scratch, hturn⟩ := turn_eq hm hturns.1
    obtain ⟨scratch', hrest⟩ := ih (m := ⟨(m.toDevice.turn t).2.1, scratch⟩) (hm.turn t) hturns.2
    refine ⟨scratch', ?_⟩
    rw [run, hturn, ok_bind]
    simp only [hrest]
    rfl

/-- From a closed device on, on whatever hardware, nothing that its owner, its handlers, the host
and the memory do makes an access or a sum of the engine fail: every turn is taken, and tells and
does what it does when nothing is guarded. -/
theorem run_never_faults (hw : Hardware σ) (scratch : Scratch) {turns : List Turn}
    (hturns : ∀ t ∈ turns, t.InMemory) :
    ∃ scratch', run ⟨⟨hw, none⟩, scratch⟩ turns = .ok ((Device.turns ⟨hw, none⟩ turns).1,
      ⟨(Device.turns ⟨hw, none⟩ turns).2.1, scratch'⟩, (Device.turns ⟨hw, none⟩ turns).2.2) :=
  run_eq (m := ⟨⟨hw, none⟩, scratch⟩) (Device.sound_of_closed rfl) hturns

/-- A controller in which every bit is set. -/
def noise : Controller := ⟨⟨Vector.replicate _ 0xFF⟩, ⟨Vector.replicate _ 0xFF⟩⟩

/-- A bench with such a controller. -/
def noisyBench : Hardware Bench := ⟨noise, {}⟩

/-- The echo device is opened, interrupted, used and closed in noise, and another one opened. -/
def noisyTurns : List Turn :=
  [.overwrite noise, .step (.open Echo.device), .overwrite noise, .step .interrupt,
    .step (.submit Echo.interface Echo.inAddress Echo.room), .overwrite noise, .step .service,
    .step .close, .step (.open {})]

theorem run_noisyTurns_never_faults :
    (∀ t ∈ noisyTurns, t.InMemory) ∧
      ∃ scratch', run ⟨⟨noisyBench, none⟩, .zero⟩ noisyTurns =
        .ok ((Device.turns ⟨noisyBench, none⟩ noisyTurns).1,
          ⟨(Device.turns ⟨noisyBench, none⟩ noisyTurns).2.1, scratch'⟩,
          (Device.turns ⟨noisyBench, none⟩ noisyTurns).2.2) := by
  have hecho : Echo.device.InMemory := by
    refine ⟨?_, ?_, nofun, ?_⟩
    · unfold TextInMemory
      decide +kernel
    · unfold TextInMemory
      decide +kernel
    · unfold TextInMemory
      decide +kernel
  have hdefault : ({} : DeviceDescription).InMemory := by
    refine ⟨?_, ?_, nofun, nofun⟩
    · unfold TextInMemory
      decide +kernel
    · unfold TextInMemory
      decide +kernel
  have hturns : ∀ t ∈ noisyTurns, t.InMemory := by
    simp only [noisyTurns, List.forall_mem_cons]
    exact ⟨trivial, hecho, trivial, trivial, trivial, trivial, trivial, trivial, hdefault, nofun⟩
  exact ⟨hturns, run_never_faults noisyBench .zero hturns⟩

end Guarded

end UsbGadget
