import UsbGadget.Proofs.Attempts
import UsbGadget.Proofs.Toggles

/-!
# Identifiers alternate on every endpoint

The identifier of a packet depends on the packets before it on the same endpoint alone, and on
endpoint 0 on the last SETUP packet, which starts it anew. Packets are handed over by position
(endpoint 0) and by interface and address (`Session.submit`, for the owner and for handlers), and
neither way ever touches the identifier of another endpoint.

* `Paced` says what the identifiers of endpoint 0 are along a log, and `Session.pieces_paces` that
  a session keeps to it, whatever its callers submit, on endpoint 0 as well;
* `Device.identifiers_alternate` is the main statement, for all endpoints along a run.
-/

namespace UsbGadget

/-! ### Logs -/

/-- The identifiers of packets alternate, and the first is that of a number. -/
def PidsFrom (k : Nat) (packets : List Packet) : Prop :=
  ∀ (n : Nat) (packet : Packet), packets[n]? = some packet → packet.pid = .nth (k + n)

theorem Alternate.pidsFrom {k : Nat} {p : Pid} {packets : List Packet}
    (h : Alternate (.nth k) packets p) : PidsFrom k packets := by
  intro n packet hn
  obtain ⟨hlt, -⟩ := List.getElem?_eq_some_iff.1 hn
  have hsplit : Alternate (.nth k) (packets.take n ++ packet :: packets.drop (n + 1)) p :=
    eq_append_of_getElem? hn ▸ h
  rw [hsplit.pid_eq, List.length_take, Nat.min_eq_left (Nat.le_of_lt hlt)]

/-- The identifiers on an endpoint alternate from the first identifier on, and start anew with
`data1` where a SETUP packet is read; the second one is the identifier of the packet after them. -/
inductive Paced (interface address : UInt8) : Pid → List Effect → Pid → Prop
  | nil (p : Pid) : Paced interface address p [] p
  | heed {p p' : Pid} {log : List Effect} (packet : SetupPacket)
      (h : Paced interface address .data1 log p') :
      Paced interface address p (.heed packet :: log) p'
  | other {p q p' : Pid} {e : Effect} {log : List Effect}
      (he : Happening.heeded? (.effect e) = none)
      (hfirst : Alternate p (handedOver interface address [e]) q)
      (h : Paced interface address q log p') : Paced interface address p (e :: log) p'

namespace Paced

variable {interface address : UInt8} {p p' p'' : Pid} {log log' : List Effect}

theorem quiet {e : Effect} (he : Happening.heeded? (.effect e) = none)
    (hhanded : e.handed? interface address = none) (h : Paced interface address p log p') :
    Paced interface address p (e :: log) p' := by
  refine .other he ?_ h
  rw [handedOver, List.filterMap_cons_none hhanded]
  exact .nil p

theorem append (h : Paced interface address p log p') (h' : Paced interface address p' log' p'') :
    Paced interface address p (log ++ log') p'' := by
  induction h with
  | nil => exact h'
  | heed packet _ ih => exact .heed packet (ih h')
  | other he hfirst _ ih => exact .other he hfirst (ih h')

theorem of_append (h : Paced interface address p (log ++ log') p') :
    ∃ q, Paced interface address p log q ∧ Paced interface address q log' p' := by
  induction log generalizing p with
  | nil => exact ⟨p, .nil p, h⟩
  | cons e log ih =>
    cases h with
    | heed packet h =>
      obtain ⟨q, hfirst, hrest⟩ := ih h
      exact ⟨q, .heed packet hfirst, hrest⟩
    | other he hfirst h =>
      obtain ⟨q, hlog, hrest⟩ := ih h
      exact ⟨q, .other he hfirst hlog, hrest⟩

/-- Between two SETUP packets the identifiers just alternate. -/
theorem alternate (h : Paced interface address p log p') (hlog : ∀ packet, .heed packet ∉ log) :
    Alternate p (handedOver interface address log) p' := by
  induction h with
  | nil p => exact .nil p
  | heed packet _ _ => exact absurd List.mem_cons_self (hlog packet)
  | @other _ _ _ e log _ hfirst _ ih =>
    rw [← List.singleton_append, handedOver_append]
    exact hfirst.append (ih fun packet hmem => hlog packet (List.mem_cons_of_mem _ hmem))

/-- What follows a SETUP packet, up to the next one. -/
theorem pidsFrom_one {before since after : List Effect} {packet : SetupPacket}
    (h : Paced interface address p (before ++ .heed packet :: (since ++ after)) p')
    (hsince : ∀ q, .heed q ∉ since) : PidsFrom 1 (handedOver interface address since) := by
  obtain ⟨_, -, hrest⟩ := h.of_append
  cases hrest with
  | other he _ _ => cases he
  | heed _ hrest =>
    obtain ⟨_, hsince', -⟩ := hrest.of_append
    exact (hsince'.alternate hsince).pidsFrom (k := 1)

end Paced

/-! ### Sessions -/

namespace Session

variable {interface address : UInt8} {s : Session}

theorem Arranged.position?_eq (hs : Arranged s.endpoints) {i : Nat} {e : Endpoint}
    (hposition : i = ep0In ∨ i = ep0Out) (he : s.endpoints[i]? = some e) :
    s.position? e.interface e.address = some i := by
  obtain ⟨pidIn, pidOut, rest, hs, -⟩ := hs
  rw [hs] at he
  rw [position?, hs]
  rcases hposition with rfl | rfl <;>
  · cases he
    rfl

/-- A log of a session along which the identifiers on an endpoint are as they have to be. -/
def Paces (interface address : UInt8) (s : Session) (result : Session × List Effect) : Prop :=
  Paced interface address (s.nextPid interface address) result.2
    (result.1.nextPid interface address)

/-- A packet carries the identifier of its own endpoint, and moves that one only. -/
theorem paces_arm {i : Nat} (hposition : ∀ e, s.endpoints[i]? = some e →
      s.position? e.interface e.address = some i) (data : List UInt8) :
    Paces interface address s (s.arm i data) := by
  unfold arm
  cases he : s.endpoints[i]? with
  | none => exact .nil _
  | some e =>
    have hturns : Turns interface address s _ :=
      turns_arm he (fun hkey => hkey.1 ▸ hkey.2 ▸ hposition e he) data
    exact .other rfl hturns (.nil _)

theorem paces_submit (s : Session) (interface' address' : UInt8) (data : List UInt8) :
    Paces interface address s
      ((s.submit interface' address' data).1, (s.submit interface' address' data).2.1) := by
  unfold submit
  cases hposition : s.position? interface' address' with
  | none => exact .nil _
  | some i => exact paces_arm (fun _ => position?_self hposition) data

theorem paces_proceed (hs : Arranged s.endpoints) (step : Control × Reply) :
    Paces interface address s (s.proceed step) := by
  obtain ⟨c, reply⟩ := step
  let s' : Session := { s with control := c }
  have harm {i : Nat} (hposition : i = ep0In ∨ i = ep0Out) (data : List UInt8) :
      Paces interface address s' (s'.arm i data) :=
    paces_arm (fun _ => Arranged.position?_eq (s := s') hs hposition) data
  cases reply with
  | silent => exact .nil _
  | send data => exact harm (.inl rfl) data
  | receive => exact harm (.inr rfl) []
  | moveTo a => exact .quiet rfl rfl (.nil _)

/-- After a SETUP packet the identifiers of endpoint 0 go on from `data1`. -/
theorem paced_setup (hs : Arranged s.endpoints) (direction : Direction) (packet : SetupPacket) :
    Paced 0 (direction.address 0) .data1 (s.setup packet).2
      ((s.setup packet).1.nextPid 0 (direction.address 0)) := by
  -- the identifiers of both halves are set before anything is handed over
  let restarted : Session :=
    { s with endpoints := .ofControl .input .data1 :: .ofControl .output .data1 :: s.callers }
  have hpid : restarted.nextPid 0 (direction.address 0) = .data1 := by cases direction <;> rfl
  have hproceed : ∀ step, Paces 0 (direction.address 0) restarted (restarted.proceed step) :=
    paces_proceed (hs.replace .data1 .data1)
  simp only [Paces, hpid] at hproceed
  rw [setup_eq hs]
  exact hproceed _

theorem pieces_paces (direction : Direction) :
    Pieces fun s _ result => Paces 0 (direction.address 0) s result where
  still _ := .nil _
  append h h' := Paced.append h h'
  submit _ := paces_submit _
  quiet _ _ he hhanded := .quiet he (hhanded _ _) (.nil _)
  proceed hs step := paces_proceed hs step
  setup hs packet := .heed packet (paced_setup hs direction packet)

theorem composes_kept : Composes fun s _ result => s.Kept result where
  still s := .nil (.refl s)
  append h h' := ⟨h.same.trans h'.same, List.forall_mem_append.2 ⟨h.routine, h'.routine⟩⟩
  submit hs := kept_submit hs
  react hs dpram event := (kept_react hs dpram event).acknowledged event

end Session

/-! ### Devices -/

namespace Device

variable {σ : Type} [Board σ]

/-- Since a device was opened, and as long as it is not closed: on every endpoint of a caller the
packets that were taken go over, from the owner and from handlers, and their identifiers alternate
from `data0` on; on both halves of endpoint 0 they alternate from `data1` on after a SETUP packet,
up to the next one. The identifier of a packet is the one that is written to the buffer control word
of its endpoint. -/
theorem identifiers_alternate {closed d : Device σ} {description : DeviceDescription}
    {log : List Effect} (hopen : closed.open description = (.ok (), d, log))
    {steps : List DeviceStep} (hsteps : ∀ step ∈ steps, step ≠ .close) :
    (∀ interface address, interface ≠ 0 →
      Paired interface address (d.attempts steps) (d.run steps).2 ∧
        PidsFrom 0 (handedOver interface address (d.run steps).2)) ∧
    (∀ (direction : Direction) before packet since after,
      (d.run steps).2 = before ++ .heed packet :: (since ++ after) → (∀ q, .heed q ∉ since) →
        PidsFrom 1 (handedOver 0 (direction.address 0) since)) ∧
    ∀ e data, .arm e data ∈ (d.run steps).2 → ∀ dpram : Memory Dpram.size,
      (BufferControl.ofWord
        ((e.arm data dpram).word (Dpram.bufferControlOffset e.bufferControl))).pid = e.nextPid := by
  obtain ⟨-, s, hs, -, hd⟩ := open_eq_ok.1 hopen
  have hsession : d.session = some s := hd ▸ rfl
  have harranged := (Session.sound_of_ofDescription hs).arranged
  refine ⟨?_, ?_, ?_⟩
  · intro interface address hi
    obtain ⟨_, -, -, hpaired⟩ := (Session.pieces_paired hi).composes.run hsession harranged hsteps
    obtain ⟨_, -, -, hturns⟩ := (Session.composes_turns hi).run hsession harranged hsteps
    rw [Session.Turns, Session.nextPid_ofDescription hs] at hturns
    exact ⟨hpaired, hturns.pidsFrom (k := 0)⟩
  · intro direction before packet since after hlog hsince
    obtain ⟨_, -, -, hpaces⟩ :=
      (Session.pieces_paces direction).composes.run hsession harranged hsteps
    rw [Session.Paces, hlog] at hpaces
    exact hpaces.pidsFrom_one hsince
  · intro e data hmem dpram
    obtain ⟨_, -, -, hkept⟩ := Session.composes_kept.run hsession harranged hsteps
    obtain ⟨hplaced, hfits⟩ := hkept.routine _ hmem
    rw [hplaced.ofWord_arm data dpram hfits]

/-- The echo device right after it was opened. -/
def echo : Device Bench := ((blank {}).open Echo.device).2.1

/-- The echo device is configured, sends two packets back, and is asked for its device record. -/
def echoedTwice : List DeviceStep :=
  [.host .updateInterrupts, .host (.setup ⟨0, 9, 1, 0, 0⟩), .service,
    .submit Echo.interface Echo.outAddress Echo.room,
    .host (.complete Echo.outAddress [1, 2, 3] false), .service,
    .host (.complete Echo.inAddress [] false), .service,
    .host (.complete Echo.outAddress [4] false), .service,
    .host (.setup ⟨0x80, 6, 0x100, 0, 64⟩), .service]

theorem identifiers_alternate_echoedTwice :
    (∃ first second, handedOver Echo.interface Echo.inAddress (echo.run echoedTwice).2 =
        [first, second] ∧ first.pid = .data0 ∧ second.pid = .data1) ∧
    ∃ packet, handedOver 0 (Direction.input.address 0) ((echo.run echoedTwice).2.drop 18) =
        [packet] ∧ packet.pid = .data1 := by
  obtain ⟨hopen, hinterface, htaken, hheed, hsince, hlength⟩ :
      ((blank ({} : Bench)).open Echo.device).1 = .ok () ∧ Echo.interface ≠ 0 ∧
        (takenOn Echo.interface Echo.inAddress (echo.attempts echoedTwice)).length = 2 ∧
        (echo.run echoedTwice).2[17]?.bind (fun e => Happening.heeded? (.effect e)) =
          some ⟨0x80, 6, 0x100, 0, 64⟩ ∧
        ((echo.run echoedTwice).2.drop 18).filterMap
          (fun e => Happening.heeded? (.effect e)) = [] ∧
        (handedOver 0 (Direction.input.address 0)
          ((echo.run echoedTwice).2.drop 18)).length = 1 := by decide +kernel
  obtain ⟨hcallers, hcontrol, -⟩ := identifiers_alternate
    (Prod.ext hopen rfl : (blank ({} : Bench)).open Echo.device = (.ok (), echo, _))
    (show ∀ step ∈ echoedTwice, step ≠ .close by simp [echoedTwice])
  -- the packets of the endpoint
  obtain ⟨hpaired, hpids⟩ := hcallers Echo.interface Echo.inAddress hinterface
  obtain ⟨first, second, hhanded⟩ := List.length_eq_two.1 (hpaired.length_eq.symm.trans htaken)
  rw [hhanded] at hpids
  -- those of endpoint 0 after the last SETUP packet
  obtain ⟨e, he, hheed⟩ := Option.bind_eq_some_iff.1 hheed
  obtain rfl := Happening.eq_heed hheed
  have hnone : ∀ q, .heed q ∉ (echo.run echoedTwice).2.drop 18 := by
    intro q hq
    cases List.filterMap_eq_nil_iff.1 hsince _ hq
  have hlog := eq_append_of_getElem? he
  rw [← List.append_nil ((echo.run echoedTwice).2.drop 18)] at hlog
  have hone := hcontrol .input _ _ _ _ hlog hnone
  obtain ⟨packet, hpacket⟩ := List.length_eq_one_iff.1 hlength
  rw [hpacket] at hone
  exact ⟨⟨first, second, hhanded, hpids 0 first rfl, hpids 1 second rfl⟩,
    packet, hpacket, hone 0 packet rfl⟩

end Device

end UsbGadget
