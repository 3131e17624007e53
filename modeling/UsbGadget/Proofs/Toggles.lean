import Mathlib.Algebra.Group.Nat.Even
import UsbGadget.Firmware.Echo
import UsbGadget.Proofs.Attempts
import UsbGadget.Proofs.History
import UsbGadget.Proofs.Packets
import UsbGadget.Proofs.Requests
import UsbGadget.Proofs.SeparateEndpoints

/-!
# The identifiers of a caller's packets

Every packet that is handed over on a caller's endpoint carries the identifier that the one before
did not carry, whatever else happens: handlers, control transfers and resets of the bus all leave
the next identifier alone.

* `Session.Turns` says so for a piece of a session's log, and `Session.Moves.turns` shows it for
  whatever a session does;
* `Device.Toggled.run` is the statement for a run of a device that stays open;
* `Device.restartsWithBus_iff` says when the identifiers start anew once the host has reset the bus
  and has chosen a configuration again: only after an even number of packets.
-/

namespace UsbGadget

/-! ### Packets that alternate -/

/-- The identifiers of the packets alternate from the first identifier on, and the second one is
the identifier of the packet after them. -/
inductive Alternate : Pid → List Packet → Pid → Prop
  | nil (p : Pid) : Alternate p [] p
  | cons {p p' : Pid} {packets : List Packet} (data : List UInt8)
      (h : Alternate p.next packets p') : Alternate p (⟨p, data⟩ :: packets) p'

namespace Alternate

theorem append {p p' p'' : Pid} {packets packets' : List Packet} (h : Alternate p packets p')
    (h' : Alternate p' packets' p'') : Alternate p (packets ++ packets') p'' := by
  induction h with
  | nil => exact h'
  | cons data _ ih => exact .cons data (ih h')

theorem pid_eq {n : Nat} {p : Pid} {packets packets' : List Packet} {packet : Packet}
    (h : Alternate (.nth n) (packets ++ packet :: packets') p) :
    packet.pid = .nth (n + packets.length) := by
  induction packets generalizing n with
  | nil =>
    cases h
    rfl
  | cons first packets ih =>
    cases h with
    | cons data h =>
      rw [← Pid.nth_succ] at h
      rw [ih h, List.length_cons, Nat.add_assoc, Nat.add_comm 1]

end Alternate

theorem Pid.nth_eq_data0 {n : Nat} : nth n = .data0 ↔ Even n := by
  rw [Nat.even_iff, nth]
  split_ifs with h
  · exact ⟨fun _ => h, fun _ => rfl⟩
  · exact ⟨nofun, fun h' => absurd h' h⟩

/-! ### Sessions -/

/-- Changing one element of a list, seen from the first element with a property that the change
leaves alone. -/
theorem find?_modify {α : Type} {p : α → Bool} {g : α → α} (hg : ∀ a, p (g a) = p a) (l : List α)
    (i : Nat) :
    (l.modify i g).find? p = if l.findIdx? p = some i then (l.find? p).map g else l.find? p := by
  induction l generalizing i with
  | nil => simp
  | cons a l ih =>
    cases i with
    | zero => cases ha : p a <;> simp [List.findIdx?_cons, hg, ha]
    | succ i => cases ha : p a <;> simp [List.findIdx?_cons, ha, ih]

namespace Session

variable {interface address : UInt8} {s : Session}

/-- The endpoint of an interface with an address. -/
def endpoint? (s : Session) (interface address : UInt8) : Option Endpoint :=
  s.endpoints.find? fun e => e.interface == interface && e.address == address

/-- Identifier of the next packet of an interface's endpoint. -/
def nextPid (s : Session) (interface address : UInt8) : Pid :=
  ((s.endpoint? interface address).map Endpoint.nextPid).getD .data0

theorem endpoint?_of_position? {i : Nat} (h : s.position? interface address = some i) :
    s.endpoint? interface address = s.endpoints[i]? := by
  obtain ⟨hlt, he, hfirst⟩ := List.findIdx?_eq_some_iff_getElem.1 h
  rw [endpoint?, List.getElem?_eq_getElem hlt]
  refine List.find?_eq_some_iff_getElem.2 ⟨he, i, hlt, rfl, ?_⟩
  intro j hj
  rw [Bool.not_eq_true']
  exact Bool.not_eq_true _ ▸ hfirst j hj

theorem endpoint?_modify (g : Endpoint → Endpoint)
    (hg : ∀ e, (g e).interface = e.interface ∧ (g e).address = e.address) (s : Session) (i : Nat) :
    ({ s with endpoints := s.endpoints.modify i g } : Session).endpoint? interface address =
      if s.position? interface address = some i then (s.endpoint? interface address).map g
      else s.endpoint? interface address := by
  apply find?_modify
  intro e
  rw [(hg e).1, (hg e).2]

/-- A log of a session along which the packets of a caller's endpoint alternate. -/
def Turns (interface address : UInt8) (s : Session) (result : Session × List Effect) : Prop :=
  Alternate (s.nextPid interface address) (handedOver interface address result.2)
    (result.1.nextPid interface address)

namespace Turns

theorem of_eq {result : Session × List Effect}
    (hpid : result.1.nextPid interface address = s.nextPid interface address)
    (hlog : handedOver interface address result.2 = []) : Turns interface address s result := by
  rw [Turns, hpid, hlog]
  exact .nil _

theorem append {s' s'' : Session} {log log' : List Effect}
    (h : Turns interface address s (s', log)) (h' : Turns interface address s' (s'', log')) :
    Turns interface address s (s'', log ++ log') := by
  rw [Turns, handedOver_append]
  exact Alternate.append h h'

theorem cons {s' : Session} {log : List Effect} {e : Effect}
    (he : e.handed? interface address = none) (h : Turns interface address s (s', log)) :
    Turns interface address s (s', e :: log) := by
  rw [Turns, handedOver, List.filterMap_cons_none he]
  exact h

end Turns

theorem Arranged.not_caller (hs : Arranged s.endpoints) (hi : interface ≠ 0) {i : Nat}
    (hposition : i = ep0In ∨ i = ep0Out) {e : Endpoint} (he : s.endpoints[i]? = some e) :
    ¬(e.interface = interface ∧ e.address = address) := by
  obtain ⟨pidIn, pidOut, rest, hs, -⟩ := hs
  rw [hs] at he
  rintro ⟨rfl, -⟩
  rcases hposition with rfl | rfl <;>
  · cases he
    exact hi rfl

theorem nextPid_setPid (hs : Arranged s.endpoints) (hi : interface ≠ 0) {i : Nat}
    (hposition : i = ep0In ∨ i = ep0Out) (pid : Pid) :
    (s.setPid i pid).nextPid interface address = s.nextPid interface address := by
  -- the position is one of endpoint 0, so it is not the one that is found for the caller
  rw [nextPid, setPid, endpoint?_modify (fun e => { e with nextPid := pid }) fun _ => ⟨rfl, rfl⟩,
    if_neg, ← nextPid]
  intro h
  obtain ⟨e, he, hkey⟩ := of_position? h
  exact hs.not_caller hi hposition he hkey

theorem turns_arm {i : Nat} {e : Endpoint} (he : s.endpoints[i]? = some e)
    (hposition : e.interface = interface ∧ e.address = address →
      s.position? interface address = some i) (data : List UInt8) :
    Turns interface address s
      ({ s with endpoints := s.endpoints.set i e.advance }, [.arm e (e.clip data)]) := by
  have hset : s.endpoints.set i e.advance = s.endpoints.modify i Endpoint.advance := by
    rw [List.modify_eq_set_getElem?, he]
    rfl
  rw [hset, Turns, nextPid, nextPid, endpoint?_modify Endpoint.advance fun _ => ⟨rfl, rfl⟩]
  by_cases hkey : e.interface = interface ∧ e.address = address
  · -- the endpoint itself: its packet carries its identifier and leaves the other one
    have hhanded : Effect.handed? interface address (.arm e (e.clip data)) =
        some ⟨e.nextPid, e.clip data⟩ := if_pos hkey
    rw [if_pos (hposition hkey), endpoint?_of_position? (hposition hkey), he, handedOver,
      List.filterMap_cons_some hhanded]
    exact .cons _ (.nil _)
  · -- another endpoint
    have hother : s.position? interface address ≠ some i := by
      intro hother
      obtain ⟨e', he', hkey'⟩ := of_position? hother
      obtain rfl : e' = e := Option.some.inj (he'.symm.trans he)
      exact hkey hkey'
    have hhanded : Effect.handed? interface address (.arm e (e.clip data)) = none := if_neg hkey
    rw [if_neg hother, handedOver, List.filterMap_cons_none hhanded]
    exact .nil _

/-- Whatever a session does, a reset of the bus as well. -/
theorem Moves.turns {result : Session × List Effect} (h : s.Moves result)
    (hs : Arranged s.endpoints) (hi : interface ≠ 0) : Turns interface address s result := by
  induction h with
  | still s => exact .of_eq rfl rfl
  | control c _ ih => exact ih hs
  | @restart s _ i hposition pid _ ih =>
    have hturns := ih (hs.of_map_fixed (s.same_setPid i pid).endpoints)
    rw [Turns, nextPid_setPid hs hi hposition] at hturns
    exact hturns
  | quiet heffect _ ih => exact (ih hs).cons heffect.handed?_eq_none
  | @arm s s' log i e he hposition data _ ih =>
    refine (turns_arm he ?_ data).append (ih (hs.of_map_fixed (same_advance he).endpoints))
    rintro ⟨rfl, rfl⟩
    exact hposition.resolve_left fun hzero => hs.not_caller hi hzero he ⟨rfl, rfl⟩

theorem composes_turns (hi : interface ≠ 0) :
    Composes fun s _ result => Turns interface address s result where
  still _ := .of_eq rfl rfl
  append h h' := h.append h'
  submit hs interface' address' data := (moves_submit _ interface' address' data).turns hs hi
  react hs dpram event := by
    rw [Turns, handedOver_acknowledge]
    exact (moves_react _ dpram event).turns hs hi

theorem nextPid_ofDescription {description : DeviceDescription}
    (h : ofDescription description = .ok s) : s.nextPid interface address = .data0 := by
  rw [nextPid]
  cases he : s.endpoint? interface address with
  | none => rfl
  | some e => exact nextPid_of_mem h (List.mem_of_find?_eq_some he)

end Session

/-! ### Devices -/

namespace Device

variable {σ : Type} [Board σ] {d : Device σ} {interface address : UInt8} {p : Pid}

/-- The device is open, and the identifier is that of the next packet of a caller's endpoint. -/
def Toggled (interface address : UInt8) (d : Device σ) (p : Pid) : Prop :=
  ∃ s, d.session = some s ∧ Session.Arranged s.endpoints ∧ s.nextPid interface address = p

omit [Board σ] in
theorem Toggled.mapController (hd : d.Toggled interface address p) (f : Controller → Controller) :
    (d.mapController f).Toggled interface address p := hd

/-- Along a run in which the device stays open the packets of a caller's endpoint alternate. -/
theorem Toggled.run (hd : d.Toggled interface address p) (hi : interface ≠ 0)
    {steps : List DeviceStep} (hsteps : ∀ step ∈ steps, step ≠ .close) :
    ∃ p', Alternate p (handedOver interface address (d.run steps).2) p' ∧
      (d.run steps).1.Toggled interface address p' := by
  obtain ⟨s, hsession, hs, rfl⟩ := hd
  obtain ⟨s', hsession', hs', hturns⟩ := (Session.composes_turns hi).run hsession hs hsteps
  exact ⟨_, hturns, s', hsession', hs', rfl⟩

theorem toggled_of_open {closed : Device σ} {description : DeviceDescription} {log : List Effect}
    (hopen : closed.open description = (.ok (), d, log)) : d.Toggled interface address .data0 := by
  obtain ⟨-, s, hs, -, rfl⟩ := open_eq_ok.1 hopen
  exact ⟨s, rfl, (Session.sound_of_ofDescription hs).arranged, Session.nextPid_ofDescription hs⟩

/-! ### Restarting with the bus -/

/-- The first part of the log ends where the host chooses a configuration for the first time since
it has reset the bus. -/
def Reenumerated (log before since : List Effect) : Prop :=
  ∃ packet earlier between, log = before ++ .heed packet :: since ∧ packet.SetsConfiguration ∧
    before = earlier ++ Event.busReset.acknowledge :: between ∧
    ∀ p, .heed p ∈ between → ¬p.SetsConfiguration

/-- The first packet of an endpoint after the host has reset the bus, and has chosen a configuration
again, is a `data0` packet. -/
def RestartsWithBus (interface address : UInt8) (log : List Effect) : Prop :=
  ∀ before since packet packets, Reenumerated log before since →
    handedOver interface address since = packet :: packets → packet.pid = .data0

/-- The identifiers of a caller's endpoint start anew with the bus exactly where an even number of
packets came before: they go on as if nothing had happened. -/
theorem restartsWithBus_iff {closed : Device σ} {description : DeviceDescription}
    {log : List Effect} (hopen : closed.open description = (.ok (), d, log)) (hi : interface ≠ 0)
    {steps : List DeviceStep} (hsteps : ∀ step ∈ steps, step ≠ .close) :
    RestartsWithBus interface address
        ((d.mapController Controller.updateInterrupts).run steps).2 ↔
      ∀ before since,
        Reenumerated ((d.mapController Controller.updateInterrupts).run steps).2 before since →
        handedOver interface address since ≠ [] →
          Even (handedOver interface address before).length := by
  have hopened : (d.mapController Controller.updateInterrupts).Toggled interface address .data0 :=
    (toggled_of_open hopen).mapController Controller.updateInterrupts
  obtain ⟨p', halternate, -⟩ := hopened.run hi hsteps
  -- the first packet after a part of the log has the number of packets in that part
  have hnumber {before since : List Effect} {packet : Packet} {packets : List Packet}
      (hlog : Reenumerated ((d.mapController Controller.updateInterrupts).run steps).2 before since)
      (hfirst : handedOver interface address since = packet :: packets) :
      packet.pid = .nth (handedOver interface address before).length := by
    obtain ⟨p, -, -, hlog, -⟩ := hlog
    have hsplit : handedOver interface address (before ++ .heed p :: since) =
        handedOver interface address before ++ packet :: packets := by
      rw [handedOver_append, ← hfirst]
      rfl
    rw [hlog, hsplit] at halternate
    exact (Alternate.pid_eq (n := 0) halternate).trans (by rw [Nat.zero_add])
  constructor
  · intro hrestarts before since hlog hne
    obtain ⟨packet, packets, hfirst⟩ := List.exists_cons_of_ne_nil hne
    rw [← Pid.nth_eq_data0, ← hnumber hlog hfirst]
    exact hrestarts before since packet packets hlog hfirst
  · intro heven before since packet packets hlog hfirst
    rw [hnumber hlog hfirst, Pid.nth_eq_data0]
    exact heven before since hlog (by rw [hfirst]; exact List.cons_ne_nil _ _)

/-- A log that reads a packet which chooses a configuration, and none since it has acknowledged a
reset of the bus. -/
theorem reenumerated_of_getElem? {log : List Effect} {j k : Nat} {packet : SetupPacket}
    (hreset : (log.take k)[j]?.bind (fun e => Happening.written? (.effect e)) =
      some (.sieStatus, Word.only Bit.busReset))
    (hnone : ((log.take k).drop (j + 1)).filterMap (fun e => Happening.heeded? (.effect e)) = [])
    (hpacket : log[k]?.bind (fun e => Happening.heeded? (.effect e)) = some packet)
    (hsets : packet.SetsConfiguration) :
    Reenumerated log (log.take k) (log.drop (k + 1)) := by
  obtain ⟨e, he, hheed⟩ := Option.bind_eq_some_iff.1 hpacket
  obtain ⟨e', he', hwrite⟩ := Option.bind_eq_some_iff.1 hreset
  obtain rfl := Happening.eq_heed hheed
  obtain rfl := Happening.eq_write hwrite
  refine ⟨packet, _, _, eq_append_of_getElem? he, hsets, eq_append_of_getElem? he', ?_⟩
  intro p hp
  cases List.filterMap_eq_nil_iff.1 hnone _ hp

/-- The echo device receives one packet; then the host resets the bus and chooses the configuration
again, and the device makes ready for another one. -/
def resumed : List DeviceStep :=
  [.host (.setup ⟨0, 9, 1, 0, 0⟩), .service, .submit Echo.interface Echo.outAddress Echo.room,
    .host (.complete Echo.outAddress [1, 2, 3] false), .service, .host .busReset, .service,
    .host (.setup ⟨0, 9, 1, 0, 0⟩), .service, .submit Echo.interface Echo.outAddress Echo.room]

theorem restartsWithBus_resumed_iff :
    RestartsWithBus Echo.interface Echo.outAddress ((opened Echo.device).run resumed).2 ↔
      ∀ before since, Reenumerated ((opened Echo.device).run resumed).2 before since →
        handedOver Echo.interface Echo.outAddress since ≠ [] →
          Even (handedOver Echo.interface Echo.outAddress before).length := by
  have hopen : ((blank ({} : Bench)).open Echo.device).1 = .ok () := by decide +kernel
  exact restartsWithBus_iff (Prod.ext hopen rfl : (blank ({} : Bench)).open Echo.device =
    (.ok (), _, _)) (by decide) (by simp [resumed])

/-- The endpoint goes on with a `data1` packet. -/
theorem resumed_not_restartsWithBus :
    ((blank ({} : Bench)).open Echo.device).1 = .ok () ∧ Echo.interface ≠ 0 ∧
      (∀ step ∈ resumed, step.Lawful) ∧
      ¬RestartsWithBus Echo.interface Echo.outAddress ((opened Echo.device).run resumed).2 := by
  obtain ⟨hopen, hinterface, hreset, hnone, hpacket, hpid⟩ :
      ((blank ({} : Bench)).open Echo.device).1 = .ok () ∧ Echo.interface ≠ 0 ∧
        (((opened Echo.device).run resumed).2.take 11)[8]?.bind
          (fun e => Happening.written? (.effect e)) =
          some (.sieStatus, Word.only Bit.busReset) ∧
        ((((opened Echo.device).run resumed).2.take 11).drop 9).filterMap
          (fun e => Happening.heeded? (.effect e)) = [] ∧
        ((opened Echo.device).run resumed).2[11]?.bind (fun e => Happening.heeded? (.effect e)) =
          some ⟨0, 9, 1, 0, 0⟩ ∧
        (handedOver Echo.interface Echo.outAddress
          (((opened Echo.device).run resumed).2.drop 12)).map Packet.pid = [.data1] := by
    decide +kernel
  refine ⟨hopen, hinterface, ?_, ?_⟩
  · simp [resumed, DeviceStep.Lawful, HostStep.Lawful, Dpram.bufferSize]
  · intro hrestarts
    have hlog := reenumerated_of_getElem? hreset hnone hpacket ⟨by decide, by decide, by decide⟩
    obtain ⟨packet, packets, hfirst, hpid, -⟩ := List.map_eq_cons_iff.1 hpid
    have hdata := hrestarts _ _ packet packets hlog hfirst
    rw [hpid] at hdata
    cases hdata

end Device

end UsbGadget
