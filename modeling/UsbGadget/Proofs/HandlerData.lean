import Mathlib.Data.List.Induction
import UsbGadget.Proofs.EchoToken
import UsbGadget.Proofs.SeparateEndpoints

/-!
# What handlers are told

The handler of an endpoint is called with the packet that came back. Its bytes are read when the
turn of the endpoint has come, so what handlers did before in the same interrupt shows: where one of
them handed over a packet of the endpoint itself, the handler is told of that packet, and not of the
one that came back (`Endpoint.told`).

* `Session.Separate.completedData_replay` is what a log leaves of a packet that came back, if the
  endpoints are separate;
* `Session.Moves.among` keeps a log to the session's own endpoints;
* `Device.Reached.call_of_returned` is the main statement.
-/

namespace UsbGadget

/-- What the handler of an endpoint is told, when the packet memory was `m` at first and the packets
were handed over since: the last of them if there is one, where an OUT packet is what was in the
slot already. -/
def Endpoint.told (e : Endpoint) (m : Memory Dpram.size) (packets : List Packet) : List UInt8 :=
  match packets.getLast? with
  | none => e.completedData m
  | some packet =>
    match e.direction with
    | .input => packet.data
    | .output => m.readBytes e.bufferOffset packet.data.length

/-- The handlers that are called, with what they are told. -/
def calls (log : List Effect) : List (String × List UInt8) :=
  log.filterMap fun
    | .call name data _ => some (name, data)
    | _ => none

/-- An effect that hands packets over on a session's endpoints only. -/
def Effect.Among (s : Session) : Effect → Prop
  | arm e data => (∃ e₀ ∈ s.endpoints, ∃ pid, e = { e₀ with nextPid := pid }) ∧
    data.length ≤ e.maxPacketSize
  | write _ _ | heed _ | collect _ _ | call _ _ _ => True
  | reset | clear | line _ | enable _ => False

theorem Effect.Quiet.among {effect : Effect} (h : effect.Quiet) (s : Session) :
    effect.Among s := by
  cases effect with
  | write | heed | collect | call => trivial
  | arm | reset | clear | line | enable => cases h

namespace Session

variable {s s' : Session} {e e' : Endpoint}

/-! ### Slots and registers of separate endpoints -/

namespace Separate

theorem eq_of_address (h : s.Separate) (he : e ∈ s.endpoints) (he' : e' ∈ s.endpoints)
    (haddress : e'.address = e.address) : e' = e :=
  List.inj_on_of_nodup_map h.addresses he' he haddress

theorem bufferControl_ne (h : s.Separate) (he : e ∈ s.endpoints) (he' : e' ∈ s.endpoints)
    (hne : e'.address ≠ e.address) : e'.bufferControl ≠ e.bufferControl := by
  intro hcontrol
  rw [h.registers e' he', h.registers e he, hcontrol] at hne
  exact hne rfl

theorem bufferOffset_ne (h : s.Separate) (hs : Arranged s.endpoints) (he : e ∈ s.callers)
    (he' : e' ∈ s.endpoints) (hne : e'.address ≠ e.address) : e'.bufferOffset ≠ e.bufferOffset := by
  have hbuffers := h.buffers
  rw [hs.endpoints_eq] at hbuffers he'
  simp only [List.drop_succ_cons, List.drop_zero] at hbuffers
  have hout := List.mem_cons_self (a := Endpoint.ofControl .output s.pidOut) (l := s.callers)
  have hinj := List.inj_on_of_nodup_map hbuffers
  intro hoffset
  rcases List.mem_cons.1 he' with rfl | he'
  · -- the halves of endpoint 0 share their buffer, but no caller has it
    obtain ⟨handler, howner⟩ := (hs.ofCaller he).owner
    rw [← hinj hout (List.mem_cons_of_mem _ he) hoffset] at howner
    cases howner
  · exact hne (congrArg Endpoint.address (hinj he' (List.mem_cons_of_mem _ he) hoffset))

end Separate

theorem placed_with (he : e.Placed) (pid : Pid) : Endpoint.Placed { e with nextPid := pid } :=
  ⟨he.bufferControl_lt, he.le_bufferOffset, he.bufferOffset_add_le, he.aligned,
    he.maxPacketSize_le⟩

/-- Arming the endpoint itself: its handler would be told of that packet. -/
theorem completedData_arm_self (hs : Arranged s.endpoints) (he : e ∈ s.endpoints) (pid : Pid)
    {data : List UInt8} (hdata : data.length ≤ e.maxPacketSize) (m : Memory Dpram.size) :
    e.completedData (Endpoint.arm { e with nextPid := pid } data m) = e.told m [⟨pid, data⟩] := by
  have hplaced := hs.placed he
  have hplaced' := placed_with hplaced pid
  have hfits : data.length ≤ Dpram.bufferSize := Nat.le_trans hdata hplaced.maxPacketSize_le
  have hlength : e.completedLength (Endpoint.arm { e with nextPid := pid } data m) =
      data.length := by
    have hword := hplaced'.ofWord_arm data m hfits
    rw [Endpoint.completedLength, hword, Nat.min_eq_left hdata, Nat.min_eq_left hfits]
  rw [Endpoint.completedData, hlength, Endpoint.told, List.getLast?_singleton]
  cases hd : e.direction with
  | input => exact hplaced'.readBytes_arm_self data m hd hfits
  | output => exact hplaced'.readBytes_arm_output data m hd hplaced.le_bufferOffset

theorem Separate.readBytes_arm_of_ne (h : s.Separate) (hs : Arranged s.endpoints)
    (he : e ∈ s.callers) (he' : e' ∈ s.endpoints) (hne : e'.address ≠ e.address) (pid : Pid)
    {data : List UInt8} (hdata : data.length ≤ e'.maxPacketSize) (m : Memory Dpram.size)
    {count : Nat} (hcount : count ≤ Dpram.bufferSize) :
    (Endpoint.arm { e' with nextPid := pid } data m).readBytes e.bufferOffset count =
      m.readBytes e.bufferOffset count := by
  have hplaced := hs.placed (List.mem_of_mem_drop he)
  have hplaced' := hs.placed he'
  have hoffset : e'.bufferOffset ≠ e.bufferOffset := h.bufferOffset_ne hs he he' hne
  exact (placed_with hplaced' pid).readBytes_arm_of_ne data m
    (Nat.le_trans hdata hplaced'.maxPacketSize_le) hplaced.le_bufferOffset hplaced.aligned hcount
    hoffset

theorem Separate.completedData_arm_of_ne (h : s.Separate) (hs : Arranged s.endpoints)
    (he : e ∈ s.callers) (he' : e' ∈ s.endpoints) (hne : e'.address ≠ e.address) (pid : Pid)
    {data : List UInt8} (hdata : data.length ≤ e'.maxPacketSize) (m : Memory Dpram.size) :
    e.completedData (Endpoint.arm { e' with nextPid := pid } data m) = e.completedData m := by
  have hmem : e ∈ s.endpoints := List.mem_of_mem_drop he
  have hword := ((placed_with (hs.placed he') pid).word_arm data m
    (hs.placed hmem).bufferControl_lt).trans
    (if_neg (h.bufferControl_ne hmem he' hne).symm)
  have hlength : e.completedLength (Endpoint.arm { e' with nextPid := pid } data m) =
      e.completedLength m := by rw [Endpoint.completedLength, hword, Endpoint.completedLength]
  rw [Endpoint.completedData, hlength, Endpoint.completedData]
  exact h.readBytes_arm_of_ne hs he he' hne pid hdata m (Nat.min_le_right _ _)

/-! ### Logs -/

variable {σ : Type} [Board σ]

/-- The slot of an OUT endpoint is the host's to fill. -/
theorem Separate.readBytes_replay (h : s.Separate) (hs : Arranged s.endpoints) (he : e ∈ s.callers)
    (hout : e.direction = .output) {log : List Effect} (hlog : ∀ effect ∈ log, effect.Among s)
    (hw : Hardware σ) {count : Nat} (hcount : count ≤ Dpram.bufferSize) :
    (replay log hw).dpram.readBytes e.bufferOffset count =
      hw.dpram.readBytes e.bufferOffset count := by
  have hmem : e ∈ s.endpoints := List.mem_of_mem_drop he
  refine replay_preserves (P := fun hw' => hw'.dpram.readBytes e.bufferOffset count =
    hw.dpram.readBytes e.bufferOffset count) ?_ rfl
  intro effect heffect hw' hsame
  cases effect with
  | write | heed | collect | call => exact hsame
  | reset | clear | line | enable => cases hlog _ heffect
  | arm e' data =>
    obtain ⟨⟨e₀, he₀, pid, rfl⟩, hdata⟩ := hlog _ heffect
    rw [Effect.dpram_apply_arm, ← hsame]
    by_cases haddress : e₀.address = e.address
    · obtain rfl := h.eq_of_address hmem he₀ haddress
      exact (placed_with (hs.placed hmem) pid).readBytes_arm_output data _ hout
        (hs.placed hmem).le_bufferOffset
    · exact h.readBytes_arm_of_ne hs he he₀ haddress pid hdata _ hcount

/-- A log of the session's own endpoints leaves of a packet that came back what the handler is told
of. -/
theorem Separate.completedData_replay (h : s.Separate) (hs : Arranged s.endpoints)
    (he : e ∈ s.callers) {log : List Effect} (hlog : ∀ effect ∈ log, effect.Among s)
    (hw : Hardware σ) :
    e.completedData (replay log hw).dpram =
      e.told hw.dpram (handedOver e.interface e.address log) := by
  have hmem : e ∈ s.endpoints := List.mem_of_mem_drop he
  -- the last packet of the endpoint counts, so the induction takes effects from the end
  induction log using List.reverseRecOn with
  | nil => rfl
  | append_singleton log effect ih =>
    rw [List.forall_mem_append, List.forall_mem_singleton] at hlog
    obtain ⟨hlog, heffect⟩ := hlog
    have hkept := ih hlog
    rw [replay_append, handedOver_append]
    cases effect with
    | reset | clear | line | enable => cases heffect
    | write | heed | collect | call =>
      rw [show handedOver e.interface e.address [_] = [] from rfl, List.append_nil]
      exact hkept
    | arm e' data =>
      obtain ⟨⟨e₀, he₀, pid, rfl⟩, hdata⟩ := heffect
      rw [replay_cons, replay_nil, Effect.dpram_apply_arm]
      by_cases haddress : e₀.address = e.address
      · obtain rfl := h.eq_of_address hmem he₀ haddress
        have hlast : handedOver e₀.interface e₀.address
            [.arm { e₀ with nextPid := pid } data] = [⟨pid, data⟩] :=
          List.filterMap_cons_some (if_pos ⟨rfl, rfl⟩)
        rw [hlast, completedData_arm_self hs hmem pid hdata, Endpoint.told, Endpoint.told,
          List.getLast?_concat, List.getLast?_singleton]
        cases hd : e₀.direction with
        | input => rfl
        | output =>
          exact h.readBytes_replay hs he hd hlog hw
            (Nat.le_trans hdata (hs.placed hmem).maxPacketSize_le)
      · have hnone : handedOver e.interface e.address
            [.arm { e₀ with nextPid := pid } data] = [] :=
          List.filterMap_cons_none (if_neg fun hkey => haddress hkey.2)
        rw [hnone, List.append_nil, ← hkept]
        exact h.completedData_arm_of_ne hs he he₀ haddress pid hdata _

/-! ### What a session does -/

theorem Separate.of_same (h : s.Separate) (hsame : s.Same s') : s'.Separate := by
  have hfixed {α : Type} (f : Endpoint → α) (hf : ∀ e, f e.fixed = f e) :
      s'.endpoints.map f = s.endpoints.map f := by
    have hmap (l : List Endpoint) : (l.map Endpoint.fixed).map f = l.map f := by
      rw [List.map_map]
      exact List.map_congr_left fun e _ => hf e
    rw [← hmap, hsame.endpoints, hmap]
  refine ⟨?_, ?_, ?_⟩
  · rw [hfixed _ fun _ => rfl]
    exact h.addresses
  · intro e' he'
    obtain ⟨e, he, heq⟩ := hsame.mem he'
    rw [heq]
    exact h.registers e he
  · rw [List.map_drop, hfixed _ fun _ => rfl, ← List.map_drop]
    exact h.buffers

theorem Arranged.mem_callers (hs : Arranged s.endpoints) (he : e ∈ s.endpoints)
    {handler : Option Handler} (howner : e.owner = .caller handler) : e ∈ s.callers := by
  rw [hs.endpoints_eq, List.mem_cons, List.mem_cons] at he
  rcases he with rfl | rfl | he
  · cases howner
  · cases howner
  · exact he

theorem Same.mem_later (hsame : s.Same s') (he : e ∈ s.endpoints) :
    ∃ pid, { e with nextPid := pid } ∈ s'.endpoints := by
  have hmem := List.mem_map_of_mem (f := Endpoint.fixed) he
  rw [← hsame.endpoints] at hmem
  obtain ⟨e', he', hfixed⟩ := List.mem_map.1 hmem
  refine ⟨e'.nextPid, ?_⟩
  rw [← Endpoint.eq_of_fixed hfixed]
  exact he'

theorem among_of_same (hsame : s.Same s') {effect : Effect} (h : effect.Among s') :
    effect.Among s := by
  cases effect with
  | write | heed | collect | call => trivial
  | reset | clear | line | enable => cases h
  | arm e data =>
    obtain ⟨⟨e', he', pid, rfl⟩, hdata⟩ := h
    obtain ⟨e, he, heq⟩ := hsame.mem he'
    rw [heq] at hdata ⊢
    exact ⟨⟨e, he, pid, rfl⟩, hdata⟩

/-- Whatever a session does, it hands over packets of its own endpoints. -/
theorem Moves.among {result : Session × List Effect} (h : s.Moves result) :
    ∀ effect ∈ result.2, effect.Among s := by
  induction h with
  | still s => exact List.forall_mem_nil _
  | control c _ ih => exact ih
  | @restart s _ position _ pid _ ih =>
    exact fun effect heffect => among_of_same (s.same_setPid position pid) (ih effect heffect)
  | quiet heffect _ ih => exact List.forall_mem_cons.2 ⟨heffect.among _, ih⟩
  | arm he _ data _ ih =>
    refine List.forall_mem_cons.2 ⟨⟨⟨_, List.mem_of_getElem? he, _, rfl⟩, ?_⟩,
      fun effect heffect => among_of_same (same_advance he) (ih effect heffect)⟩
    rw [Endpoint.length_clip]
    exact Nat.min_le_left _ _

theorem Separate.find?_eq (h : s.Separate) (he : e ∈ s.endpoints) :
    s.endpoints.find? (·.address == e.address) = some e := by
  cases hfind : s.endpoints.find? (·.address == e.address) with
  | none => exact absurd (beq_self_eq_true e.address) (List.find?_eq_none.1 hfind e he)
  | some e' =>
    have haddress : e'.address = e.address := by simpa using List.find?_some hfind
    rw [h.eq_of_address he (List.mem_of_find?_eq_some hfind) haddress]

theorem Separate.react_buffer (h : s.Separate) (he : e ∈ s.endpoints) {handler : Handler}
    (howner : e.owner = .caller (some handler)) {i : Nat} (hi : e.address = Event.bufferAddress i)
    (m : Memory Dpram.size) :
    ∃ answers log, (s.react m (.buffer i)).2 =
      .collect e (e.completedData m) :: .call handler.name (e.completedData m) answers :: log := by
  simp only [react, ← hi, h.find?_eq he, completed, howner]
  exact ⟨_, _, rfl⟩

end Session

/-! ### Interrupts -/

namespace Device

variable {σ : Type} [Board σ] {d : Device σ} {s : Session} {description : DeviceDescription}

theorem among_handleAll (h : d.session = some s) (hs : Session.Arranged s.endpoints)
    (events : List Event) : ∀ effect ∈ (d.handleAll events).2, effect.Among s := by
  induction events generalizing d s with
  | nil => exact List.forall_mem_nil _
  | cons event events ih =>
    have hkept := Session.kept_react hs d.hw.dpram event
    have hrest := ih (d := (d.handle event).1) (by rw [handle_eq h, session_after])
      (hs.of_map_fixed hkept.same.endpoints)
    rw [handleAll_cons, List.forall_mem_append, handle_eq h, List.forall_mem_cons]
    refine ⟨⟨?_, (s.moves_react d.hw.dpram event).among⟩, ?_⟩
    · cases event <;> trivial
    · rw [handle_eq h] at hrest
      exact fun effect heffect => Session.among_of_same hkept.same (hrest effect heffect)

/-- A buffer of a caller's endpoint is handled after other events: what they handed over on the
endpoint decides what the handler is told. -/
theorem Active.call_handleAll (hd : d.Active s) (hseparate : s.Separate) {e : Endpoint}
    (he : e ∈ s.endpoints) {handler : Handler} (howner : e.owner = .caller (some handler)) {i : Nat}
    (hi : e.address = Event.bufferAddress i) (events events' : List Event) {data : List UInt8}
    (hdata : data = e.told d.hw.dpram (handedOver e.interface e.address (d.handleAll events).2)) :
    ∃ pid answers after, (d.handleAll (events ++ .buffer i :: events')).2 =
      (d.handleAll events).2 ++ (Event.buffer i).acknowledge ::
        .collect { e with nextPid := pid } data :: .call handler.name data answers :: after := by
  obtain ⟨s', hsame, hactive⟩ := hd.handleAll events
  obtain ⟨pid, he'⟩ := hsame.mem_later he
  have harranged := hd.sound.arranged
  have hread : e.completedData (d.handleAll events).1.hw.dpram = data := by
    rw [hw_handleAll, hdata]
    exact hseparate.completedData_replay harranged (harranged.mem_callers he howner)
      (among_handleAll hd.session harranged events) d.hw
  obtain ⟨answers, log, hreact⟩ := (hseparate.of_same hsame).react_buffer he' howner hi
    (d.handleAll events).1.hw.dpram
  -- the identifier of the next packet does not count for what is read
  rw [show Endpoint.completedData { e with nextPid := pid } (d.handleAll events).1.hw.dpram = data
    from hread] at hreact
  have hhandle := congrArg Prod.snd (handle_eq hactive.session (.buffer i))
  simp only [hreact] at hhandle
  refine ⟨pid, answers,
    log ++ (((d.handleAll events).1.handle (.buffer i)).1.handleAll events').2, ?_⟩
  rw [handleAll_append, handleAll_cons, hhandle]
  rfl

/-- While an interrupt is serviced, the handler of an endpoint whose packet has come back is called
with the packet, as it was when the interrupt began, unless a handler before it has handed over
another packet of that endpoint: then it is called with the last of those. -/
theorem Reached.call_of_returned (hd : d.Reached description) (hseparate : description.Separate)
    (hs : d.session = some s) {e : Endpoint} (he : e ∈ s.endpoints) {handler : Handler}
    (howner : e.owner = .caller (some handler)) {i : Nat} (hi : e.address = Event.bufferAddress i)
    (hreturned : i ∈ d.hw.toController.returned) :
    ∃ before pid data answers after, d.interrupt.2 =
        before ++ (Event.buffer i).acknowledge :: .collect { e with nextPid := pid } data ::
          .call handler.name data answers :: after ∧
      data = e.told d.hw.dpram (handedOver e.interface e.address before) ∧
      (handedOver e.interface e.address before = [] → data = e.completedData d.hw.dpram) := by
  obtain ⟨s₀, s₁, h₀, hsame₀, hservice⟩ := hd.inService
  obtain rfl : s₁ = s := Option.some.inj (hservice.session.symm.trans hs)
  have hseparate₁ := (Session.separate_ofDescription h₀ hseparate).of_same hsame₀
  have hpending : Event.buffer i ∈ d.pending := by
    rw [pending_eq hservice.ready]
    exact List.mem_append_left _ (List.mem_append_right _ (List.mem_map_of_mem hreturned))
  obtain ⟨events, events', hevents⟩ := List.append_of_mem hpending
  obtain ⟨pid, answers, after, hlog⟩ :=
    hservice.active.call_handleAll hseparate₁ he howner hi events events' rfl
  refine ⟨(d.handleAll events).2, pid, _, answers, after, ?_, rfl, ?_⟩
  · rw [interrupt, hevents, hlog]
  · intro hnone
    rw [hnone]
    rfl

/-! ### A packet that another one has overtaken -/

theorem separate_echo : Echo.device.Separate := ⟨by decide, by decide, by decide⟩

theorem Reached.sender_mem (hd : d.Reached Echo.device) (hs : d.session = some s) :
    ∃ pid, Echo.sender pid ∈ s.endpoints := by
  obtain ⟨s₀, s₁, h₀, hsame, hservice⟩ := hd.inService
  obtain rfl : s₁ = s := Option.some.inj (hservice.session.symm.trans hs)
  have hcallers := Echo.callers_ofDescription
  rw [h₀] at hcallers
  have hmem : Echo.sender .data0 ∈ s₀.callers := by
    rw [Except.ok.inj hcallers]
    exact List.mem_cons_of_mem _ (List.mem_singleton_self _)
  exact hsame.mem_later (List.mem_of_mem_drop hmem)

/-- The echo device sends one packet while it makes ready for another one; the host fetches the
first and delivers the second before the interrupt is serviced. -/
def overtaken : Device Bench :=
  ((opened Echo.device).run [.submit Echo.interface Echo.inAddress [1, 2, 3],
    .submit Echo.interface Echo.outAddress Echo.room,
    .host (.complete Echo.inAddress [] false),
    .host (.complete Echo.outAddress [4, 5, 6] false)]).1

theorem reached_overtaken : Reached Echo.device overtaken :=
  (reached_opened (by decide +kernel)).run
    (by simp [DeviceStep.Lawful, HostStep.Lawful, Dpram.bufferSize])

theorem returned_overtaken :
    overtaken.hw.toController.returned = [Echo.outIndex, Echo.inIndex] := by decide +kernel

theorem call_of_overtaken :
    ∃ e : Endpoint, e.owner = .caller (some Echo.listen) ∧
      ∃ before pid data answers after, overtaken.interrupt.2 =
          before ++ (Event.buffer Echo.inIndex).acknowledge ::
            .collect { e with nextPid := pid } data ::
              .call Echo.listen.name data answers :: after ∧
        data = e.told overtaken.hw.dpram (handedOver e.interface e.address before) ∧
        (handedOver e.interface e.address before = [] →
          data = e.completedData overtaken.hw.dpram) := by
  obtain ⟨-, s, -, -, hservice⟩ := reached_overtaken.inService
  obtain ⟨pid, hmem⟩ := reached_overtaken.sender_mem hservice.session
  have hreturned : Echo.inIndex ∈ overtaken.hw.toController.returned := by
    rw [returned_overtaken]
    exact List.mem_cons_of_mem _ (List.mem_singleton_self _)
  refine ⟨Echo.sender pid, rfl, ?_⟩
  exact reached_overtaken.call_of_returned separate_echo hservice.session hmem rfl rfl hreturned

/-- The handler of the packet that has gone out is told of the one that goes out next. -/
theorem overtaken_told_of_next :
    Reached Echo.device overtaken ∧ Echo.device.Separate ∧
      overtaken.hw.toController.returned = [Echo.outIndex, Echo.inIndex] ∧
      (∃ s, overtaken.session = some s ∧ ∃ e ∈ s.endpoints,
        e.address = Event.bufferAddress Echo.inIndex ∧ e.owner = .caller (some Echo.listen) ∧
          e.completedData overtaken.hw.dpram = [1, 2, 3]) ∧
      calls overtaken.interrupt.2 =
        [(Echo.sendBack.name, [4, 5, 6]), (Echo.listen.name, [4, 5, 6])] := by
  obtain ⟨-, s, -, -, hservice⟩ := reached_overtaken.inService
  obtain ⟨pid, hmem⟩ := reached_overtaken.sender_mem hservice.session
  obtain ⟨hentry, hcalls⟩ :
      (Echo.sender .data0).completedData overtaken.hw.dpram = [1, 2, 3] ∧
        calls overtaken.interrupt.2 =
          [(Echo.sendBack.name, [4, 5, 6]), (Echo.listen.name, [4, 5, 6])] := by
    decide +kernel
  exact ⟨reached_overtaken, separate_echo, returned_overtaken,
    ⟨s, hservice.session, Echo.sender pid, hmem, rfl, rfl, hentry⟩, hcalls⟩

end Device

end UsbGadget
