import UsbGadget.Proofs.InService
import UsbGadget.Proofs.Requests

/-!
# Endpoint 0 by itself

`Ep0` is the part of an open device that control transfers are about: the control machine, the
identifiers of the next packets, the address register, the two buffer control words of endpoint 0
and its buffer. `Ep0.react` is what an event does to that part.

* `Ep0.of` is the abstraction: endpoint 0 of a session on a controller;
* `Session.Spares` are the programs of handlers that leave endpoint 0 alone;
* `Device.Active.ep0_handle` is the step lemma: handling an event is one step of `Ep0`;
* `Device.InService.ep0_service` is the same for an interrupt with all its events.
-/

namespace UsbGadget

/-- All of an open device that control transfers are about. -/
structure Ep0 where
  /-- The control machine. -/
  control : Control
  /-- Identifier of the next IN packet. -/
  pidIn : Pid
  /-- Identifier of the next OUT packet. -/
  pidOut : Pid
  /-- The device's address, in its register. -/
  address : Word
  /-- The buffer control word of the IN half. -/
  inWord : Word
  /-- The buffer control word of the OUT half. -/
  outWord : Word
  /-- The buffer that both halves share. -/
  buffer : List UInt8
deriving DecidableEq

attribute [ext] Ep0

namespace Ep0

/-- Address of the IN half. -/
def inAddress : UInt8 := Direction.input.address 0

/-- Address of the OUT half. -/
def outAddress : UInt8 := Direction.output.address 0

/-- Hands an IN packet over. -/
def armIn (v : Ep0) (data : List UInt8) : Ep0 :=
  let packet := data.take packetLimit
  { v with
    pidIn := v.pidIn.next
    inWord := BufferControl.word ⟨true, v.pidIn, true, packet.length⟩
    buffer := packet ++ v.buffer.drop packet.length }

theorem armIn_of_le (v : Ep0) {data : List UInt8} (hdata : data.length ≤ packetLimit) :
    v.armIn data =
      { v with
        pidIn := v.pidIn.next
        inWord := BufferControl.word ⟨true, v.pidIn, true, data.length⟩
        buffer := data ++ v.buffer.drop data.length } := by
  rw [armIn, List.take_of_length_le hdata]

/-- Makes ready for the host's empty packet. -/
def armOut (v : Ep0) : Ep0 :=
  { v with
    pidOut := v.pidOut.next
    outWord := BufferControl.word ⟨false, v.pidOut, true, 0⟩ }

/-- Goes on from a step of the control machine. -/
def proceed (v : Ep0) (step : Control × Reply) : Ep0 :=
  let v := { v with control := step.1 }
  match step.2 with
  | .silent => v
  | .send data => v.armIn data
  | .receive => v.armOut
  | .moveTo address => { v with address := UInt32.ofNat address.toNat }

/-- A SETUP packet has come in. -/
def setup (v : Ep0) (set : DescriptorSet) (p : SetupPacket) : Ep0 :=
  { v with pidIn := .data1, pidOut := .data1 }.proceed (v.control.setup set packetLimit p)

/-- A packet has gone out. -/
def sent (v : Ep0) : Ep0 := v.proceed v.control.sent

/-- The host's packet has come in. -/
def received (v : Ep0) : Ep0 := v.proceed v.control.received

/-- The host has reset the bus. -/
def busReset (v : Ep0) : Ep0 := v.proceed v.control.busReset

theorem proceed_send (v : Ep0) (c : Control) (data : List UInt8) :
    v.proceed (c, .send data) = { v with control := c }.armIn data := rfl

@[simp] theorem control_proceed (v : Ep0) (step : Control × Reply) :
    (v.proceed step).control = step.1 := by
  obtain ⟨control, reply⟩ := step
  cases reply <;> rfl

@[simp] theorem control_setup (v : Ep0) (set : DescriptorSet) (p : SetupPacket) :
    (v.setup set p).control = (v.control.setup set packetLimit p).1 := control_proceed _ _

/-- What an event does, with `p` the SETUP packet in memory. -/
def react (set : DescriptorSet) (p : SetupPacket) (v : Ep0) : Event → Ep0
  | .setup => v.setup set p
  | .buffer 0 => v.sent
  | .buffer 1 => v.received
  | .buffer _ => v
  | .busReset => v.busReset

end Ep0

/-! ### The endpoints of a session -/

namespace Session

/-- Identifier of the next IN packet of endpoint 0. -/
def pidIn (s : Session) : Pid := (s.endpoints[ep0In]?.map Endpoint.nextPid).getD .data0

/-- Identifier of the next OUT packet of endpoint 0. -/
def pidOut (s : Session) : Pid := (s.endpoints[ep0Out]?.map Endpoint.nextPid).getD .data0

/-- The endpoints after those of endpoint 0. -/
def callers (s : Session) : List Endpoint := s.endpoints.drop 2

theorem Arranged.endpoints_eq {s : Session} (h : Arranged s.endpoints) :
    s.endpoints = .ofControl .input s.pidIn :: .ofControl .output s.pidOut :: s.callers := by
  obtain ⟨c, set, endpoints, k⟩ := s
  obtain ⟨pidIn, pidOut, rest, rfl, -⟩ := h
  rfl

theorem Arranged.ofCaller {s : Session} (h : Arranged s.endpoints) {e : Endpoint}
    (he : e ∈ s.callers) : e.OfCaller := by
  obtain ⟨c, set, endpoints, k⟩ := s
  obtain ⟨pidIn, pidOut, rest, rfl, hrest⟩ := h
  exact hrest e he

theorem arm_ep0In {s : Session} (h : Arranged s.endpoints) (data : List UInt8) :
    s.arm ep0In data =
      ({ s with endpoints :=
          .ofControl .input s.pidIn.next :: .ofControl .output s.pidOut :: s.callers },
        [.arm (.ofControl .input s.pidIn) (data.take packetLimit)]) := by
  obtain ⟨c, set, endpoints, k⟩ := s
  obtain ⟨pidIn, pidOut, rest, rfl, -⟩ := h
  rfl

theorem arm_ep0Out {s : Session} (h : Arranged s.endpoints) :
    s.arm ep0Out [] =
      ({ s with endpoints :=
          .ofControl .input s.pidIn :: .ofControl .output s.pidOut.next :: s.callers },
        [.arm (.ofControl .output s.pidOut) []]) := by
  obtain ⟨c, set, endpoints, k⟩ := s
  obtain ⟨pidIn, pidOut, rest, rfl, -⟩ := h
  rfl

theorem setPid_ep0 {s : Session} (h : Arranged s.endpoints) :
    (s.setPid ep0In .data1).setPid ep0Out .data1 =
      { s with endpoints :=
          .ofControl .input .data1 :: .ofControl .output .data1 :: s.callers } := by
  obtain ⟨c, set, endpoints, k⟩ := s
  obtain ⟨pidIn, pidOut, rest, rfl, -⟩ := h
  rfl

theorem Arranged.replace {s : Session} (h : Arranged s.endpoints) (pidIn pidOut : Pid) :
    Arranged (.ofControl .input pidIn :: .ofControl .output pidOut :: s.callers) :=
  ⟨pidIn, pidOut, s.callers, rfl, fun _ he => h.ofCaller he⟩

theorem setup_eq {s : Session} (h : Arranged s.endpoints) (p : SetupPacket) :
    s.setup p =
      ({ s with endpoints :=
          .ofControl .input .data1 :: .ofControl .output .data1 :: s.callers } : Session).proceed
        (s.control.setup s.descriptors packetLimit p) := by
  unfold setup
  simp only
  rw [setPid_ep0 h]
  rfl

@[simp] theorem control_arm (s : Session) (position : Nat) (data : List UInt8) :
    (s.arm position data).1.control = s.control := by
  unfold arm
  cases s.endpoints[position]? <;> rfl

@[simp] theorem control_proceed (s : Session) (step : Control × Reply) :
    (s.proceed step).1.control = step.1 := by
  unfold proceed
  cases step.2 with
  | silent | moveTo => rfl
  | send | receive => exact control_arm _ _ _

theorem control_setup {s : Session} (h : Arranged s.endpoints) (p : SetupPacket) :
    (s.setup p).1.control = (s.control.setup s.descriptors packetLimit p).1 := by
  rw [setup_eq h, control_proceed]

theorem proceed_send {s : Session} (h : Arranged s.endpoints) (c : Control) (data : List UInt8) :
    s.proceed (c, .send data) =
      ({ s with
          endpoints := .ofControl .input s.pidIn.next :: .ofControl .output s.pidOut :: s.callers
          control := c },
        [.arm (.ofControl .input s.pidIn) (data.take packetLimit)]) :=
  arm_ep0In (show Arranged ({ s with control := c } : Session).endpoints from h) data

theorem proceed_receive {s : Session} (h : Arranged s.endpoints) (c : Control) :
    s.proceed (c, .receive) =
      ({ s with
          endpoints := .ofControl .input s.pidIn :: .ofControl .output s.pidOut.next :: s.callers
          control := c },
        [.arm (.ofControl .output s.pidOut) []]) :=
  arm_ep0Out (show Arranged ({ s with control := c } : Session).endpoints from h)

/-- A packet that has gone out while an address is pending moves to the address. -/
theorem proceed_sent_of_pending {s : Session} (hpending : s.control.addressPending = true) :
    s.proceed s.control.sent =
      ({ s with control := { s.control with phase := .idle, addressPending := false } },
        [.write .addrEndp (UInt32.ofNat (UInt8.ofNat (s.control.address.toNat % 128)).toNat)]) := by
  simp only [Control.sent, hpending, if_true]
  rfl

/-- Any other packet that has gone out has a further one handed over. -/
theorem sent_log {s : Session} (h : Arranged s.endpoints)
    (hpending : s.control.addressPending = false) :
    ∃ e data, (s.proceed s.control.sent).2 = [.arm e data] := by
  unfold Control.sent
  rw [if_neg (by rw [hpending]; exact Bool.false_ne_true)]
  split_ifs
  · exact ⟨_, _, by rw [proceed_send h]⟩
  · exact ⟨_, _, by rw [proceed_receive h]⟩
  · exact ⟨_, _, by rw [proceed_receive h]⟩

/-- A SETUP packet has at most one packet of endpoint 0 handed over. -/
theorem setup_log {s : Session} (h : Arranged s.endpoints) (p : SetupPacket) :
    (s.setup p).2 = [] ∨ ∃ data, (s.setup p).2 = [.arm (.ofControl .input .data1) data] := by
  rw [setup_eq h]
  generalize hstep : s.control.setup s.descriptors packetLimit p = step
  obtain ⟨c, reply⟩ := step
  rcases s.control.setup_reply s.descriptors packetLimit p with hreply | ⟨data, hreply⟩
  · rw [hstep] at hreply
    obtain rfl : reply = .silent := hreply
    exact .inl rfl
  · rw [hstep] at hreply
    obtain rfl : reply = .send data := hreply
    rw [proceed_send (h.replace .data1 .data1)]
    exact .inr ⟨_, rfl⟩

theorem react_sent {s : Session} (h : Arranged s.endpoints) (m : Memory Dpram.size) :
    s.react m (.buffer 0) =
      ((s.proceed s.control.sent).1,
        .collect (.ofControl .input s.pidIn)
            ((Endpoint.ofControl .input s.pidIn).completedData m) ::
          (s.proceed s.control.sent).2) := by
  have hfind : s.endpoints.find? (·.address == Event.bufferAddress 0) =
      some (.ofControl .input s.pidIn) := by
    rw [h.endpoints_eq]
    rfl
  simp only [react, hfind]
  rfl

theorem react_received {s : Session} (h : Arranged s.endpoints) (m : Memory Dpram.size) :
    s.react m (.buffer 1) =
      ({ s with control := s.control.received.1 },
        [.collect (.ofControl .output s.pidOut)
          ((Endpoint.ofControl .output s.pidOut).completedData m)]) := by
  have hfind : s.endpoints.find? (·.address == Event.bufferAddress 1) =
      some (.ofControl .output s.pidOut) := by
    rw [h.endpoints_eq]
    rfl
  simp only [react, hfind]
  rfl

end Session

/-! ### The abstraction -/

namespace Ep0

/-- Endpoint 0 of a session on a controller. -/
def of (s : Session) (c : Controller) : Ep0 where
  control := s.control
  pidIn := s.pidIn
  pidOut := s.pidOut
  address := c.read .addrEndp
  inWord := c.bufferControl 0
  outWord := c.bufferControl 1
  buffer := c.dpram.readBytes Dpram.ep0Buffer Dpram.bufferSize

theorem of_eq_of {s : Session} {c c' : Controller}
    (haddress : c'.read .addrEndp = c.read .addrEndp)
    (hin : c'.bufferControl 0 = c.bufferControl 0) (hout : c'.bufferControl 1 = c.bufferControl 1)
    (hbuffer : c'.dpram.readBytes Dpram.ep0Buffer Dpram.bufferSize =
      c.dpram.readBytes Dpram.ep0Buffer Dpram.bufferSize) : of s c' = of s c := by
  rw [of, of, haddress, hin, hout, hbuffer]

theorem of_eq_of_dpram (s : Session) {c c' : Controller}
    (haddress : c'.read .addrEndp = c.read .addrEndp) (hdpram : c'.dpram = c.dpram) :
    of s c' = of s c := by
  rw [of, of, haddress, Controller.bufferControl, Controller.bufferControl, hdpram]
  rfl

theorem of_write_addrEndp (s : Session) (c : Controller) (w : Word) :
    of s (c.write .addrEndp w) = { of s c with address := w } := by
  rw [of, of, Controller.read_write, Controller.bufferControl_write, Controller.bufferControl_write,
    Controller.dpram_write]

theorem of_congr {s s' : Session} (c : Controller) (hcontrol : s'.control = s.control)
    (hin : s'.pidIn = s.pidIn) (hout : s'.pidOut = s.pidOut) : of s' c = of s c := by
  rw [of, of, hcontrol, hin, hout]

variable {σ : Type} [Board σ] {s : Session}

theorem of_armIn (hs : Session.Arranged s.endpoints) (h : Hardware σ) (data : List UInt8) :
    of (s.arm Session.ep0In data).1 (replay (s.arm Session.ep0In data).2 h).toController =
      (of s h.toController).armIn data := by
  have hplaced := Endpoint.placed_ofControl .input s.pidIn
  have hlen : (data.take packetLimit).length ≤ Dpram.bufferSize := by
    rw [List.length_take]
    exact Nat.min_le_left _ _
  rw [Session.arm_ep0In hs, replay_cons, replay_nil, Effect.apply]
  ext1
  case control => rfl
  case pidIn => rfl
  case pidOut => rfl
  case address => exact Controller.read_of_regs (Effect.regs_mapDpram h _) _
  case inWord => exact (hplaced.word_arm _ _ (by decide)).trans (if_pos rfl)
  case outWord => exact (hplaced.word_arm _ _ (by decide)).trans (if_neg Nat.one_ne_zero)
  case buffer => exact hplaced.readBytes_arm _ _ rfl hlen

theorem of_armOut (hs : Session.Arranged s.endpoints) (h : Hardware σ) :
    of (s.arm Session.ep0Out []).1 (replay (s.arm Session.ep0Out []).2 h).toController =
      (of s h.toController).armOut := by
  have hplaced := Endpoint.placed_ofControl .output s.pidOut
  rw [Session.arm_ep0Out hs, replay_cons, replay_nil, Effect.apply]
  ext1
  case control => rfl
  case pidIn => rfl
  case pidOut => rfl
  case address => exact Controller.read_of_regs (Effect.regs_mapDpram h _) _
  case inWord => exact (hplaced.word_arm _ _ (by decide)).trans (if_neg Nat.zero_ne_one)
  case outWord => exact (hplaced.word_arm _ _ (by decide)).trans (if_pos rfl)
  case buffer => exact hplaced.readBytes_arm_output _ _ rfl (Nat.le_refl _)

theorem of_proceed (hs : Session.Arranged s.endpoints) (h : Hardware σ) (step : Control × Reply) :
    of (s.proceed step).1 (replay (s.proceed step).2 h).toController =
      (of s h.toController).proceed step := by
  have hs' : Session.Arranged ({ s with control := step.1 } : Session).endpoints := hs
  obtain ⟨control, reply⟩ := step
  cases reply with
  | silent => rfl
  | send data => exact of_armIn hs' h data
  | receive => exact of_armOut hs' h
  | moveTo address => exact of_write_addrEndp _ _ _

theorem of_setup (hs : Session.Arranged s.endpoints) (h : Hardware σ) (p : SetupPacket) :
    of (s.setup p).1 (replay (s.setup p).2 h).toController =
      (of s h.toController).setup s.descriptors p := by
  rw [Session.setup_eq hs]
  exact of_proceed (hs.replace .data1 .data1) h _

end Ep0

/-! ### Handlers that leave endpoint 0 alone -/

namespace Endpoint

/-- The endpoint shares neither its buffer nor its buffer control register with endpoint 0. -/
structure Apart (e : Endpoint) : Prop where
  /-- Its buffer is another one. -/
  bufferOffset : e.bufferOffset ≠ Dpram.ep0Buffer
  /-- Its register is not that of the IN half. -/
  ne_input : e.bufferControl ≠ 0
  /-- Its register is not that of the OUT half. -/
  ne_output : e.bufferControl ≠ 1

theorem not_apart_ofControl (d : Direction) (pid : Pid) : ¬(ofControl d pid).Apart :=
  fun h => h.bufferOffset rfl

end Endpoint

namespace Session

theorem Arranged.interface_ne {s : Session} (h : Arranged s.endpoints) {e : Endpoint}
    (happart : e.Apart) (he : e ∈ s.endpoints) : e.interface ≠ 0 := by
  rw [h.endpoints_eq, List.mem_cons, List.mem_cons] at he
  rcases he with rfl | rfl | he
  · exact absurd happart (Endpoint.not_apart_ofControl _ _)
  · exact absurd happart (Endpoint.not_apart_ofControl _ _)
  · exact (h.ofCaller he).interface

/-- The program submits packets only on endpoints that are apart from endpoint 0, whatever it
learns on the way. -/
def Spares (s : Session) : Program → Prop
  | .done => True
  | .askConfigured next => ∀ answer, s.Spares (next answer)
  | .submit interface address _ next =>
    (∀ e ∈ s.endpoints, e.interface = interface → e.address = address → e.Apart) ∧
      ∀ answer, s.Spares (next answer)

/-- An event whose handler, if there is one, leaves endpoint 0 alone. -/
def SparesEvent (s : Session) : Event → Prop
  | .buffer index => 2 ≤ index → ∀ e ∈ s.endpoints, ∀ handler,
      e.address = Event.bufferAddress index → e.owner = .caller (some handler) →
        ∀ data, s.Spares (handler.onData data)
  | .setup | .busReset => True

theorem Same.mem {s s' : Session} (h : s.Same s') {e' : Endpoint} (he' : e' ∈ s'.endpoints) :
    ∃ e ∈ s.endpoints, e' = { e with nextPid := e'.nextPid } := by
  obtain ⟨i, hi⟩ := List.mem_iff_getElem?.1 he'
  obtain ⟨e, he, heq⟩ := h.getElem? hi
  exact ⟨e, List.mem_of_getElem? he, heq⟩

theorem Spares.of_same {s s' : Session} (h : s.Same s') {p : Program} (hp : s.Spares p) :
    s'.Spares p := by
  induction p with
  | done => trivial
  | askConfigured next ih => exact fun answer => ih answer (hp answer)
  | submit interface address data next ih =>
    refine ⟨?_, fun answer => ih answer (hp.2 answer)⟩
    intro e' he' hi ha
    obtain ⟨e, he, heq⟩ := h.mem he'
    rw [heq] at hi ha ⊢
    have hapart := hp.1 e he hi ha
    exact ⟨hapart.bufferOffset, hapart.ne_input, hapart.ne_output⟩

theorem SparesEvent.of_same {s s' : Session} (h : s.Same s') {event : Event}
    (hevent : s.SparesEvent event) : s'.SparesEvent event := by
  cases event with
  | setup | busReset => trivial
  | buffer index =>
    intro hindex e' he' handler ha ho data
    obtain ⟨e, he, heq⟩ := h.mem he'
    rw [heq] at ha ho
    exact (hevent hindex e he handler ha ho data).of_same h

end Session

/-- An effect that endpoint 0 takes no notice of. -/
def Effect.Spares : Effect → Prop
  | .write r _ => r ≠ .addrEndp
  | .arm e data => e.Placed ∧ data.length ≤ Dpram.bufferSize ∧ e.Apart ∧ e.interface ≠ 0
  | .heed _ | .collect _ _ | .call _ _ _ => True
  | .reset | .clear | .line _ | .enable _ => False

namespace Session

/-- A step of a session that left endpoint 0 alone. -/
structure Aside (s : Session) (result : Session × List Effect) : Prop where
  /-- The control machine. -/
  control : result.1.control = s.control
  /-- The next IN packet. -/
  pidIn : result.1.pidIn = s.pidIn
  /-- The next OUT packet. -/
  pidOut : result.1.pidOut = s.pidOut
  /-- The effects. -/
  effects : ∀ e ∈ result.2, e.Spares

namespace Aside

theorem nil (s : Session) : s.Aside (s, []) := ⟨rfl, rfl, rfl, List.forall_mem_nil _⟩

theorem cons {s s' : Session} {log : List Effect} {e : Effect} (he : e.Spares)
    (h : s.Aside (s', log)) : s.Aside (s', e :: log) :=
  ⟨h.control, h.pidIn, h.pidOut, List.forall_mem_cons.2 ⟨he, h.effects⟩⟩

theorem append {s s' s'' : Session} {log log' : List Effect} (h : s.Aside (s', log))
    (h' : s'.Aside (s'', log')) : s.Aside (s'', log ++ log') :=
  ⟨h'.control.trans h.control, h'.pidIn.trans h.pidIn, h'.pidOut.trans h.pidOut,
    List.forall_mem_append.2 ⟨h.effects, h'.effects⟩⟩

end Aside

theorem aside_arm {s : Session} (hs : Arranged s.endpoints) {position : Nat} (data : List UInt8)
    (happart : ∀ e, s.endpoints[position]? = some e → e.Apart) :
    s.Aside (s.arm position data) := by
  -- endpoint 0 is not apart from itself
  have hposition : position ≠ ep0In ∧ position ≠ ep0Out := by
    constructor
    · rintro rfl
      exact Endpoint.not_apart_ofControl _ _ (happart _ (by rw [hs.endpoints_eq]; rfl))
    · rintro rfl
      exact Endpoint.not_apart_ofControl _ _ (happart _ (by rw [hs.endpoints_eq]; rfl))
  unfold arm
  cases he : s.endpoints[position]? with
  | none => exact .nil s
  | some e =>
    have hplaced := hs.placed (List.mem_of_getElem? he)
    refine ⟨rfl, ?_, ?_, ?_⟩
    · simp only [pidIn, List.getElem?_set_ne hposition.1]
    · simp only [pidOut, List.getElem?_set_ne hposition.2]
    · simpa [Effect.Spares] using
        ⟨hplaced, hplaced.length_clip_le data, happart e he, hs.interface_ne (happart e he)
          (List.mem_of_getElem? he)⟩

theorem aside_submit {s : Session} (hs : Arranged s.endpoints) {interface address : UInt8}
    (data : List UInt8)
    (happart : ∀ e ∈ s.endpoints, e.interface = interface → e.address = address → e.Apart) :
    s.Aside ((s.submit interface address data).1, (s.submit interface address data).2.1) := by
  unfold submit
  cases hp : s.position? interface address with
  | none => exact .nil s
  | some position =>
    refine aside_arm hs data ?_
    intro e he
    obtain ⟨hlt, hpos, -⟩ := List.findIdx?_eq_some_iff_getElem.1 hp
    rw [List.getElem?_eq_getElem hlt, Option.some.injEq] at he
    rw [he, Bool.and_eq_true, beq_iff_eq, beq_iff_eq] at hpos
    exact happart e (he ▸ List.getElem_mem hlt) hpos.1 hpos.2

theorem aside_run {s : Session} (hs : Arranged s.endpoints) {p : Program} (hp : s.Spares p) :
    s.Aside ((s.run p).1, (s.run p).2.1) := by
  induction p generalizing s with
  | done => exact .nil s
  | askConfigured next ih => exact ih _ hs (hp _)
  | submit interface address data next ih =>
    have hk := kept_submit hs interface address data
    exact (aside_submit hs data hp.1).append
      (ih _ (hs.of_map_fixed hk.same.endpoints) ((hp.2 _).of_same hk.same))

end Session

/-! ### Events -/

theorem Event.bufferAddress_ne {index : Nat} (h : 2 ≤ index) (hlt : index < Dpram.bufferControls) :
    bufferAddress index ≠ Ep0.inAddress ∧ bufferAddress index ≠ Ep0.outAddress := by
  have key : ∀ i < 32, 2 ≤ i →
      bufferAddress i ≠ Ep0.inAddress ∧ bufferAddress i ≠ Ep0.outAddress := by decide
  exact key index hlt h

/-- The event can be reported: a buffer has a buffer control register. -/
def Event.Reportable : Event → Prop
  | buffer index => index < Dpram.bufferControls
  | setup | busReset => True

namespace Session

theorem owner_of_find {s : Session} (hs : Arranged s.endpoints) {index : Nat} (hindex : 2 ≤ index)
    (hlt : index < Dpram.bufferControls) {e : Endpoint}
    (hfind : s.endpoints.find? (·.address == Event.bufferAddress index) = some e) :
    e ∈ s.endpoints ∧ e.address = Event.bufferAddress index ∧
      ∃ handler, e.owner = .caller handler := by
  obtain ⟨hin, hout⟩ := Event.bufferAddress_ne hindex hlt
  have haddress : e.address = Event.bufferAddress index := by simpa using List.find?_some hfind
  have hmem := List.mem_of_find?_eq_some hfind
  -- the address is none of endpoint 0, so the endpoint is a caller's
  have hcaller : e ∈ s.callers := by
    rw [hs.endpoints_eq, List.mem_cons, List.mem_cons] at hmem
    rcases hmem with rfl | rfl | hmem
    · exact absurd haddress.symm hin
    · exact absurd haddress.symm hout
    · exact hmem
  exact ⟨hmem, haddress, (hs.ofCaller hcaller).owner⟩

/-- A packet of a caller's endpoint is done: endpoint 0 takes no notice. -/
theorem aside_buffer {s : Session} (hs : Arranged s.endpoints) (m : Memory Dpram.size) {index : Nat}
    (hindex : 2 ≤ index) (hlt : index < Dpram.bufferControls)
    (hspares : s.SparesEvent (.buffer index)) : s.Aside (s.react m (.buffer index)) := by
  simp only [react]
  cases hfind : s.endpoints.find? (·.address == Event.bufferAddress index) with
  | none => exact .nil s
  | some e =>
    obtain ⟨hmem, haddress, handler, howner⟩ := owner_of_find hs hindex hlt hfind
    refine .cons trivial ?_
    cases handler with
    | none =>
      simp only [completed, howner]
      exact .nil s
    | some handler =>
      simp only [completed, howner]
      exact .cons trivial (aside_run hs (hspares hindex e hmem handler haddress howner _))

end Session

namespace Ep0

variable {σ : Type} [Board σ]

theorem of_apply (s : Session) (h : Hardware σ) {e : Effect} (he : e.Spares) :
    of s (e.apply h).toController = of s h.toController := by
  cases e with
  | write r w =>
    exact of_eq_of_dpram s (Controller.read_write_of_ne _ _ (Ne.symm he))
      (Controller.dpram_write _ _ _)
  | arm e data =>
    obtain ⟨hplaced, hdata, happart, -⟩ := he
    exact of_eq_of (Controller.read_of_regs (Effect.regs_mapDpram h _) _)
      ((hplaced.word_arm _ _ (by decide)).trans (if_neg (Ne.symm happart.ne_input)))
      ((hplaced.word_arm _ _ (by decide)).trans (if_neg (Ne.symm happart.ne_output)))
      (hplaced.readBytes_arm_of_ne _ _ hdata (Nat.le_refl _) rfl (Nat.le_refl _)
        happart.bufferOffset)
  | heed | collect | call => rfl
  | reset | clear | line | enable => cases he

theorem of_replay (s : Session) (h : Hardware σ) {log : List Effect} (hlog : ∀ e ∈ log, e.Spares) :
    of s (replay log h).toController = of s h.toController :=
  replay_preserves (P := fun h' => of s h'.toController = of s h.toController)
    (fun e he h' hh => (of_apply s h' (hlog e he)).trans hh) rfl

/-- What leaves endpoint 0 alone does not change it. -/
theorem of_aside {s s' : Session} {log : List Effect} (h : Hardware σ)
    (haside : s.Aside (s', log)) : of s' (replay log h).toController = of s h.toController := by
  rw [of_congr _ haside.control haside.pidIn haside.pidOut, of_replay s h haside.effects]

theorem spares_acknowledge (event : Event) : event.acknowledge.Spares := by
  cases event <;> exact nofun

theorem of_react {s : Session} (hs : Session.Arranged s.endpoints) (h : Hardware σ) {event : Event}
    (hreport : event.Reportable) (hspares : s.SparesEvent event) (m : Memory Dpram.size) :
    of (s.react m event).1 (replay (s.react m event).2 h).toController =
      (of s h.toController).react s.descriptors (SetupPacket.inMemory m) event := by
  cases event with
  | setup => exact of_setup hs h _
  | busReset => exact of_proceed hs h _
  | buffer index =>
    obtain _ | _ | index := index
    · rw [Session.react_sent hs]
      exact of_proceed hs h _
    · rw [Session.react_received hs]
      exact of_proceed hs h s.control.received
    · exact of_aside h (Session.aside_buffer hs m (Nat.le_add_left 2 index) hreport hspares)

end Ep0

namespace Device

variable {σ : Type} [Board σ]

/-- Handling an event is one step of endpoint 0. -/
theorem Active.ep0_handle {d : Device σ} {s : Session} (hd : d.Active s) {event : Event}
    (hreport : event.Reportable) (hspares : s.SparesEvent event) :
    ∃ s', s.Same s' ∧ (d.handle event).1.Active s' ∧
      SetupPacket.inMemory (d.handle event).1.hw.dpram = SetupPacket.inMemory d.hw.dpram ∧
      Ep0.of s' (d.handle event).1.hw.toController =
        (Ep0.of s d.hw.toController).react s.descriptors (SetupPacket.inMemory d.hw.dpram)
          event := by
  have hs := hd.sound.arranged
  have hk := (Session.kept_react hs d.hw.dpram event).acknowledged event
  refine ⟨_, hk.same, hd.handle event, ?_⟩
  rw [handle_eq hd.session]
  constructor
  · exact SetupPacket.inMemory_congr fun i hi =>
      byte_replay_low hk.routine (Nat.lt_trans hi (by decide)) d.hw
  · rw [hw_after, replay_cons, Ep0.of_react hs _ hreport hspares,
      Ep0.of_apply s d.hw (Ep0.spares_acknowledge event)]

theorem Active.ep0_handleAll {d : Device σ} {s : Session} (hd : d.Active s) {events : List Event}
    (hreport : ∀ event ∈ events, event.Reportable)
    (hspares : ∀ event ∈ events, s.SparesEvent event) :
    ∃ s', s.Same s' ∧ (d.handleAll events).1.Active s' ∧
      Ep0.of s' (d.handleAll events).1.hw.toController =
        events.foldl (Ep0.react s.descriptors (SetupPacket.inMemory d.hw.dpram))
          (Ep0.of s d.hw.toController) := by
  induction events generalizing d s with
  | nil => exact ⟨s, .refl s, hd, rfl⟩
  | cons event events ih =>
    rw [List.forall_mem_cons] at hreport hspares
    obtain ⟨s₁, hs₁, hd₁, hmem, hv₁⟩ := hd.ep0_handle hreport.1 hspares.1
    -- the SETUP packet in memory is the same for all events of the interrupt
    obtain ⟨s₂, hs₂, hd₂, hv₂⟩ :=
      ih hd₁ hreport.2 fun event he => (hspares.2 event he).of_same hs₁
    refine ⟨s₂, hs₁.trans hs₂, hd₂, ?_⟩
    rw [List.foldl_cons, ← hv₁, ← hs₁.descriptors, ← hmem]
    exact hv₂

end Device

theorem Controller.mem_returned_of_mem_events {c : Controller} {index : Nat}
    (h : .buffer index ∈ c.events) : index ∈ c.returned := by
  rw [events, List.mem_append, List.mem_append, List.mem_map] at h
  rcases h with (h | ⟨i, hi, heq⟩) | h
  · split_ifs at h
    · cases List.mem_singleton.1 h
    · cases h
  · exact Event.buffer.inj heq ▸ hi
  · split_ifs at h
    · cases List.mem_singleton.1 h
    · cases h

theorem Controller.reportable_of_mem_events {c : Controller} {event : Event}
    (h : event ∈ c.events) : event.Reportable := by
  cases event with
  | setup | busReset => trivial
  | buffer index => exact (mem_returned.1 (mem_returned_of_mem_events h)).1

namespace Device

variable {σ : Type} [Board σ]

omit [Board σ] in
theorem reportable_of_mem_pending {d : Device σ} {event : Event} (h : event ∈ d.pending) :
    event.Reportable := by
  cases event with
  | setup | busReset => trivial
  | buffer index => exact (Controller.mem_returned.1 (buffer_mem_pending.1 h).2).1

/-- Servicing the interrupt is a run of endpoint 0 over the events that wait. -/
theorem InService.ep0_service {d : Device σ} {s : Session} (hd : d.InService s)
    (hspares : ∀ event ∈ d.hw.toController.events, s.SparesEvent event) :
    ∃ s', s.Same s' ∧ (d.step .service).2.1.InService s' ∧
      Ep0.of s' (d.step .service).2.1.hw.toController =
        d.hw.toController.events.foldl (Ep0.react s.descriptors (SetupPacket.inMemory d.hw.dpram))
          (Ep0.of s d.hw.toController) := by
  obtain ⟨s', hs', hd', hv⟩ :=
    hd.active.ep0_handleAll (fun _ => Controller.reportable_of_mem_events) hspares
  rw [step_service, pending_eq hd.ready]
  refine ⟨s', hs', hd'.retire, Eq.trans ?_ hv⟩
  exact Ep0.of_eq_of_dpram s' (Controller.read_retire _ (by decide) (by decide) (by decide))
    (Controller.dpram_retire _)

end Device

/-! ### Completions and packets of the host -/

/-- The completions of endpoint 0 that wait, in order. -/
def Ep0.completions (v : Ep0) (gone come : Bool) : Ep0 :=
  let v := if gone then v.sent else v
  if come then v.received else v

namespace Controller

/-- A packet of endpoint 0 has gone out. -/
def ep0Gone (c : Controller) : Bool := (c.read .buffStatus).bit 0

/-- The host's packet on endpoint 0 has come in. -/
def ep0Come (c : Controller) : Bool := (c.read .buffStatus).bit 1

theorem returned_eq (c : Controller) :
    c.returned = (if c.ep0Gone then [0] else []) ++ (if c.ep0Come then [1] else []) ++
      (List.range' 2 30).filter (c.read .buffStatus).bit := by
  rw [returned, show List.range Dpram.bufferControls = 0 :: 1 :: List.range' 2 30 from rfl,
    List.filter_cons, List.filter_cons, ep0Gone, ep0Come]
  split_ifs <;> rfl

theorem foldl_returned (c : Controller) (set : DescriptorSet) (p : SetupPacket) (v : Ep0) :
    (c.returned.map .buffer).foldl (Ep0.react set p) v = v.completions c.ep0Gone c.ep0Come := by
  -- the buffers of callers go by without a trace
  have hcallers : ∀ (l : List Nat) (v : Ep0), (∀ i ∈ l, 2 ≤ i) →
      (l.map .buffer).foldl (Ep0.react set p) v = v := by
    intro l
    induction l with
    | nil => exact fun v _ => rfl
    | cons i l ih =>
      intro v h
      rw [List.forall_mem_cons] at h
      obtain ⟨j, rfl⟩ := Nat.exists_eq_add_of_le' h.1
      exact ih v h.2
  rw [returned_eq, List.map_append, List.foldl_append, hcallers]
  · cases c.ep0Gone <;> cases c.ep0Come <;> rfl
  · intro i hi
    have hrange := List.mem_range'_1.1 (List.mem_of_mem_filter hi)
    exact hrange.1

theorem events_deliverSetup (c : Controller) (p : SetupPacket) :
    (c.deliverSetup p).events = .setup :: (c.returned.map .buffer ++
      (if (c.read .sieStatus).bit Bit.busReset then [.busReset] else [])) := by
  have hreturned := c.returned_deliverSetup p
  have hsetup : ((c.read .sieStatus).set Bit.setupReceived).bit Bit.setupReceived = true := by
    simp [Bit.setupReceived]
  have hreset : ((c.read .sieStatus).set Bit.setupReceived).bit Bit.busReset =
      (c.read .sieStatus).bit Bit.busReset := by simp [Bit.setupReceived, Bit.busReset]
  rw [events, hreturned, sieStatus_deliverSetup, hsetup, hreset, if_pos rfl, List.append_assoc]
  rfl

end Controller

namespace Ep0

theorem of_deliverSetup (s : Session) (c : Controller) (p : SetupPacket) :
    of s (c.deliverSetup p) = of s c := by
  refine of_eq_of (Controller.read_deliverSetup c p (by decide) (by decide)) ?_ ?_ ?_
  · exact Memory.word_congr fun i hi _ =>
      c.byte_deliverSetup p (Nat.le_trans (by decide) hi)
  · exact Memory.word_congr fun i hi _ =>
      c.byte_deliverSetup p (Nat.le_trans (by decide) hi)
  · exact Memory.readBytes_congr fun i hi _ =>
      c.byte_deliverSetup p (Nat.le_trans (by decide) hi)

theorem buffer_giveBack (c : Controller) {i : Nat} (hi : i < Dpram.bufferControls) (w : Word) :
    (c.giveBack i w).dpram.readBytes Dpram.ep0Buffer Dpram.bufferSize =
      c.dpram.readBytes Dpram.ep0Buffer Dpram.bufferSize :=
  Memory.readBytes_congr fun _ hj _ => c.byte_giveBack hi w (.inr hj)

theorem of_giveBack_in (s : Session) (c : Controller) (w : Word) :
    of s (c.giveBack 0 w) = { of s c with inWord := w } := by
  rw [of, of, Controller.read_giveBack _ _ _ (by decide) (by decide),
    Controller.bufferControl_giveBack _ (by decide), if_pos rfl,
    Controller.bufferControl_giveBack _ (by decide), if_neg Nat.one_ne_zero,
    buffer_giveBack _ (by decide)]

theorem of_complete_in (s : Session) {c : Controller} (harmed : c.armed 0 = true)
    (data : List UInt8) :
    of s (c.complete inAddress data false).2 =
      { of s c with inWord := Controller.fetchedWord (c.bufferControl 0) } := by
  rw [Controller.complete_input c inAddress data 0 rfl rfl, if_pos harmed, of_giveBack_in]

end Ep0

namespace Device

variable {σ : Type} [Board σ]

/-- Endpoint 0 of an open device. -/
def ep0? (d : Device σ) : Option Ep0 := d.session.map fun s => Ep0.of s d.hw.toController

omit [Board σ] in
theorem InService.ep0?_eq {d : Device σ} {s : Session} (hd : d.InService s) :
    d.ep0? = some (Ep0.of s d.hw.toController) := by rw [ep0?, hd.session, Option.map_some]

theorem InService.hostSetup {d : Device σ} {s : Session} (hd : d.InService s) (p : SetupPacket) :
    (d.step (.host (.setup p))).2.1.InService s := by
  rw [step_host]
  exact inService_mapController hd.session hd.sound (hd.ready.deliverSetup p)

theorem events_hostSetup {d : Device σ} (p : SetupPacket)
    (hreset : (d.hw.read .sieStatus).bit Bit.busReset = false) :
    (d.step (.host (.setup p))).2.1.hw.toController.events =
      .setup :: d.hw.toController.returned.map .buffer := by
  rw [step_host]
  refine (Controller.events_deliverSetup d.hw.toController p).trans ?_
  rw [hreset, if_neg Bool.false_ne_true, List.append_nil]

/-- A SETUP packet comes in and is serviced, together with all that waits already. -/
theorem InService.ep0_setup {d : Device σ} {s : Session} (hd : d.InService s) (p : SetupPacket)
    (hspares : ∀ i ∈ d.hw.toController.returned, s.SparesEvent (.buffer i))
    (hreset : (d.hw.read .sieStatus).bit Bit.busReset = false) :
    ∃ s', s.Same s' ∧ (d.run [.host (.setup p), .service]).1.InService s' ∧
      Ep0.of s' (d.run [.host (.setup p), .service]).1.hw.toController =
        ((Ep0.of s d.hw.toController).setup s.descriptors p).completions
          d.hw.toController.ep0Gone d.hw.toController.ep0Come := by
  have hevents := events_hostSetup p hreset
  have hmemory : SetupPacket.inMemory (d.step (.host (.setup p))).2.1.hw.dpram = p := by
    rw [step_host]
    exact SetupPacket.inMemory_writeBytes _ _
  have hview : Ep0.of s (d.step (.host (.setup p))).2.1.hw.toController =
      Ep0.of s d.hw.toController := by
    rw [step_host]
    exact Ep0.of_deliverSetup s _ p
  obtain ⟨s', hs', hd', hv⟩ := (hd.hostSetup p).ep0_service (by
    rw [hevents, List.forall_mem_cons, List.forall_mem_map]
    exact ⟨trivial, hspares⟩)
  refine ⟨s', hs', hd', hv.trans ?_⟩
  rw [hevents, hmemory, hview, List.foldl_cons, Controller.foldl_returned]
  rfl

end Device

end UsbGadget
