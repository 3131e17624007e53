import UsbGadget.Proofs.BringUp
import UsbGadget.Proofs.Footprint
import UsbGadget.Proofs.RegularEndpoints

/-!
# A submitted packet is where the controller looks for it

The controller finds an endpoint's packets by the endpoint's address alone: its buffer control
register and its endpoint control register follow from the address, and the buffer's offset is in
the latter. The engine goes by what was described. The two agree if the description is regular.

* `Session.Bound` is the invariant: the controller looks for packets where the engine puts them, and
  has no packet of any other register. So whatever the host delivers lies in a packet buffer;
* `Session.Bound.replay` is the step lemma for the engine, `HostStep.bound_run` the one for the
  host, and `Device.Driven.bound` the statement for runs;
* `Device.Driven.submit_hands_over` is the main statement.
-/

namespace UsbGadget

/-! ### The controller looks where the engine puts packets -/

namespace Session

variable {s s' : Session}

/-- The controller looks for the packets of each endpoint where the engine puts them, and has
packets of these endpoints only. -/
structure Bound (s : Session) (c : Controller) : Prop where
  /-- Where the controller looks for packets. -/
  offset : ∀ e ∈ s.endpoints, c.packetOffset e.address e.direction = e.bufferOffset
  /-- The packets that the controller has. -/
  armed : ∀ i < Dpram.bufferControls, c.armed i = true → ∃ e ∈ s.endpoints, e.bufferControl = i

namespace Bound

variable {c c' : Controller}

theorem of_bytes (h : s.Bound c)
    (hbytes : ∀ i, 8 ≤ i → i < Dpram.ep0Buffer → c'.dpram.byte i = c.dpram.byte i) :
    s.Bound c' := by
  refine ⟨?_, ?_⟩
  · intro e he
    rw [Controller.packetOffset_congr fun i hi hi' =>
      hbytes i hi (Nat.lt_trans hi' (by decide)), h.offset e he]
  · intro i hi harmed
    have hword : c'.bufferControl i = c.bufferControl i := by
      apply Memory.word_congr
      intro j hj hj'
      simp only [Dpram.bufferControls] at hi
      simp only [Dpram.bufferControlOffset] at hj hj'
      exact hbytes j (by omega) (by simp only [Dpram.ep0Buffer]; omega)
    rw [Controller.armed, hword] at harmed
    exact h.armed i hi harmed

theorem of_same (h : s.Bound c) (hsame : s.Same s') : s'.Bound c where
  offset e he := by
    obtain ⟨e₀, he₀, heq⟩ := hsame.mem he
    rw [heq]
    exact h.offset e₀ he₀
  armed i hi harmed := by
    obtain ⟨e, he, hcontrol⟩ := h.armed i hi harmed
    obtain ⟨pid, he'⟩ := hsame.mem_later he
    exact ⟨_, he', hcontrol⟩

/-- The engine hands packets over of the session's own endpoints only, and leaves the endpoint
control words alone. -/
theorem replay {σ : Type} [Board σ] {hw : Hardware σ} (h : s.Bound hw.toController)
    {log : List Effect} (hroutine : ∀ e ∈ log, e.Routine) (hamong : ∀ e ∈ log, e.Among s) :
    s.Bound (replay log hw).toController where
  offset e he := by
    rw [Controller.packetOffset_congr fun i _ hi => byte_replay_low hroutine hi hw, h.offset e he]
  armed i hi := by
    refine replay_preserves (P := fun hw' => hw'.toController.armed i = true →
      ∃ e ∈ s.endpoints, e.bufferControl = i) ?_ (h.armed i hi)
    intro effect heffect hw' hbefore harmed
    cases effect with
    | reset | clear | line | enable => cases hroutine _ heffect
    | write | heed | collect | call => exact hbefore harmed
    | arm e data =>
      obtain ⟨⟨e₀, he₀, pid, rfl⟩, -⟩ := hamong _ heffect
      rw [Effect.armed_apply_arm (hroutine _ heffect).1 hw' data hi] at harmed
      split_ifs at harmed with hself
      · exact ⟨e₀, he₀, hself.symm⟩
      · exact hbefore harmed

end Bound

theorem bound_bringUp {σ : Type} [Board σ] (hs : Arranged s.endpoints) (hregular : s.Regular)
    (hw : Hardware σ) : s.Bound (UsbGadget.replay (bringUp s.endpoints) hw).toController where
  offset e he := by
    have hindex := hregular.endpointControl e he
    rw [Controller.packetOffset, ← hindex]
    cases hk : e.endpointControl with
    | none => exact (hregular.bufferOffset e he hk).symm
    | some k =>
      -- the last endpoint with the register is this one
      have hmem : e ∈ s.endpoints.filter (·.endpointControl = some k) :=
        List.mem_filter.2 ⟨he, decide_eq_true hk⟩
      have hne := List.ne_nil_of_mem hmem
      obtain ⟨hlast, hlast'⟩ := List.mem_filter.1 (List.getLast_mem hne)
      have hself := hregular.eq_of_endpointControl he hlast hk (of_decide_eq_true hlast')
      simp only [endpointControl_bringUp _ hw (hs.endpointControl_lt he hk),
        List.getLast?_eq_some_getLast hne, Option.map_some, Option.getD_some, hself,
        (hs.placed he).bufferOffsetOf_controlWord]
  armed i hi harmed := by
    have hzero : (UsbGadget.replay (bringUp s.endpoints) hw).toController.bufferControl i = 0 := by
      refine (Memory.word_congr ?_).trans (Memory.word_zero (Dpram.bufferControlOffset i))
      intro j hj _
      simp only [Dpram.bufferControlOffset] at hj
      rw [byte_bringUp hs hw (.inr (by simp only [Dpram.bufferControlOffset]; omega)),
        Memory.byte_zero]
    rw [Controller.armed, hzero, Word.bit_zero] at harmed
    cases harmed

end Session

/-- What a host does leaves it so: the data of an OUT packet lies in the packet buffer of its
endpoint. -/
theorem HostStep.bound_run {s : Session} {c : Controller} {step : HostStep} (hlawful : step.Lawful)
    (hs : Session.Arranged s.endpoints) (hregular : s.Regular) (h : s.Bound c) :
    s.Bound (step.run c).2 := by
  cases step with
  | setup packet => exact h.of_bytes fun i hi _ => c.byte_deliverSetup packet hi
  | busReset => exact h.of_bytes fun i _ _ => by rw [HostStep.run, c.dpram_deliverReset]
  | poke => cases hlawful
  | peek => exact h
  | updateInterrupts => exact h.of_bytes fun i _ _ => by rw [HostStep.run, c.dpram_updateInterrupts]
  | complete address data force =>
    obtain ⟨rfl, hdata⟩ := hlawful
    show s.Bound (c.complete address data false).2
    have hlt := Controller.bufferControlIndex_lt address (.ofByte address)
    cases harmed : c.armed (Dpram.bufferControlIndex address (.ofByte address)) with
    | false =>
      rw [Controller.complete_of_not_armed data harmed]
      exact h
    | true =>
      obtain ⟨e, he, hcontrol⟩ := h.armed _ hlt harmed
      rw [hregular.bufferControl e he] at hcontrol
      obtain ⟨hnumber, hdirection⟩ := Dpram.bufferControlIndex_inj hcontrol
      have hplaced := hs.placed he
      have hoffset : c.packetOffset address (.ofByte address) = e.bufferOffset := by
        rw [← h.offset e he, c.packetOffset_congr_number hnumber, hdirection]
      have hfit : Direction.ofByte address = .output →
          Dpram.ep0Buffer ≤ c.packetOffset address .output ∧
            c.packetOffset address .output + data.length ≤ Dpram.size := by
        intro hout
        rw [← hout, hoffset]
        exact ⟨hplaced.le_bufferOffset, Nat.le_trans (Nat.add_le_add_left hdata _)
          hplaced.bufferOffset_add_le⟩
      obtain ⟨-, harmed', hoffset'⟩ := Controller.complete_armed harmed hfit
      refine ⟨fun e he => (hoffset' _ _).trans (h.offset e he), ?_⟩
      intro i hi hi'
      rw [harmed' i hi] at hi'
      split_ifs at hi'
      exact h.armed i hi hi'

/-! ### Runs -/

/-- A step that leaves a device open: its owner may do anything else, and so may its interrupt, and
the host completes only packets that were handed over, with no more data than a packet holds. -/
def DeviceStep.Fair : DeviceStep → Prop
  | host step => step.Lawful
  | «open» _ | submit _ _ _ | interrupt | service => True
  | close => False

namespace Device

variable {σ : Type} [Board σ] {description : DeviceDescription} {d : Device σ}

/-- The states of a device that was opened as described, on whatever hardware, and driven by fair
steps since. -/
inductive Driven (description : DeviceDescription) : Device σ → Prop
  | opened {closed d : Device σ} {log : List Effect}
      (h : closed.open description = (.ok (), d, log)) : Driven description d
  | step {d : Device σ} {step : DeviceStep} (h : Driven description d) (hs : step.Fair) :
      Driven description (d.step step).2.1

theorem Driven.run (h : Driven description d) {steps : List DeviceStep}
    (hsteps : ∀ step ∈ steps, step.Fair) : Driven description (d.run steps).1 := by
  induction steps generalizing d with
  | nil => exact h
  | cons step steps ih =>
    rw [List.forall_mem_cons] at hsteps
    rw [fst_run_cons]
    exact ih (h.step hsteps.1) hsteps.2

theorem bound_step {s : Session} (hs : d.session = some s) (hsound : s.Sound) (hregular : s.Regular)
    (hbound : s.Bound d.hw.toController) {step : DeviceStep} (hfair : step.Fair) :
    s.Bound (d.step step).2.1.hw.toController := by
  have harranged := hsound.arranged
  have hall : s.Bound (d.handleAll d.pending).1.hw.toController := by
    obtain ⟨_, -, hkept⟩ := kept_handleAll hs harranged d.pending
    rw [hw_handleAll]
    exact hbound.replay hkept.routine (among_handleAll hs harranged d.pending)
  cases step with
  | close => cases hfair
  | «open» description =>
    simp only [Device.step, Device.open, hs]
    exact hbound
  | submit interface address data =>
    have hkept := Session.kept_submit harranged interface address data
    simp only [Device.step, submit_eq hs]
    exact hbound.replay hkept.routine (s.moves_submit interface address data).among
  | interrupt => exact hall
  | service =>
    rw [step_service, toController_mapController]
    exact hall.of_bytes fun i _ _ => by rw [Controller.dpram_retire]
  | host step =>
    rw [step_host, toController_mapController]
    exact HostStep.bound_run hfair harranged hregular hbound

/-- In every state of a run the controller looks where the engine puts packets. -/
theorem Driven.bound (h : Driven description d) (hdescription : description.Regular) :
    ∃ s₀ s, Session.ofDescription description = .ok s₀ ∧ s₀.Same s ∧ d.session = some s ∧
      s.Bound d.hw.toController := by
  induction h with
  | @opened closed d log h =>
    obtain ⟨-, s, hs, rfl, rfl⟩ := open_eq_ok.1 h
    have hregular := Session.regular_of_same hs (.refl s) hdescription
    refine ⟨s, s, hs, .refl s, rfl, ?_⟩
    rw [hw_after]
    exact Session.bound_bringUp (Session.sound_of_ofDescription hs).arranged hregular closed.hw
  | @step d step _ hfair ih =>
    obtain ⟨s₀, s, hs₀, hsame, hs, hbound⟩ := ih
    have hsound := (Session.sound_of_ofDescription hs₀).of_same hsame
    have hopen : Turn.step step ≠ .step .close := by
      rintro ⟨⟩
      exact hfair
    obtain ⟨s', hs', hsame'⟩ := same_turn hs hsound hopen
    exact ⟨s₀, s', hs₀, hsame.trans hsame', hs', (bound_step hs hsound
      (Session.regular_of_same hs₀ hsame hdescription) hbound hfair).of_same hsame'⟩

/-! ### The main statement -/

/-- A device before and after a packet was handed over of the endpoint with an address, of which
`limit` bytes of the data count at most. -/
structure HandsOver {σ : Type} (d : Device σ) (s : Session) (interface address : UInt8)
    (limit : Nat) (data : List UInt8) (d' : Device σ) : Prop where
  /-- The buffer control word. -/
  control : BufferControl.ofWord
      (d'.hw.toController.bufferControl (Dpram.bufferControlIndex address (.ofByte address))) =
    ⟨Direction.ofByte address == .input, s.nextPid interface address, true, min data.length limit⟩
  /-- An IN packet is where the controller looks for it. -/
  packet : Direction.ofByte address = .input →
    d'.hw.dpram.readBytes (d'.hw.toController.packetOffset address .input)
      (min data.length limit) = data.take (min data.length limit)
  /-- The rest of the packet memory stays as it is. -/
  rest : ∀ i,
    (i < Dpram.bufferControlOffset (Dpram.bufferControlIndex address (.ofByte address)) ∨
      Dpram.bufferControlOffset (Dpram.bufferControlIndex address (.ofByte address)) + 4 ≤ i) →
    (Direction.ofByte address = .input →
      i < d'.hw.toController.packetOffset address .input ∨
        d'.hw.toController.packetOffset address .input + min data.length limit ≤ i) →
    d'.hw.dpram.byte i = d.hw.dpram.byte i
  /-- The registers stay as they are. -/
  regs : d'.hw.regs = d.hw.regs
  /-- So does the board. -/
  board : d'.hw.board = d.hw.board
  /-- The next packet of the endpoint carries the other identifier, and nothing else changes. -/
  session : d'.session = some { s with
    endpoints := s.endpoints.map fun e => if e.address = address then e.advance else e }

theorem handsOver_submit {s : Session} (hs : d.session = some s) (hregular : s.Regular)
    (hbound : s.Bound d.hw.toController) {e : Endpoint} (he : e ∈ s.endpoints) (hplaced : e.Placed)
    (data : List UInt8) :
    d.HandsOver s e.interface e.address e.maxPacketSize data
      (d.submit e.interface e.address data).2.1 := by
  have hlength : (e.clip data).length = min data.length e.maxPacketSize := by
    rw [e.length_clip, Nat.min_comm]
  have hindex : Dpram.bufferControlIndex e.address (.ofByte e.address) = e.bufferControl :=
    (hregular.bufferControl e he).symm
  let d' := (d.submit e.interface e.address data).2.1
  have hafter : d' = d.after [.arm e (e.clip data)] (some { s with
      endpoints :=
        s.endpoints.map fun e' => if e'.address = e.address then e'.advance else e' }) := by
    simp only [d', Device.submit_eq hs, hregular.submit_eq he]
  have hdpram : d'.hw.dpram = e.arm (e.clip data) d.hw.dpram := by
    rw [hafter, hw_after, replay_cons, replay_nil, Effect.dpram_apply_arm]
  have hoffset :
      d'.hw.toController.packetOffset e.address (.ofByte e.address) = e.bufferOffset := by
    rw [Controller.packetOffset_congr (c := d.hw.toController) fun i _ hi => by
      rw [hdpram, hplaced.byte_arm_low _ _ hi]]
    exact hbound.offset e he
  have hfits := hplaced.length_clip_le data
  refine ⟨?_, ?_, ?_, ?_, ?_, ?_⟩
  · have hword := hplaced.ofWord_arm (e.clip data) d.hw.dpram hfits
    rw [← hdpram, ← hindex, ← hregular.nextPid_eq he, hlength] at hword
    exact hword
  · intro hin
    have hclip : data.take (min data.length e.maxPacketSize) = e.clip data := by
      rw [Endpoint.clip, Nat.min_comm, ← List.take_eq_take_min]
    have hpacket := hplaced.readBytes_arm_self (e.clip data) d.hw.dpram hin hfits
    rw [← hdpram, ← hoffset, hin, hlength, ← hclip] at hpacket
    exact hpacket
  · intro i hword hpacket
    rw [hindex] at hword
    refine (congrArg (·.byte i) hdpram).trans (Endpoint.byte_arm_of_outside e _ _ hword ?_)
    intro hin
    rw [hlength, ← hoffset, show Direction.ofByte e.address = .input from hin]
    exact hpacket hin
  · show d'.hw.regs = _
    rw [hafter, hw_after, replay_cons, replay_nil]
    exact Effect.regs_mapDpram _ _
  · show d'.hw.board = _
    rw [hafter, hw_after, replay_cons, replay_nil]
    exact Hardware.board_mapDpram _ _
  · show d'.session = _
    rw [hafter, session_after]

/-- Whatever happened since a regular device was opened: a packet is taken exactly if an interface
with the number has an endpoint with the address, and otherwise nothing happens. A packet that is
taken is handed over in the registers that belong to the address, with as many bytes as fit, and an
IN packet is where the controller looks for it. -/
theorem Driven.submit_hands_over (hd : Driven description d) (hdescription : description.Regular)
    (interface address : UInt8) (data : List UInt8) :
    ((d.submit interface address data).1 = true ↔
        ∃ e, description.Has interface e ∧ e.address = address) ∧
      ((d.submit interface address data).1 = false →
        d.submit interface address data = (false, d, [])) ∧
      ∀ e, description.Has interface e → e.address = address →
        ∃ s, d.session = some s ∧ d.HandsOver s interface address
          (legalPacketSize e.maxPacketSize).toNat data (d.submit interface address data).2.1 := by
  obtain ⟨s₀, s, hs₀, hsame, hs, hbound⟩ := hd.bound hdescription
  have hsound := (Session.sound_of_ofDescription hs₀).of_same hsame
  have hregular := Session.regular_of_same hs₀ hsame hdescription
  by_cases hmem : ∃ e ∈ s.endpoints, e.interface = interface ∧ e.address = address
  · obtain ⟨e, he, rfl, rfl⟩ := hmem
    obtain ⟨e₀, hhas, hserves⟩ := Session.exists_has_of_mem hs₀ hsame he
    have htaken : (d.submit e.interface e.address data).1 = true := by
      simp only [Device.submit_eq hs, hregular.submit_eq he]
    refine ⟨iff_of_true htaken ⟨e₀, hhas, hserves.address.symm⟩, ?_, ?_⟩
    · rw [htaken]
      exact nofun
    · intro e₁ he₁ haddress
      -- no other endpoint is described with the address
      obtain ⟨e', he', hserves'⟩ := Session.exists_mem_of_has hs₀ hsame he₁
      obtain rfl := hregular.eq_of_address he he' (hserves'.address.trans haddress)
      rw [← hserves'.maxPacketSize]
      exact ⟨s, hs, handsOver_submit hs hregular hbound he (hsound.arranged.placed he) data⟩
  · have hsubmit := s.submit_of_forall_not (fun e he hkey => hmem ⟨e, he, hkey⟩) data
    have hnothing : d.submit interface address data = (false, d, []) := by
      simp only [Device.submit_eq hs, hsubmit]
      obtain ⟨hw, session⟩ := d
      cases hs
      rfl
    have hnone (e₀ : EndpointDescription) (he₀ : description.Has interface e₀)
        (haddress : e₀.address = address) : False := by
      obtain ⟨e, he, hserves⟩ := Session.exists_mem_of_has hs₀ hsame he₀
      exact hmem ⟨e, he, hserves.interface, hserves.address.trans haddress⟩
    rw [hnothing]
    refine ⟨iff_of_false Bool.false_ne_true ?_, fun _ => rfl, ?_⟩
    · rintro ⟨e₀, he₀, haddress⟩
      exact hnone e₀ he₀ haddress
    · intro e₀ he₀ haddress
      exact (hnone e₀ he₀ haddress).elim

/-- The echo device has sent a packet back, and the host has fetched it. -/
def returning : Device Bench :=
  (((blank {}).open Echo.device).2.1.run [.submit Echo.interface Echo.outAddress Echo.room,
    .host (.complete Echo.outAddress [1, 2, 3] false), .service,
    .host (.complete Echo.inAddress [] false)]).1

/-- The next packet is put over the one that was sent back, and carries the other identifier; there
is no packet of an endpoint with another address. -/
theorem submit_hands_over_returning :
    Driven Echo.device returning ∧ Echo.device.Regular ∧
      (returning.submit Echo.interface Echo.inAddress [4, 5]).1 = true ∧
      returning.submit Echo.interface (Direction.input.address 1) [4, 5] = (false, returning, []) ∧
      ∃ s, returning.session = some s ∧ s.nextPid Echo.interface Echo.inAddress = .data1 ∧
        returning.HandsOver s Echo.interface Echo.inAddress 64 [4, 5]
          (returning.submit Echo.interface Echo.inAddress [4, 5]).2.1 := by
  have hopen : ((blank ({} : Bench)).open Echo.device).1 = .ok () := by decide +kernel
  have hopen : (blank ({} : Bench)).open Echo.device = (.ok (), _, _) := Prod.ext hopen rfl
  have hdriven : Driven Echo.device returning :=
    (Driven.opened hopen).run (by simp [DeviceStep.Fair, HostStep.Lawful, Dpram.bufferSize])
  have hhas : Echo.device.Has Echo.interface Echo.inEndpoint :=
    ⟨_, List.mem_cons_of_mem _ (List.mem_singleton_self _), rfl,
      List.mem_cons_of_mem _ (List.mem_singleton_self _)⟩
  have hpid : (returning.session.map (·.nextPid Echo.interface Echo.inAddress)) = some .data1 := by
    decide +kernel
  obtain ⟨htaken, -, hover⟩ :=
    hdriven.submit_hands_over DeviceDescription.regular_echo Echo.interface Echo.inAddress [4, 5]
  obtain ⟨hother, hnothing, -⟩ :=
    hdriven.submit_hands_over DeviceDescription.regular_echo Echo.interface
      (Direction.input.address 1) [4, 5]
  obtain ⟨s, hs, hhands⟩ := hover Echo.inEndpoint hhas rfl
  rw [hs] at hpid
  refine ⟨hdriven, DeviceDescription.regular_echo, htaken.2 ⟨_, hhas, rfl⟩, hnothing ?_, s, hs,
    Option.some.inj hpid, hhands⟩
  rw [← Bool.not_eq_true, hother]
  rintro ⟨e, ⟨i, hi, -, he⟩, haddress⟩
  have hnone : ∀ i ∈ InterfaceDescription.control :: Echo.device.interfaces, ∀ e ∈ i.endpoints,
      e.address ≠ Direction.input.address 1 := by decide
  exact hnone i hi e he haddress

end Device

end UsbGadget
