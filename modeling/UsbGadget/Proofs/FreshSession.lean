import UsbGadget.Proofs.BringUp
import UsbGadget.Proofs.NoFault
import UsbGadget.Proofs.SeparateEndpoints

/-!
# A session starts from nothing

What a device is like once it was opened follows from its description alone (`Device.Fresh`), if the
board's reset clears the registers: whatever was in the registers and in the packet memory before,
and whatever sessions there were. So two such devices are twins (`Device.Twins`): they differ in
their boards at most.

* `Session.toNat_endpointControl`: each endpoint control word is that of the last endpoint of the
  description which has the register (`DeviceDescription.controlWord`);
* `Device.Twins.turn` is the step lemma for two devices side by side: twins tell the same, have the
  same effects and remain twins, whatever happens to both; `Device.Twins.turns` is the run lemma;
* `Device.starts_from_nothing` is the main statement.

The clearing of the packet memory is one effect here. The guarded device clears it part by part, and
ends in the same memory.
-/

namespace UsbGadget

/-! ### The endpoint control words of a description -/

/-- The control word that switches a described endpoint on: two flags, the transfer type and the
offset of the buffer. -/
def EndpointDescription.controlWord (e : EndpointDescription) : Nat :=
  1 <<< EndpointControl.enableBit ||| 1 <<< EndpointControl.reportBit |||
    e.attributes.transfer.code.toNat <<< EndpointControl.transferBit |||
    (e.dataBuffer.raw.toNat - Dpram.base.toNat)

/-- The endpoint control word at an index: that of the last endpoint which has the register, and 0
if there is none. -/
def DeviceDescription.controlWord (d : DeviceDescription) (k : Nat) : Nat :=
  (((d.endpoints.filter (·.endpointControl = some k)).getLast?).map
    EndpointDescription.controlWord).getD 0

theorem Endpoint.toNat_controlWord_of_ofDescription {interface : UInt8} {e₀ : EndpointDescription}
    {e : Endpoint} (h : ofDescription interface e₀.tidied = .ok e) :
    (e.endpointControl, e.controlWord.toNat) = (e₀.endpointControl, e₀.controlWord) := by
  have hslot := (realizes_of_ofDescription h).bufferOffset
  have hoffset : e.bufferOffset = e₀.dataBuffer.raw.toNat - Dpram.base.toNat := by
    rw [hslot.address, Nat.add_sub_cancel_left]
  have hword := toNat_controlWord (Nat.lt_of_le_of_lt hslot.ge (by decide))
  obtain ⟨offset, -, rfl⟩ := ofDescription_eq_ok.1 h
  rw [hword, hoffset]
  rfl

theorem map_getLast?_filter {α κ β : Type} [DecidableEq κ] (key : α → κ) (value : α → β) (k : κ)
    (l : List α) :
    ((l.filter (key · = k)).getLast?).map value =
      (((l.map fun a => (key a, value a)).filter (·.1 = k)).getLast?).map Prod.snd := by
  rw [List.filter_map, List.getLast?_map, Option.map_map]
  rfl

/-- The endpoint control words of a device that was opened as described. -/
theorem Session.toNat_endpointControl {σ : Type} [Board σ] {description : DeviceDescription}
    {s : Session} (h : ofDescription description = .ok s) (hw : Hardware σ) {k : Nat}
    (hk : k < Dpram.endpointControls) :
    ((replay (bringUp s.endpoints) hw).toController.endpointControl k).toNat =
      description.controlWord k := by
  have hwords : (s.endpoints.map fun e => (e.endpointControl, e.controlWord.toNat)) =
      description.endpoints.map fun e => (e.endpointControl, e.controlWord) := by
    rw [← description.map_numbered, List.map_map]
    exact map_eq_of_forall₂ (fun _ _ he => Endpoint.toNat_controlWord_of_ofDescription he)
      (made_ofDescription h)
  -- the last endpoint with the register is looked for in the same pairs on both sides
  rw [endpointControl_bringUp _ _ hk, DeviceDescription.controlWord,
    map_getLast?_filter EndpointDescription.endpointControl, ← hwords, ← map_getLast?_filter]
  cases (s.endpoints.filter (·.endpointControl = some k)).getLast? <;> rfl

namespace Device

/-! ### Devices that were just opened -/

/-- A device that was opened as described, with nothing in it from before. -/
structure Fresh {σ : Type} (description : DeviceDescription) (d : Device σ) : Prop where
  /-- The session is that of the description: no address is pending and no transfer goes on. -/
  session : ∃ s, Session.ofDescription description = .ok s ∧ d.session = some s ∧ s.control = {} ∧
    ∀ e ∈ s.endpoints, e.nextPid = .data0
  /-- There is no SETUP packet, no packet was handed over, and the packet buffers are empty. -/
  byte : ∀ i, i < Dpram.endpointControlOffset 0 ∨ Dpram.bufferControlOffset 0 ≤ i →
    d.hw.dpram.byte i = 0
  /-- The endpoints are switched on. -/
  endpointControl : ∀ k < Dpram.endpointControls,
    (d.hw.toController.endpointControl k).toNat = description.controlWord k

variable {σ τ : Type} [Board σ] [Board τ]

theorem fresh_of_open {closed d : Device σ} {description : DeviceDescription} {log : List Effect}
    (hopen : closed.open description = (.ok (), d, log)) : d.Fresh description := by
  obtain ⟨-, s, hs, rfl, rfl⟩ := open_eq_ok.1 hopen
  refine ⟨⟨s, hs, rfl, ?_, fun e he => Session.nextPid_of_mem hs he⟩, ?_, ?_⟩
  · obtain ⟨c, set, endpoints, -, -, -, rfl⟩ := Session.ofDescription_eq_ok.1 hs
    rfl
  · intro i hi
    rw [hw_after]
    exact byte_bringUp (Session.sound_of_ofDescription hs).arranged closed.hw hi
  · intro k hk
    rw [hw_after]
    exact Session.toNat_endpointControl hs closed.hw hk

/-! ### Twins -/

/-- Two devices that differ in their boards at most. -/
structure Twins (d : Device σ) (d' : Device τ) : Prop where
  /-- The registers and the packet memory. -/
  controller : d.hw.toController = d'.hw.toController
  /-- The session. -/
  session : d.session = d'.session

/-- Two calls that tell the same, have the same effects and leave twins. -/
structure Concur {α : Type} (result : α × Device σ × List Effect)
    (result' : α × Device τ × List Effect) : Prop where
  /-- What the calls tell. -/
  told : result.1 = result'.1
  /-- The devices afterwards. -/
  twins : result.2.1.Twins result'.2.1
  /-- The effects. -/
  log : result.2.2 = result'.2.2

namespace Twins

omit [Board σ] [Board τ]
variable {d : Device σ} {d' : Device τ}

theorem mapController (h : d.Twins d') (f : Controller → Controller) :
    (d.mapController f).Twins (d'.mapController f) := ⟨congrArg f h.controller, h.session⟩

theorem pending_eq (h : d.Twins d') : d.pending = d'.pending := by
  rw [pending, pending, h.controller]

variable [Board σ] [Board τ]

section

variable (hboards : Board.clearsRegisters σ = Board.clearsRegisters τ)

include hboards

theorem after (h : d.Twins d') (log : List Effect) (session : Option Session) :
    (d.after log session).Twins (d'.after log session) :=
  ⟨toController_replay_congr hboards h.controller log, rfl⟩

theorem handle (h : d.Twins d') (event : Event) :
    Concur ((), d.handle event) ((), d'.handle event) := by
  have hdpram : d.hw.dpram = d'.hw.dpram := congrArg Controller.dpram h.controller
  simp only [Device.handle, h.session, hdpram]
  cases hs : d'.session with
  | none => exact ⟨rfl, h, rfl⟩
  | some s => exact ⟨rfl, h.after hboards _ _, rfl⟩

theorem handleAll (h : d.Twins d') (events : List Event) :
    Concur ((), d.handleAll events) ((), d'.handleAll events) := by
  induction events generalizing d d' with
  | nil => exact ⟨rfl, h, rfl⟩
  | cons event events ih =>
    have hfirst := h.handle hboards event
    have hrest := ih hfirst.twins
    exact ⟨rfl, hrest.twins, congrArg₂ (· ++ ·) hfirst.log hrest.log⟩

theorem «open» (h : d.Twins d') (description : DeviceDescription) :
    Concur (d.open description) (d'.open description) := by
  simp only [Device.open, h.session]
  cases d'.session with
  | some s => exact ⟨rfl, h, rfl⟩
  | none =>
    cases Session.ofDescription description with
    | error e => exact ⟨rfl, h, rfl⟩
    | ok s => exact ⟨rfl, h.after hboards _ _, rfl⟩

theorem close (h : d.Twins d') : Concur ((), d.close) ((), d'.close) := by
  simp only [Device.close, h.session]
  cases d'.session with
  | none => exact ⟨rfl, h, rfl⟩
  | some s => exact ⟨rfl, h.after hboards _ _, rfl⟩

theorem submit (h : d.Twins d') (interface address : UInt8) (data : List UInt8) :
    Concur (d.submit interface address data) (d'.submit interface address data) := by
  simp only [Device.submit, h.session]
  cases d'.session with
  | none => exact ⟨rfl, h, rfl⟩
  | some s => exact ⟨rfl, h.after hboards _ _, rfl⟩

/-- Twins stay twins, whatever happens to both. -/
theorem turn (h : d.Twins d') (t : Turn) : Concur (d.turn t) (d'.turn t) := by
  cases t with
  | overwrite c => exact ⟨rfl, h.mapController _, rfl⟩
  | step step =>
    cases step with
    | «open» description =>
      have hopen := h.open hboards description
      exact ⟨congrArg (Except.map fun _ => Outcome.silent) hopen.told, hopen.twins, hopen.log⟩
    | close => exact ⟨rfl, (h.close hboards).twins, (h.close hboards).log⟩
    | submit interface address data =>
      have hsubmit := h.submit hboards interface address data
      exact ⟨congrArg (Except.ok ∘ Outcome.answer) hsubmit.told, hsubmit.twins, hsubmit.log⟩
    | interrupt =>
      have hall := h.handleAll hboards d.pending
      simp only [Device.turn, Device.step, interrupt, ← h.pending_eq]
      exact ⟨rfl, hall.twins, hall.log⟩
    | service =>
      have hall := h.handleAll hboards d.pending
      rw [turn_service, turn_service, ← h.pending_eq]
      exact ⟨rfl, hall.twins.mapController _, hall.log⟩
    | host step =>
      simp only [Device.turn, Device.step, h.controller]
      exact ⟨rfl, h.mapController _, rfl⟩

/-- Twins tell the same and have the same effects in a whole run. -/
theorem turns (h : d.Twins d') (ts : List Turn) : Concur (d.turns ts) (d'.turns ts) := by
  induction ts generalizing d d' with
  | nil => exact ⟨rfl, h, rfl⟩
  | cons t ts ih =>
    have hfirst := h.turn hboards t
    have hrest := ih hfirst.twins
    exact ⟨congrArg₂ List.cons hfirst.told hrest.told, hrest.twins,
      congrArg₂ (· ++ ·) hfirst.log hrest.log⟩

end

end Twins

/-- A reset that clears the registers leaves nothing of the controller once the memory is cleared
too. -/
theorem toController_reset_clear (hclears : Board.clearsRegisters σ = true) (h : Hardware σ) :
    (replay [.reset, .clear] h).toController = .blank := by
  simp only [replay_cons, replay_nil, Effect.apply, Hardware.reset, hclears]
  rfl

theorem toController_bringUp (hσ : Board.clearsRegisters σ = true)
    (hτ : Board.clearsRegisters τ = true) (endpoints : List Endpoint) (h : Hardware σ)
    (h' : Hardware τ) :
    (replay (bringUp endpoints) h).toController =
      (replay (bringUp endpoints) h').toController := by
  have hcleared : (replay [.reset, .clear] h).toController =
      (replay [.reset, .clear] h').toController := by
    rw [toController_reset_clear hσ, toController_reset_clear hτ]
  -- from there on both go through the same effects
  have hsplit : bringUp endpoints = [.reset, .clear] ++ (bringUp endpoints).drop 2 := rfl
  rw [hsplit, replay_append, replay_append]
  exact toController_replay_congr (hσ.trans hτ.symm) hcleared _

/-! ### The main statement -/

/-- On boards whose reset clears the registers a session starts from nothing. A device that was
opened as described is fresh. Any other closed device then opens as well, with the same effects, and
the two are twins for good. Closing an open device leaves the packet memory empty. All that is so,
too, when every access is guarded and the memory is cleared part by part. -/
theorem starts_from_nothing (hσ : Board.clearsRegisters σ = true)
    (hτ : Board.clearsRegisters τ = true) {closed d : Device σ} {description : DeviceDescription}
    {log : List Effect} (hopen : closed.open description = (.ok (), d, log))
    {closed' : Device τ} (hclosed : closed'.session = none) :
    d.Fresh description ∧
      (∃ d', closed'.open description = (.ok (), d', log) ∧ d.Twins d' ∧
        ∀ ts : List Turn, Concur (d.turns ts) (d'.turns ts)) ∧
      (∀ d₁ : Device σ, d₁.isOpen = true → ∀ i < Dpram.size, d₁.close.1.hw.dpram.byte i = 0) ∧
      Guarded.replay log closed.hw = .ok d.hw ∧
      (∀ d₁ : Device σ, d₁.isOpen = true →
        Guarded.replay d₁.close.2 d₁.hw = .ok d₁.close.1.hw) := by
  have hboards := hσ.trans hτ.symm
  obtain ⟨-, s, hs, rfl, rfl⟩ := open_eq_ok.1 hopen
  have htwins : (closed.after (bringUp s.endpoints) (some s)).Twins
      (closed'.after (bringUp s.endpoints) (some s)) :=
    ⟨toController_bringUp hσ hτ s.endpoints closed.hw closed'.hw, rfl⟩
  have hclose (d₁ : Device σ) (h₁ : d₁.isOpen = true) :
      d₁.close = (d₁.after shutDown none, shutDown) := by
    obtain ⟨s₁, hs₁⟩ := Option.isSome_iff_exists.1 h₁
    simp only [close, hs₁]
  refine ⟨fresh_of_open hopen, ⟨_, open_eq_ok.2 ⟨hclosed, s, hs, rfl, rfl⟩, htwins,
    htwins.turns hboards⟩, ?_, ?_, ?_⟩
  · intro d₁ h₁ i _
    rw [hclose d₁ h₁, hw_after, dpram_shutDown, Memory.byte_zero]
  · rw [hw_after]
    exact Guarded.replay_eq
      (safe_bringUp (Session.sound_of_ofDescription hs).arranged) closed.hw
  · intro d₁ h₁
    rw [hclose d₁ h₁, hw_after]
    exact Guarded.replay_eq safe_shutDown d₁.hw

/-- A closed device in which every bit of the controller is set. -/
def noisy : Device Bench := ⟨Guarded.noisyBench, none⟩

/-- Opened in noise the echo device is the same as on a blank controller, and its first endpoint is
switched on as a bulk endpoint with its packets at 0x180. -/
theorem starts_from_noise :
    (noisy.open Echo.device).1 = .ok () ∧ (noisy.open Echo.device).2.1.Fresh Echo.device ∧
      ((noisy.open Echo.device).2.1.hw.toController.endpointControl 1).toNat = 0xA8000180 ∧
      ∃ d', (blank ({} : Bench)).open Echo.device = (.ok (), d', (noisy.open Echo.device).2.2) ∧
        (noisy.open Echo.device).2.1.Twins d' := by
  have hopen : (noisy.open Echo.device).1 = .ok () := by decide +kernel
  obtain ⟨hfresh, ⟨d', hopen', htwins, -⟩, -⟩ :=
    starts_from_nothing (show Board.clearsRegisters Bench = true from rfl)
      (show Board.clearsRegisters Bench = true from rfl)
      (Prod.ext hopen rfl : noisy.open Echo.device = (.ok (), _, _))
      (show (blank ({} : Bench)).session = none from rfl)
  have hword : Echo.device.controlWord 1 = 0xA8000180 := by decide +kernel
  exact ⟨hopen, hfresh, (hfresh.endpointControl 1 (by decide)).trans hword, d', hopen', htwins⟩

end Device

end UsbGadget
