import UsbGadget.Proofs.HandlerData
import UsbGadget.Proofs.NoFault

/-!
# What servicing and submitting leave alone

A device in use (`Device.InUse`) is one that was opened and not closed since, with anything written
over its registers and its packet memory. An interrupt that it services and a packet that it is
asked to submit write the address and the two status registers, buffer control words, and the
packet buffers of the described endpoints, and nothing else (`Device.Frame`).

* `Effect.frame_apply` is the step lemma, for one effect; `frame_replay` lifts it to a log;
* `Device.InUse.session` says that every state in use has the setup of its description;
* `Device.InUse.disturbs_nothing` is the main statement.
-/

namespace UsbGadget

/-- A place in the packet memory belongs to the packet buffer of an endpoint that is described. -/
def DeviceDescription.Buffers (d : DeviceDescription) (i : Nat) : Prop :=
  ∃ e ∈ d.endpoints, e.dataBuffer.raw.toNat ≤ Dpram.base.toNat + i ∧
    Dpram.base.toNat + i < e.dataBuffer.raw.toNat + Dpram.bufferSize

/-! ### Hardware -/

/-- The hardware before and after something that writes the address and the two status registers,
buffer control words, and packet buffers in the places given. -/
structure Hardware.Frame {σ : Type} (buffers : Nat → Prop) (h h' : Hardware σ) : Prop where
  /-- Every byte of every other register. -/
  register : ∀ i, (∀ r ∈ [Register.addrEndp, .sieStatus, .buffStatus],
    i < r.offset ∨ r.offset + 4 ≤ i) → h'.regs.byte i = h.regs.byte i
  /-- The SETUP packet and the endpoint control words. -/
  control : ∀ i < Dpram.bufferControlOffset 0, h'.dpram.byte i = h.dpram.byte i
  /-- The other packet buffers. -/
  buffer : ∀ i, Dpram.ep0Buffer ≤ i → ¬buffers i → h'.dpram.byte i = h.dpram.byte i
  /-- The board. -/
  board : h'.board = h.board

namespace Hardware.Frame

variable {σ : Type} {buffers : Nat → Prop} {h h' h'' : Hardware σ}

theorem refl (h : Hardware σ) : Frame buffers h h :=
  ⟨fun _ _ => rfl, fun _ _ => rfl, fun _ _ _ => rfl, rfl⟩

theorem trans (h₁ : Frame buffers h h') (h₂ : Frame buffers h' h'') : Frame buffers h h'' where
  register i hi := (h₂.register i hi).trans (h₁.register i hi)
  control i hi := (h₂.control i hi).trans (h₁.control i hi)
  buffer i hi hout := (h₂.buffer i hi hout).trans (h₁.buffer i hi hout)
  board := h₂.board.trans h₁.board

end Hardware.Frame

/-- The packet buffers of a session's endpoints are among the places given. -/
def Session.BuffersIn (s : Session) (buffers : Nat → Prop) : Prop :=
  ∀ e ∈ s.endpoints, ∀ i, e.bufferOffset ≤ i → i < e.bufferOffset + Dpram.bufferSize → buffers i

section

variable {σ : Type} [Board σ] {s : Session} {buffers : Nat → Prop}

/-- A routine effect on a session's own endpoints stays within the frame. -/
theorem Effect.frame_apply {e : Effect} (hroutine : e.Routine) (hamong : e.Among s)
    (hs : s.BuffersIn buffers) (h : Hardware σ) : h.Frame buffers (e.apply h) := by
  cases e with
  | reset | clear | line | enable => cases hroutine
  | heed | collect | call => exact .refl h
  | write r w =>
    refine ⟨?_, fun _ _ => rfl, fun _ _ _ => rfl, rfl⟩
    intro i hi
    have hr : r ∈ [Register.addrEndp, .sieStatus, .buffStatus] := by simpa [Routine] using hroutine
    have houtside := hi r hr
    show (h.regs.writeBytes r.offset w.bytes).byte i = h.regs.byte i
    rw [Memory.byte_writeBytes, if_neg]
    rw [Word.length_bytes]
    omega
  | arm e data =>
    obtain ⟨hplaced, hfits⟩ := hroutine
    obtain ⟨⟨e₀, he₀, pid, rfl⟩, -⟩ := hamong
    refine ⟨?_, ?_, ?_, h.board_mapDpram _⟩
    · intro i _
      rw [regs_apply (e := arm _ data) ⟨hplaced, hfits⟩]
    · intro i hi
      rw [dpram_apply_arm, hplaced.byte_arm_low data h.dpram hi]
    · intro i hi hout
      rw [dpram_apply_arm, hplaced.byte_arm data h.dpram hi]
      split_ifs
      · -- a packet fits in the slot of its endpoint, which the place is outside of
        rw [Memory.byte_writeBytes, if_neg]
        rintro ⟨hle, hlt, -⟩
        exact hout (hs e₀ he₀ i hle (Nat.lt_of_lt_of_le hlt (Nat.add_le_add_left hfits _)))
      · rfl

theorem frame_replay {log : List Effect} (hroutine : ∀ e ∈ log, e.Routine)
    (hamong : ∀ e ∈ log, e.Among s) (hs : s.BuffersIn buffers) (h : Hardware σ) :
    h.Frame buffers (replay log h) :=
  replay_preserves (P := fun h' => h.Frame buffers h')
    (fun e he _ hh => hh.trans (Effect.frame_apply (hroutine e he) (hamong e he) hs _)) (.refl h)

end

/-- The endpoints of a session have the buffers of its description, whatever became of the
identifiers of their packets. -/
theorem Session.buffersIn_of_same {description : DeviceDescription} {s₀ s : Session}
    (h : ofDescription description = .ok s₀) (hsame : s₀.Same s) :
    s.BuffersIn description.Buffers := by
  intro e he i hle hlt
  -- from the endpoint as it is now to the one of the session made, and to the described one
  obtain ⟨e₀, he₀, heq⟩ := hsame.mem he
  obtain ⟨described, hdescribed, hrealizes⟩ :=
    exists_of_forall₂_of_mem (realizes_ofDescription h) he₀
  have haddress := hrealizes.bufferOffset.address
  have hoffset : e.bufferOffset = e₀.bufferOffset := by rw [heq]
  exact ⟨described, hdescribed, by omega, by omega⟩

/-! ### Devices in use -/

namespace Device

variable {σ : Type} [Board σ] {description : DeviceDescription} {d : Device σ}

/-- The states of a device that was opened as described and was not closed since, whatever was
written over its registers and its packet memory. -/
inductive InUse (description : DeviceDescription) : Device σ → Prop
  | opened {closed d : Device σ} {log : List Effect}
      (h : closed.open description = (.ok (), d, log)) : InUse description d
  | turn {d : Device σ} {t : Turn} (h : InUse description d) (ht : t ≠ .step .close) :
      InUse description (d.turn t).2.1

theorem same_turn {s : Session} (h : d.session = some s) (hs : s.Sound) {t : Turn}
    (ht : t ≠ .step .close) : ∃ s', (d.turn t).2.1.session = some s' ∧ s.Same s' := by
  cases t with
  | overwrite c => exact ⟨s, h, .refl s⟩
  | step step =>
    cases step with
    | close => exact absurd rfl ht
    | host step => exact ⟨s, h, .refl s⟩
    | «open» description =>
      refine ⟨s, ?_, .refl s⟩
      simp only [Device.turn, Device.step, Device.open, h]
    | submit interface address data =>
      simp only [Device.turn, Device.step, submit_eq h]
      exact ⟨_, rfl, (Session.kept_submit hs.arranged interface address data).same⟩
    | interrupt =>
      obtain ⟨s', hs', hkept⟩ := kept_handleAll h hs.arranged d.pending
      exact ⟨s', hs', hkept.same⟩
    | service =>
      obtain ⟨s', hs', hkept⟩ := kept_handleAll h hs.arranged d.pending
      exact ⟨s', (session_mapController _ _).trans hs', hkept.same⟩

/-- A device in use has the setup of its description. -/
theorem InUse.session (h : InUse description d) :
    ∃ s₀ s, Session.ofDescription description = .ok s₀ ∧ s₀.Same s ∧ d.session = some s := by
  induction h with
  | opened h =>
    obtain ⟨-, s, hs, -, rfl⟩ := open_eq_ok.1 h
    exact ⟨s, s, hs, .refl s, rfl⟩
  | turn _ ht ih =>
    obtain ⟨s₀, s, hs₀, hsame, hs⟩ := ih
    obtain ⟨s', hs', hsame'⟩ := same_turn hs ((Session.sound_of_ofDescription hs₀).of_same hsame) ht
    exact ⟨s₀, s', hs₀, hsame.trans hsame', hs'⟩

/-- The device before and after something that leaves its setup alone: of the hardware the frame,
and of the session all but the state of endpoint 0 and the identifiers of next packets. -/
structure Frame (description : DeviceDescription) (d d' : Device σ) : Prop where
  /-- The hardware. -/
  hardware : d.hw.Frame description.Buffers d'.hw
  /-- The session. -/
  session : ∃ s s', d.session = some s ∧ d'.session = some s' ∧ s.Same s'

/-- Neither servicing the interrupt nor submitting a packet disturbs the setup of a device, whatever
is in its registers and its packet memory and whatever its handlers do. -/
theorem InUse.disturbs_nothing (hd : d.InUse description) :
    d.Frame description d.interrupt.1 ∧
      ∀ interface address data, d.Frame description (d.submit interface address data).2.1 := by
  obtain ⟨s₀, s, hs₀, hsame, hs⟩ := hd.session
  have harranged := ((Session.sound_of_ofDescription hs₀).of_same hsame).arranged
  have hbuffers := Session.buffersIn_of_same hs₀ hsame
  constructor
  · obtain ⟨s', hs', hkept⟩ := kept_handleAll hs harranged d.pending
    refine ⟨?_, s, s', hs, hs', hkept.same⟩
    rw [interrupt, hw_handleAll]
    exact frame_replay hkept.routine (among_handleAll hs harranged d.pending) hbuffers d.hw
  · intro interface address data
    have hkept := Session.kept_submit harranged interface address data
    rw [submit_eq hs]
    exact ⟨frame_replay hkept.routine (s.moves_submit interface address data).among hbuffers d.hw,
      s, _, hs, rfl, hkept.same⟩

/-- The echo device once everything in its controller is overwritten. -/
def overwritten : Device Bench :=
  (((blank {}).open Echo.device).2.1.turn (.overwrite Guarded.noise)).2.1

theorem inUse_overwritten : overwritten.InUse Echo.device := by
  have hopen : ((blank ({} : Bench)).open Echo.device).1 = .ok () := by decide +kernel
  have hopen : (blank ({} : Bench)).open Echo.device = (.ok (), _, _) := Prod.ext hopen rfl
  exact .turn (.opened hopen) nofun

/-- All events come at once, and what lies behind the buffers of the echo device stays. -/
theorem disturbs_nothing_overwritten :
    overwritten.InUse Echo.device ∧ overwritten.pending.length = 34 ∧
      overwritten.Frame Echo.device overwritten.interrupt.1 ∧
      overwritten.interrupt.1.hw.dpram.byte 0x200 = 0xFF := by
  obtain ⟨hpending, hbuffers, hbyte⟩ : overwritten.pending.length = 34 ∧
      (∀ e ∈ Echo.device.endpoints, e.dataBuffer.raw.toNat < Dpram.base.toNat + 0x1C1) ∧
      overwritten.hw.dpram.byte 0x200 = 0xFF := by decide +kernel
  have hframe := inUse_overwritten.disturbs_nothing.1
  refine ⟨inUse_overwritten, hpending, hframe,
    (hframe.hardware.buffer 0x200 (by decide) ?_).trans hbyte⟩
  rintro ⟨e, he, -, hlt⟩
  have hle := hbuffers e he
  simp only [Dpram.bufferSize] at hlt
  omega

end Device

end UsbGadget
