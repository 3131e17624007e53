import UsbGadget.Engine.Device
import UsbGadget.Proofs.PacketMemory
import UsbGadget.Proofs.Registers

/-!
# Effects of an open device

What an open device does to the hardware leaves most of it alone. A `Effect.Routine` effect writes
the address and the two status registers at most, and of the packet memory only what arming an
endpoint in its place writes; a `Effect.Transfer` effect writes no register at all. `read_replay`,
`regs_replay`, `byte_replay_low` and `armed_replay` say so for whole logs, by `replay_preserves`.
-/

namespace UsbGadget

theorem Endpoint.available_armWord (e : Endpoint) (length : Nat) :
    (e.armWord length).bit BufferControl.availableBit = true :=
  congrArg BufferControl.available (BufferControl.ofWord_word _)

theorem Hardware.board_mapDpram {σ : Type} (h : Hardware σ)
    (f : Memory Dpram.size → Memory Dpram.size) : (h.mapDpram f).board = h.board := rfl

namespace Effect

/-- An effect of an open device in service: of the registers it writes the address and the two
status registers only. -/
def Routine : Effect → Prop
  | write r _ => r = .addrEndp ∨ r = .sieStatus ∨ r = .buffStatus
  | arm e data => e.Placed ∧ data.length ≤ Dpram.bufferSize
  | heed _ | collect _ _ | call _ _ _ => True
  | reset | clear | line _ | enable _ => False

/-- An effect that writes no register. -/
def Transfer : Effect → Prop
  | arm e data => e.Placed ∧ data.length ≤ Dpram.bufferSize
  | heed _ | collect _ _ | call _ _ _ => True
  | write _ _ | reset | clear | line _ | enable _ => False

variable {σ : Type}

theorem regs_mapDpram (h : Hardware σ) (f : Memory Dpram.size → Memory Dpram.size) :
    (h.mapDpram f).regs = h.regs := rfl

variable [Board σ]

theorem dpram_apply_arm (h : Hardware σ) (e : Endpoint) (data : List UInt8) :
    ((arm e data).apply h).dpram = e.arm data h.dpram := rfl

@[simp] theorem read_apply_write (h : Hardware σ) (r : Register) (w : Word) :
    ((write r w).apply h).read r = w := Controller.read_write _ _ _

theorem read_apply_write_of_ne (h : Hardware σ) {r s : Register} (w : Word) (hs : s ≠ r) :
    ((write r w).apply h).read s = h.read s := Controller.read_write_of_ne _ _ hs

/-- What the board is like does not matter to the controller, but for what a reset does. -/
theorem toController_apply_congr {τ : Type} [Board τ]
    (hboards : Board.clearsRegisters σ = Board.clearsRegisters τ) {h : Hardware σ}
    {h' : Hardware τ} (hc : h.toController = h'.toController) (e : Effect) :
    (e.apply h).toController = (e.apply h').toController := by
  obtain ⟨c, board⟩ := h
  obtain ⟨c', board'⟩ := h'
  obtain rfl : c = c' := hc
  cases e with
  | reset => simp only [apply, Hardware.reset, hboards]
  | clear | write | line | enable | arm | heed | collect | call => rfl

theorem regs_apply {h : Hardware σ} {e : Effect} (he : e.Transfer) :
    (e.apply h).regs = h.regs := by
  cases e with
  | arm e data => exact regs_mapDpram h _
  | heed | collect | call => rfl
  | write | reset | clear | line | enable => cases he

theorem read_apply {h : Hardware σ} {e : Effect} (he : e.Routine) {r : Register}
    (ha : r ≠ .addrEndp) (hs : r ≠ .sieStatus) (hb : r ≠ .buffStatus) :
    (e.apply h).read r = h.read r := by
  cases e with
  | write r' w =>
    refine Controller.read_write_of_ne _ _ ?_
    rintro rfl
    rcases he with h | h | h
    · exact ha h
    · exact hs h
    · exact hb h
  | arm e data => exact Controller.read_of_regs (regs_mapDpram h _) r
  | heed | collect | call => rfl
  | reset | clear | line | enable => cases he

theorem byte_apply_low {h : Hardware σ} {e : Effect} (he : e.Routine) {i : Nat}
    (hi : i < Dpram.bufferControlOffset 0) : (e.apply h).dpram.byte i = h.dpram.byte i := by
  cases e with
  | write r w => rfl
  | arm e data => exact he.1.byte_arm_low data h.dpram hi
  | heed | collect | call => rfl
  | reset | clear | line | enable => cases he

theorem armed_apply_arm {e : Endpoint} (he : e.Placed) (h : Hardware σ) (data : List UInt8)
    {i : Nat} (hi : i < Dpram.bufferControls) :
    ((arm e data).apply h).toController.armed i =
      if i = e.bufferControl then true else h.toController.armed i := by
  have hword : ((arm e data).apply h).toController.bufferControl i = _ :=
    he.word_arm data h.dpram hi
  rw [Controller.armed, hword]
  split_ifs
  · exact e.available_armWord _
  · rfl

/-- The engine takes no packet back. -/
theorem armed_apply {h : Hardware σ} {e : Effect} (he : e.Routine) {i : Nat}
    (hi : i < Dpram.bufferControls) (harmed : h.toController.armed i = true) :
    (e.apply h).toController.armed i = true := by
  cases e with
  | arm e data =>
    rw [armed_apply_arm he.1 h data hi, harmed, ite_self]
  | write | heed | collect | call => exact harmed
  | reset | clear | line | enable => cases he

end Effect

section

variable {σ : Type} [Board σ]

theorem toController_replay_congr {τ : Type} [Board τ]
    (hboards : Board.clearsRegisters σ = Board.clearsRegisters τ) {h : Hardware σ}
    {h' : Hardware τ} (hc : h.toController = h'.toController) (log : List Effect) :
    (replay log h).toController = (replay log h').toController := by
  induction log generalizing h h' with
  | nil => exact hc
  | cons e log ih =>
    rw [replay_cons, replay_cons]
    exact ih (Effect.toController_apply_congr hboards hc e)

/-- What every effect of a log preserves holds of the hardware afterwards. -/
theorem replay_preserves {P : Hardware σ → Prop} {log : List Effect} {h : Hardware σ}
    (hstep : ∀ e ∈ log, ∀ h', P h' → P (e.apply h')) (hh : P h) : P (replay log h) := by
  induction log generalizing h with
  | nil => exact hh
  | cons e log ih =>
    rw [List.forall_mem_cons] at hstep
    rw [replay_cons]
    exact ih hstep.2 (hstep.1 h hh)

theorem regs_replay {log : List Effect} (hlog : ∀ e ∈ log, e.Transfer)
    (h : Hardware σ) : (replay log h).regs = h.regs :=
  replay_preserves (P := fun h' => h'.regs = h.regs)
    (fun e he _ hh => (Effect.regs_apply (hlog e he)).trans hh) rfl

theorem read_replay {log : List Effect} (hlog : ∀ e ∈ log, e.Routine)
    {r : Register} (ha : r ≠ .addrEndp) (hs : r ≠ .sieStatus) (hb : r ≠ .buffStatus)
    (h : Hardware σ) : (replay log h).read r = h.read r :=
  replay_preserves (P := fun h' => h'.read r = h.read r)
    (fun e he _ hh => (Effect.read_apply (hlog e he) ha hs hb).trans hh) rfl

/-- The SETUP packet and the endpoint control words stay as they are. -/
theorem byte_replay_low {log : List Effect} (hlog : ∀ e ∈ log, e.Routine) {i : Nat}
    (hi : i < Dpram.bufferControlOffset 0) (h : Hardware σ) :
    (replay log h).dpram.byte i = h.dpram.byte i :=
  replay_preserves (P := fun h' => h'.dpram.byte i = h.dpram.byte i)
    (fun e he _ hh => (Effect.byte_apply_low (hlog e he) hi).trans hh) rfl

/-- What the controller has it keeps. -/
theorem armed_replay {log : List Effect} (hlog : ∀ e ∈ log, e.Routine) {i : Nat}
    (hi : i < Dpram.bufferControls) (h : Hardware σ) (harmed : h.toController.armed i = true) :
    (replay log h).toController.armed i = true :=
  replay_preserves (P := fun h' => h'.toController.armed i = true)
    (fun e he _ hh => Effect.armed_apply (hlog e he) hi hh) harmed

end

theorem Event.routine_acknowledge (event : Event) : event.acknowledge.Routine := by
  cases event with
  | setup => exact .inr (.inl rfl)
  | buffer index => exact .inr (.inr rfl)
  | busReset => exact .inr (.inl rfl)

end UsbGadget
