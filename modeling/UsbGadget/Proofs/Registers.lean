import Mathlib.Tactic.Common
import UsbGadget.Engine.Device
import UsbGadget.Proofs.PacketMemory

/-!
# Status registers and what an interrupt reports

The registers after each thing that can happen on the other side of the controller, and the events
that follow from them. `Controller.Ready` says that the three interrupts of the engine are wanted
and that those raised are the ones that the status registers call for; `Device.pending_eq` gives
the events that are then waiting.
-/

namespace UsbGadget

namespace Controller

/-! ### Single registers -/

attribute [simp] read_write_of_ne

@[simp] theorem bufferControl_write (c : Controller) (r : Register) (w : Word) (i : Nat) :
    (c.write r w).bufferControl i = c.bufferControl i := rfl

@[simp] theorem read_setBit_self (c : Controller) (r : Register) (i : Nat) :
    (c.setBit r i).read r = (c.read r).set i := read_write c r _

@[simp] theorem read_setBit_of_ne (c : Controller) {r s : Register} (i : Nat) (h : s ≠ r) :
    (c.setBit r i).read s = c.read s := read_write_of_ne c _ h

@[simp] theorem dpram_setBit (c : Controller) (r : Register) (i : Nat) :
    (c.setBit r i).dpram = c.dpram := rfl

@[simp] theorem read_updateInterrupts_ints (c : Controller) :
    c.updateInterrupts.read .ints = c.raised := read_write c _ _

@[simp] theorem read_updateInterrupts (c : Controller) {r : Register} (h : r ≠ .ints) :
    c.updateInterrupts.read r = c.read r := read_write_of_ne c _ h

@[simp] theorem dpram_updateInterrupts (c : Controller) : c.updateInterrupts.dpram = c.dpram := rfl

/-- The interrupts to raise depend on three registers only. -/
theorem raised_congr {c c' : Controller} (hinte : c'.read .inte = c.read .inte)
    (hsie : c'.read .sieStatus = c.read .sieStatus)
    (hbuff : c'.read .buffStatus = c.read .buffStatus) : c'.raised = c.raised := by
  rw [raised, raised, hinte, hsie, hbuff]

@[simp] theorem raised_updateInterrupts (c : Controller) : c.updateInterrupts.raised = c.raised :=
  raised_congr (by simp) (by simp) (by simp)

theorem read_of_regs {c c' : Controller} (h : c'.regs = c.regs) (r : Register) :
    c'.read r = c.read r := by rw [read, read, h]

theorem regs_updateInterrupts {c c' : Controller} (h : c'.regs = c.regs) :
    c'.updateInterrupts.regs = c.updateInterrupts.regs := by
  rw [updateInterrupts, updateInterrupts, write, write, h,
    raised_congr (read_of_regs h _) (read_of_regs h _) (read_of_regs h _)]

/-! ### Interrupts in step -/

/-- The interrupts that the engine wants. -/
def wanted : Word := Word.ofBits [Bit.bufferInterrupt, Bit.resetInterrupt, Bit.setupInterrupt]

/-- The engine's interrupts are wanted, and those are raised that the status registers call for. -/
structure Ready (c : Controller) : Prop where
  /-- The interrupts that are wanted. -/
  inte : c.read .inte = wanted
  /-- The interrupts that are raised. -/
  ints : c.read .ints = c.raised

theorem ready_updateInterrupts {c : Controller} (h : c.read .inte = wanted) :
    c.updateInterrupts.Ready :=
  ⟨by simpa using h, by simp⟩

theorem bit_flags (a b c : Bool) (i : Nat)
    (hi : i = Bit.setupInterrupt ∨ i = Bit.resetInterrupt ∨ i = Bit.bufferInterrupt) :
    Word.bit (.ofNat (Word.flag a Bit.setupInterrupt + Word.flag b Bit.resetInterrupt +
      Word.flag c Bit.bufferInterrupt)) i =
        if i = Bit.setupInterrupt then a else if i = Bit.resetInterrupt then b else c := by
  rcases hi with rfl | rfl | rfl <;> revert a b c <;> decide

theorem bit_wanted {i : Nat}
    (hi : i = Bit.setupInterrupt ∨ i = Bit.resetInterrupt ∨ i = Bit.bufferInterrupt) :
    wanted.bit i = true := by
  rcases hi with rfl | rfl | rfl <;> decide

/-- What is raised, when the engine's interrupts are wanted. -/
theorem bit_raised {c : Controller} (h : c.read .inte = wanted) {i : Nat}
    (hi : i = Bit.setupInterrupt ∨ i = Bit.resetInterrupt ∨ i = Bit.bufferInterrupt) :
    c.raised.bit i =
      if i = Bit.setupInterrupt then (c.read .sieStatus).bit Bit.setupReceived
      else if i = Bit.resetInterrupt then (c.read .sieStatus).bit Bit.busReset
      else c.read .buffStatus != 0 := by
  simp only [raised, h]
  rw [bit_flags _ _ _ _ hi, bit_wanted (.inl rfl), bit_wanted (.inr (.inl rfl)),
    bit_wanted (.inr (.inr rfl))]
  simp only [Bool.and_true]

/-- The buffers that have come back, in ascending order. -/
def returned (c : Controller) : List Nat :=
  (List.range Dpram.bufferControls).filter (c.read .buffStatus).bit

theorem mem_returned {c : Controller} {i : Nat} :
    i ∈ c.returned ↔ i < Dpram.bufferControls ∧ (c.read .buffStatus).bit i = true := by
  rw [returned, List.mem_filter, List.mem_range]

/-- The events that the status registers call for: a SETUP packet first, then the buffers in
ascending order, then a bus reset. -/
def events (c : Controller) : List Event :=
  (if (c.read .sieStatus).bit Bit.setupReceived then [.setup] else []) ++
    c.returned.map .buffer ++
    (if (c.read .sieStatus).bit Bit.busReset then [.busReset] else [])

theorem Ready.reported_eq {c : Controller} (h : c.Ready) :
    Event.reported (c.read .ints) (c.read .buffStatus) = c.events := by
  -- where no bit is set there is no buffer to report, whether the interrupt is raised or not
  have hbuffers : (if c.read .buffStatus != 0 then c.returned.map Event.buffer else []) =
      c.returned.map .buffer := by
    by_cases hb : c.read .buffStatus = 0
    · simp [returned, hb]
    · simp [hb]
  rw [Event.reported, h.ints, bit_raised h.inte (.inl rfl), bit_raised h.inte (.inr (.inl rfl)),
    bit_raised h.inte (.inr (.inr rfl)), events, ← hbuffers]
  rfl

/-! ### What happens on the other side -/

section

variable (c : Controller)

@[simp] theorem read_mk (dpram : Memory Dpram.size) (r : Register) :
    ({ c with dpram := dpram } : Controller).read r = c.read r := rfl

@[simp] theorem dpram_deliverSetup (p : SetupPacket) :
    (c.deliverSetup p).dpram = c.dpram.writeBytes 0 p.bytes := by
  rw [deliverSetup, dpram_updateInterrupts, dpram_setBit]

theorem byte_deliverSetup (p : SetupPacket) {i : Nat} (hi : 8 ≤ i) :
    (c.deliverSetup p).dpram.byte i = c.dpram.byte i := by
  rw [dpram_deliverSetup, Memory.byte_writeBytes, if_neg]
  rintro ⟨-, h, -⟩
  exact absurd (show i < 8 from h) (Nat.not_lt.2 hi)

@[simp] theorem sieStatus_deliverSetup (p : SetupPacket) :
    (c.deliverSetup p).read .sieStatus = (c.read .sieStatus).set Bit.setupReceived := by
  rw [deliverSetup, read_updateInterrupts _ (by decide), read_setBit_self, read_mk]

@[simp] theorem read_deliverSetup (p : SetupPacket) {r : Register} (hs : r ≠ .sieStatus)
    (hi : r ≠ .ints) : (c.deliverSetup p).read r = c.read r := by
  rw [deliverSetup, read_updateInterrupts _ hi, read_setBit_of_ne _ _ hs, read_mk]

@[simp] theorem dpram_deliverReset : c.deliverReset.dpram = c.dpram := by
  rw [deliverReset, dpram_updateInterrupts, dpram_setBit]

@[simp] theorem read_deliverReset {r : Register} (hs : r ≠ .sieStatus) (hi : r ≠ .ints) :
    c.deliverReset.read r = c.read r := by
  rw [deliverReset, read_updateInterrupts _ hi, read_setBit_of_ne _ _ hs]

@[simp] theorem dpram_retire : c.retire.dpram = c.dpram := by
  rw [retire, dpram_updateInterrupts, dpram_write, dpram_write]

@[simp] theorem sieStatus_retire : c.retire.read .sieStatus = 0 := by simp [retire]

@[simp] theorem buffStatus_retire : c.retire.read .buffStatus = 0 := by simp [retire]

@[simp] theorem read_retire {r : Register} (hs : r ≠ .sieStatus) (hb : r ≠ .buffStatus)
    (hi : r ≠ .ints) : c.retire.read r = c.read r := by
  rw [retire, read_updateInterrupts _ hi, read_write_of_ne _ _ hb, read_write_of_ne _ _ hs]

@[simp] theorem dpram_giveBack (i : Nat) (w : Word) :
    (c.giveBack i w).dpram = c.dpram.writeWord (Dpram.bufferControlOffset i) w := by
  rw [giveBack, dpram_updateInterrupts, dpram_setBit]

@[simp] theorem buffStatus_giveBack (i : Nat) (w : Word) :
    (c.giveBack i w).read .buffStatus = (c.read .buffStatus).set i := by
  rw [giveBack, read_updateInterrupts _ (by decide), read_setBit_self, read_mk]

@[simp] theorem read_giveBack (i : Nat) (w : Word) {r : Register} (hb : r ≠ .buffStatus)
    (hi : r ≠ .ints) : (c.giveBack i w).read r = c.read r := by
  rw [giveBack, read_updateInterrupts _ hi, read_setBit_of_ne _ _ hb, read_mk]

theorem returned_retire : c.retire.returned = [] := by simp [returned]

theorem returned_deliverSetup (p : SetupPacket) : (c.deliverSetup p).returned = c.returned := by
  rw [returned, returned, read_deliverSetup _ _ (by decide) (by decide)]

theorem returned_deliverReset : c.deliverReset.returned = c.returned := by
  rw [returned, returned, read_deliverReset _ (by decide) (by decide)]

end

/-! ### Buffers that are given back -/

theorem bufferControl_giveBack (c : Controller) {i j : Nat} (hi : i < Dpram.bufferControls)
    (w : Word) :
    (c.giveBack i w).bufferControl j = if j = i then w else c.bufferControl j := by
  simp only [Dpram.bufferControls] at hi
  rw [bufferControl, dpram_giveBack]
  split_ifs with hij
  · rw [hij, Memory.word_writeWord _ _ _
      (by simp only [Dpram.bufferControlOffset, Dpram.size]; omega)]
  · rw [Memory.writeWord, Memory.word_writeBytes_of_disjoint, bufferControl]
    simp only [Dpram.bufferControlOffset, Word.length_bytes]
    omega

theorem byte_giveBack (c : Controller) {i j : Nat} (hi : i < Dpram.bufferControls) (w : Word)
    (hj : j < Dpram.bufferControlOffset 0 ∨ Dpram.ep0Buffer ≤ j) :
    (c.giveBack i w).dpram.byte j = c.dpram.byte j := by
  simp only [Dpram.bufferControls, Dpram.bufferControlOffset, Dpram.ep0Buffer] at hi hj
  rw [dpram_giveBack, Memory.writeWord, Memory.byte_writeBytes, if_neg]
  simp only [Dpram.bufferControlOffset, Word.length_bytes]
  omega

theorem bufferControl_writeBytes (c : Controller) {i offset : Nat} (hi : i < Dpram.bufferControls)
    (hoff : Dpram.ep0Buffer ≤ offset) (data : List UInt8) :
    ({ c with dpram := c.dpram.writeBytes offset data } : Controller).bufferControl i =
      c.bufferControl i := by
  simp only [Dpram.bufferControls, Dpram.ep0Buffer] at hi hoff
  rw [bufferControl, Memory.word_writeBytes_of_disjoint, bufferControl]
  simp only [Dpram.bufferControlOffset]
  omega

/-- The controller has a packet of the buffer control register. -/
def armed (c : Controller) (index : Nat) : Bool :=
  (c.bufferControl index).bit BufferControl.availableBit

theorem armed_giveBack (c : Controller) {i j : Nat} (hi : i < Dpram.bufferControls) {w : Word}
    (hw : w.bit BufferControl.availableBit = false) :
    (c.giveBack i w).armed j = if j = i then false else c.armed j := by
  rw [armed, c.bufferControl_giveBack hi]
  split_ifs
  · exact hw
  · rfl

theorem bufferControlIndex_lt (number : UInt8) (d : Direction) :
    Dpram.bufferControlIndex number d < Dpram.bufferControls := by
  have hplace := d.place_le
  simp only [Dpram.bufferControlIndex, Dpram.bufferControls]
  omega

theorem complete_of_not_armed {c : Controller} {address : UInt8} (data : List UInt8)
    (h : c.armed (Dpram.bufferControlIndex address (.ofByte address)) = false) :
    c.complete address data false = (false, c) := by
  simp only [complete]
  exact if_pos (by rw [Bool.or_false, ← armed, h]; rfl)

/-- A completion that is not forced happens if the packet was handed over; an IN packet is given
back as fetched. -/
theorem complete_input (c : Controller) (number : UInt8) (data : List UInt8) (index : Nat)
    (hindex : Dpram.bufferControlIndex number .input = index)
    (hin : Direction.ofByte number = .input) :
    c.complete number data false =
      if c.armed index then (true, c.giveBack index (fetchedWord (c.bufferControl index)))
      else (false, c) := by
  subst hindex
  simp only [complete, hin, armed, Bool.or_false]
  split_ifs <;> simp_all

/-- An OUT packet is given back as filled, if its data lies inside the memory. -/
theorem complete_output (c : Controller) (number : UInt8) (data : List UInt8) (index : Nat)
    (hindex : Dpram.bufferControlIndex number .output = index)
    (hout : Direction.ofByte number = .output)
    (hfit : c.packetOffset number .output + data.length ≤ Dpram.size) :
    c.complete number data false =
      if c.armed index then
        (true, { c with dpram := c.dpram.writeBytes (c.packetOffset number .output) data }.giveBack
          index (filledWord (c.bufferControl index) data.length))
      else (false, c) := by
  subst hindex
  simp only [complete, hout, armed, Bool.or_false, if_neg (Nat.not_lt.2 hfit)]
  split_ifs <;> simp_all

/-- A completion does nothing, or gives the buffer back; the data of an OUT packet is put into the
memory first. -/
theorem complete_cases (c : Controller) (address : UInt8) (data : List UInt8) (force : Bool) :
    (c.complete address data force).2 = c ∨ ∃ i < Dpram.bufferControls, ∃ w,
      (c.complete address data force).2 = c.giveBack i w ∨
      (Direction.ofByte address = .output ∧ (c.complete address data force).2 = Controller.giveBack
        { c with dpram := c.dpram.writeBytes (c.packetOffset address .output) data } i w) := by
  have hindex := bufferControlIndex_lt address (.ofByte address)
  unfold complete
  simp only
  split
  · exact .inl rfl
  · split
    · exact .inr ⟨_, hindex, _, .inl rfl⟩
    · rename_i hout
      rw [hout]
      split
      · exact .inl rfl
      · exact .inr ⟨_, hout ▸ hindex, _, .inr ⟨rfl, rfl⟩⟩

theorem read_complete (c : Controller) (address : UInt8) (data : List UInt8) (force : Bool)
    {r : Register} (hb : r ≠ .buffStatus) (hi : r ≠ .ints) :
    (c.complete address data force).2.read r = c.read r := by
  rcases c.complete_cases address data force with hsame | ⟨i, -, w, hback | ⟨-, hback⟩⟩
  · rw [hsame]
  · rw [hback, read_giveBack _ _ _ hb hi]
  · rw [hback, read_giveBack _ _ _ hb hi, read_mk]

/-- A completed packet is reported, and nothing else is. -/
theorem buffStatus_complete (c : Controller) (address : UInt8) (data : List UInt8) (force : Bool) :
    (c.complete address data force).2.read .buffStatus =
      if (c.complete address data force).1 then
        (c.read .buffStatus).set (Dpram.bufferControlIndex address (.ofByte address))
      else c.read .buffStatus := by
  unfold complete
  simp only
  split
  · rfl
  · split
    · exact buffStatus_giveBack _ _ _
    · split
      · rfl
      · exact buffStatus_giveBack _ _ _

/-! ### The data first, and the word afterwards -/

/-- Two controllers that differ at most in those parts of a buffer control word that the engine
does not look at. -/
structure Alike (index : Nat) (c c' : Controller) : Prop where
  /-- The registers are the same. -/
  regs : c'.regs = c.regs
  /-- The packet memory is the same outside the word. -/
  byte : ∀ i, i < Dpram.bufferControlOffset index ∨ Dpram.bufferControlOffset index + 4 ≤ i →
    c'.dpram.byte i = c.dpram.byte i
  /-- The controller has the packet, or not, in both. -/
  armed : c'.armed index = c.armed index
  /-- The packet is as long in both. -/
  length : (BufferControl.ofWord (c'.bufferControl index)).length =
    (BufferControl.ofWord (c.bufferControl index)).length

theorem Alike.refl (index : Nat) (c : Controller) : c.Alike index c :=
  ⟨rfl, fun _ _ => rfl, rfl, rfl⟩

theorem regs_giveBack (c : Controller) (index : Nat) (w : Word) :
    (c.giveBack index w).regs = (c.setBit .buffStatus index).updateInterrupts.regs :=
  regs_updateInterrupts rfl

theorem alike_giveBack (c : Controller) {index : Nat} (hindex : index < Dpram.bufferControls)
    (w w' : Word) (length : Nat) :
    Alike index (c.giveBack index (filledWord w length))
      (c.giveBack index (filledWord w' length)) := by
  have hw := ofWord_filledWord w length
  have hw' := ofWord_filledWord w' length
  refine ⟨?_, ?_, ?_, ?_⟩
  · rw [regs_giveBack, regs_giveBack]
  · intro i hi
    have houtside : ∀ word : Word,
        (c.giveBack index word).dpram.byte i = c.dpram.byte i := fun word => by
      rw [dpram_giveBack, Memory.writeWord, Memory.byte_writeBytes, Word.length_bytes, if_neg]
      omega
    rw [houtside, houtside]
  · rw [armed_giveBack _ hindex hw.1, armed_giveBack _ hindex hw'.1]
  · simp only [bufferControl_giveBack _ hindex, if_true]
    rw [hw.2, hw'.2]

section

variable {c : Controller} {address : UInt8} {data : List UInt8} {force : Bool}

/-- The engine cannot tell whether the data or the buffer control word of a packet came first. -/
theorem alike_complete (h : (c.complete address data force).1 = true) :
    Alike (Dpram.bufferControlIndex address (.ofByte address)) (c.complete address data force).2
      (c.completeDataFirst address data) := by
  have hindex := bufferControlIndex_lt address (.ofByte address)
  cases hd : Direction.ofByte address with
  | input =>
    simp only [complete, completeDataFirst, hd] at h ⊢
    split_ifs at h ⊢
    exact .refl _ _
  | output =>
    rw [hd] at hindex
    simp only [complete, completeDataFirst, hd] at h ⊢
    split_ifs at h ⊢
    exact alike_giveBack _ hindex _ _ _

/-- Where the data lies clear of its buffer control word the order makes no difference at all. -/
theorem complete_eq_completeDataFirst (h : (c.complete address data force).1 = true)
    (hclear : Direction.ofByte address = .output →
      c.packetOffset address .output + data.length ≤
          Dpram.bufferControlOffset (Dpram.bufferControlIndex address .output) ∨
        Dpram.bufferControlOffset (Dpram.bufferControlIndex address .output) + 4 ≤
          c.packetOffset address .output) :
    (c.complete address data force).2 = c.completeDataFirst address data := by
  cases hd : Direction.ofByte address with
  | input =>
    simp only [complete, completeDataFirst, hd] at h ⊢
    split_ifs at h ⊢
    rfl
  | output =>
    have hword := Memory.word_writeBytes_of_disjoint c.dpram (hclear hd).symm
    simp only [complete, completeDataFirst, hd] at h ⊢
    split_ifs at h ⊢
    simp only [bufferControl, hword]

end

namespace Ready

variable {c : Controller}

theorem of_regs {c' : Controller} (h : c.Ready) (hregs : c'.regs = c.regs) : c'.Ready where
  inte := (read_of_regs hregs _).trans h.inte
  ints := (read_of_regs hregs _).trans (h.ints.trans
    (raised_congr (read_of_regs hregs _) (read_of_regs hregs _) (read_of_regs hregs _)).symm)

theorem mk_dpram (h : c.Ready) (dpram : Memory Dpram.size) :
    ({ c with dpram := dpram } : Controller).Ready := h.of_regs rfl

theorem deliverSetup (h : c.Ready) (p : SetupPacket) : (c.deliverSetup p).Ready :=
  ready_updateInterrupts (by simpa using h.inte)

theorem deliverReset (h : c.Ready) : c.deliverReset.Ready :=
  ready_updateInterrupts (by simpa using h.inte)

theorem retire (h : c.read .inte = wanted) : c.retire.Ready :=
  ready_updateInterrupts (by simpa using h)

theorem giveBack (h : c.Ready) (i : Nat) (w : Word) : (c.giveBack i w).Ready :=
  ready_updateInterrupts (by simpa using h.inte)

theorem complete (h : c.Ready) (address : UInt8) (data : List UInt8) (force : Bool) :
    (c.complete address data force).2.Ready := by
  rcases c.complete_cases address data force with hsame | ⟨i, -, w, hback | ⟨-, hback⟩⟩
  · rwa [hsame]
  · rw [hback]
    exact h.giveBack i w
  · rw [hback]
    exact (h.mk_dpram _).giveBack i w

end Ready

end Controller

namespace Device

variable {σ : Type} [Board σ]

omit [Board σ] in
/-- The events that wait for an interrupt. -/
theorem pending_eq {d : Device σ} (h : d.hw.toController.Ready) :
    d.pending = d.hw.toController.events := h.reported_eq

omit [Board σ] in
theorem buffer_mem_pending {d : Device σ} {i : Nat} :
    .buffer i ∈ d.pending ↔
      (d.hw.read .ints).bit Bit.bufferInterrupt = true ∧ i ∈ d.hw.toController.returned := by
  rw [pending, Event.reported, Controller.returned]
  cases (d.hw.read .ints).bit Bit.setupInterrupt <;>
    cases (d.hw.read .ints).bit Bit.bufferInterrupt <;>
    cases (d.hw.read .ints).bit Bit.resetInterrupt <;> simp

omit [Board σ] in
theorem exists_pending_concat {d : Device σ} (h : .busReset ∈ d.pending) :
    ∃ events, d.pending = events ++ [.busReset] := by
  rw [pending, Event.reported] at h ⊢
  split_ifs at h ⊢ with hsetup hbuffers hreset
  all_goals first | exact ⟨_, rfl⟩ | simp at h

theorem handleAll_cons (d : Device σ) (event : Event) (events : List Event) :
    d.handleAll (event :: events) =
      (((d.handle event).1.handleAll events).1,
        (d.handle event).2 ++ ((d.handle event).1.handleAll events).2) := rfl

theorem handleAll_singleton (d : Device σ) (event : Event) :
    d.handleAll [event] = d.handle event := by
  rw [handleAll_cons]
  exact Prod.ext rfl (List.append_nil _)

theorem handleAll_append (d : Device σ) (events events' : List Event) :
    d.handleAll (events ++ events') =
      (((d.handleAll events).1.handleAll events').1,
        (d.handleAll events).2 ++ ((d.handleAll events).1.handleAll events').2) := by
  induction events generalizing d with
  | nil => rfl
  | cons event events ih => simp only [List.cons_append, handleAll, ih, List.append_assoc]

end Device

end UsbGadget
