import Mathlib.Tactic.Common
import UsbGadget.Engine.Effect
import UsbGadget.Proofs.Bits

/-!
# What arming and switching on do to the packet memory

The packet memory has three parts: the SETUP packet and the endpoint control words below
`Dpram.bufferControlOffset 0`, the buffer control words above them, and the packet buffers from
`Dpram.ep0Buffer` up. Arming an endpoint that is `Endpoint.Placed` writes one buffer control word
(`Endpoint.Placed.word_arm`) and, for an IN packet, bytes of its own buffer
(`Endpoint.Placed.readBytes_arm`); the lowest part stays as it is
(`Endpoint.Placed.byte_arm_low`). Switching an endpoint on writes one endpoint control word
(`Endpoint.word_enable` and `Endpoint.byte_enable`).
-/

namespace UsbGadget

/-! ### Reads -/

namespace Memory

variable {size : Nat}

theorem readBytes_congr {m n : Memory size} {offset count : Nat}
    (h : ∀ i, offset ≤ i → i < offset + count → m.byte i = n.byte i) :
    m.readBytes offset count = n.readBytes offset count := by
  apply List.map_congr_left
  intro i hi
  rw [List.mem_range] at hi
  exact h _ (by omega) (by omega)

theorem word_congr {m n : Memory size} {offset : Nat}
    (h : ∀ i, offset ≤ i → i < offset + 4 → m.byte i = n.byte i) :
    m.word offset = n.word offset := by
  rw [word, word, h offset (by omega) (by omega), h _ (by omega) (by omega),
    h _ (by omega) (by omega), h _ (by omega) (by omega)]

/-- Bytes that were written are read back in front of those that lay behind them. -/
theorem readBytes_writeBytes_of_le (m : Memory size) {offset count : Nat} {bs : List UInt8}
    (h : bs.length ≤ count) (hsize : offset + count ≤ size) :
    (m.writeBytes offset bs).readBytes offset count =
      bs ++ (m.readBytes offset count).drop bs.length := by
  apply List.ext_getElem
  · simp [h]
  · intro i hi _
    rw [length_readBytes] at hi
    simp only [readBytes, List.getElem_map, List.getElem_range, byte_writeBytes]
    by_cases hin : i < bs.length
    · rw [if_pos (by omega), List.getElem_append_left hin, Nat.add_sub_cancel_left]
      simp [hin]
    · rw [if_neg (by omega), List.getElem_append_right (by omega)]
      simp only [List.getElem_drop, List.getElem_map, List.getElem_range]
      congr 2
      omega

theorem readBytes_add (m : Memory size) (offset n k : Nat) :
    m.readBytes offset (n + k) = m.readBytes offset n ++ m.readBytes (offset + n) k := by
  simp [readBytes, List.range_add, Nat.add_assoc]

theorem readBytes_writeBytes_behind (m : Memory size) (n : Nat) (bs : List UInt8)
    (h : n + bs.length ≤ size) :
    (m.writeBytes n bs).readBytes 0 (n + bs.length) = m.readBytes 0 n ++ bs := by
  have hbefore : (m.writeBytes n bs).readBytes 0 n = m.readBytes 0 n :=
    m.readBytes_writeBytes_of_disjoint (.inl (Nat.le_of_eq (Nat.zero_add _)))
  rw [readBytes_add, hbefore, Nat.zero_add, m.readBytes_writeBytes _ _ h]

theorem take_readBytes (m : Memory size) {offset count n : Nat} (h : n ≤ count) :
    (m.readBytes offset count).take n = m.readBytes offset n := by
  rw [readBytes, ← List.map_take, List.take_range, Nat.min_eq_left h, readBytes]

end Memory

theorem SetupPacket.inMemory_congr {size : Nat} {m n : Memory size}
    (h : ∀ i < 8, m.byte i = n.byte i) : inMemory m = inMemory n := by
  simp only [inMemory, h 0 (by decide), h 1 (by decide), h 2 (by decide), h 3 (by decide),
    h 4 (by decide), h 5 (by decide), h 6 (by decide), h 7 (by decide)]

theorem SetupPacket.inMemory_writeBytes (m : Memory Dpram.size) (p : SetupPacket) :
    inMemory (m.writeBytes 0 p.bytes) = p := by
  have hread : (m.writeBytes 0 p.bytes).readBytes 0 8 = p.bytes :=
    m.readBytes_writeBytes 0 p.bytes (show 0 + 8 ≤ Dpram.size by decide)
  have h := ofBytes?_readBytes (m.writeBytes 0 p.bytes)
  rw [hread, ofBytes?_bytes, Option.some.injEq] at h
  exact h.symm

/-! ### Arming -/

namespace Endpoint

/-- The endpoint's buffer control register exists, and its buffer is a slot of the buffer area that
is large enough for its packets. -/
structure Placed (e : Endpoint) : Prop where
  /-- The buffer control register. -/
  bufferControl_lt : e.bufferControl < Dpram.bufferControls
  /-- The buffer is in the buffer area. -/
  le_bufferOffset : Dpram.ep0Buffer ≤ e.bufferOffset
  /-- The buffer ends inside the memory. -/
  bufferOffset_add_le : e.bufferOffset + Dpram.bufferSize ≤ Dpram.size
  /-- The buffer starts a slot. -/
  aligned : e.bufferOffset % Dpram.bufferSize = 0
  /-- A packet fits in the buffer. -/
  maxPacketSize_le : e.maxPacketSize ≤ Dpram.bufferSize

theorem length_clip (e : Endpoint) (data : List UInt8) :
    (e.clip data).length = min e.maxPacketSize data.length := List.length_take

theorem Placed.length_clip_le {e : Endpoint} (he : e.Placed) (data : List UInt8) :
    (e.clip data).length ≤ Dpram.bufferSize := by
  rw [length_clip]
  exact Nat.le_trans (Nat.min_le_left _ _) he.maxPacketSize_le

/-- Arming writes the endpoint's buffer control word and, for an IN packet, the packet's bytes. -/
theorem byte_arm_of_outside (e : Endpoint) (data : List UInt8) (m : Memory Dpram.size) {i : Nat}
    (hword : i < Dpram.bufferControlOffset e.bufferControl ∨
      Dpram.bufferControlOffset e.bufferControl + 4 ≤ i)
    (hpacket : e.direction = .input → i < e.bufferOffset ∨ e.bufferOffset + data.length ≤ i) :
    (e.arm data m).byte i = m.byte i := by
  simp only [arm, Memory.writeWord]
  rw [Memory.byte_writeBytes, if_neg (by rw [Word.length_bytes]; omega)]
  split_ifs with hin
  · have hpacket := hpacket hin
    rw [Memory.byte_writeBytes, if_neg (by omega)]
  · rfl

namespace Placed

variable {e : Endpoint} (he : e.Placed) (data : List UInt8) (m : Memory Dpram.size)

include he

theorem byte_arm {i : Nat} (hi : Dpram.ep0Buffer ≤ i) :
    (e.arm data m).byte i =
      if e.direction = .input then (m.writeBytes e.bufferOffset data).byte i else m.byte i := by
  have hlt := he.bufferControl_lt
  simp only [Dpram.ep0Buffer, Dpram.bufferControls] at hi hlt
  simp only [arm, Memory.writeWord]
  rw [Memory.byte_writeBytes, if_neg]
  · split_ifs <;> rfl
  · simp only [Dpram.bufferControlOffset, Word.length_bytes]
    omega

/-- Arming leaves the SETUP packet and the endpoint control words alone. -/
theorem byte_arm_low {i : Nat} (hi : i < Dpram.bufferControlOffset 0) :
    (e.arm data m).byte i = m.byte i := by
  have hoff := he.le_bufferOffset
  simp only [Dpram.bufferControlOffset, Dpram.ep0Buffer] at hi hoff
  simp only [arm, Memory.writeWord]
  rw [Memory.byte_writeBytes, if_neg (by simp only [Dpram.bufferControlOffset]; omega)]
  split_ifs
  · rw [Memory.byte_writeBytes, if_neg (by omega)]
  · rfl

/-- Arming writes the endpoint's own buffer control word and no other. -/
theorem word_arm {i : Nat} (hi : i < Dpram.bufferControls) :
    (e.arm data m).word (Dpram.bufferControlOffset i) =
      if i = e.bufferControl then e.armWord data.length
      else m.word (Dpram.bufferControlOffset i) := by
  have hlt := he.bufferControl_lt
  have hoff := he.le_bufferOffset
  simp only [Dpram.ep0Buffer, Dpram.bufferControls] at hi hlt hoff
  -- the packet goes to the buffers, which lie above all buffer control words
  have hfilled : (if e.direction = .input then m.writeBytes e.bufferOffset data else m).word
      (Dpram.bufferControlOffset i) = m.word (Dpram.bufferControlOffset i) := by
    split_ifs
    · rw [Memory.word_writeBytes_of_disjoint]
      simp only [Dpram.bufferControlOffset]
      omega
    · rfl
  simp only [arm]
  by_cases hself : i = e.bufferControl
  · rw [if_pos hself, hself, Memory.word_writeWord _ _ _
      (by simp only [Dpram.bufferControlOffset, Dpram.size]; omega)]
  · rw [if_neg hself, Memory.writeWord, Memory.word_writeBytes_of_disjoint, hfilled]
    simp only [Dpram.bufferControlOffset, Word.length_bytes]
    omega

theorem ofWord_arm (hdata : data.length ≤ Dpram.bufferSize) :
    BufferControl.ofWord ((e.arm data m).word (Dpram.bufferControlOffset e.bufferControl)) =
      ⟨e.direction == .input, e.nextPid, true, data.length⟩ := by
  have hfits : data.length < 1024 := Nat.lt_of_le_of_lt hdata (by decide)
  rw [he.word_arm data m he.bufferControl_lt, if_pos rfl, armWord, BufferControl.ofWord_word]
  simp only [Nat.mod_eq_of_lt hfits]

theorem readBytes_arm_of_ne (hdata : data.length ≤ Dpram.bufferSize) {offset count : Nat}
    (hoff : Dpram.ep0Buffer ≤ offset) (halign : offset % Dpram.bufferSize = 0)
    (hcount : count ≤ Dpram.bufferSize) (hne : e.bufferOffset ≠ offset) :
    (e.arm data m).readBytes offset count = m.readBytes offset count := by
  -- two slots that start at different multiples of the slot size do not overlap
  have halign' := he.aligned
  simp only [Dpram.bufferSize] at hdata halign halign' hcount
  apply Memory.readBytes_congr
  intro i hi hi'
  rw [byte_arm he data m (Nat.le_trans hoff hi)]
  split_ifs
  · rw [Memory.byte_writeBytes, if_neg (by omega)]
  · rfl

/-- The slot of an IN endpoint once a packet of it was armed. -/
theorem readBytes_arm (hin : e.direction = .input) (hdata : data.length ≤ Dpram.bufferSize) :
    (e.arm data m).readBytes e.bufferOffset Dpram.bufferSize =
      data ++ (m.readBytes e.bufferOffset Dpram.bufferSize).drop data.length := by
  rw [← Memory.readBytes_writeBytes_of_le m hdata he.bufferOffset_add_le]
  apply Memory.readBytes_congr
  intro i hi _
  rw [byte_arm he data m (Nat.le_trans he.le_bufferOffset hi), if_pos hin]

theorem readBytes_arm_self (hin : e.direction = .input) (hdata : data.length ≤ Dpram.bufferSize) :
    (e.arm data m).readBytes e.bufferOffset data.length = data := by
  rw [← Memory.take_readBytes _ hdata, he.readBytes_arm data m hin hdata, List.take_left]

theorem readBytes_arm_output (hout : e.direction = .output) {offset count : Nat}
    (hoff : Dpram.ep0Buffer ≤ offset) :
    (e.arm data m).readBytes offset count = m.readBytes offset count := by
  apply Memory.readBytes_congr
  intro i hi _
  rw [byte_arm he data m (Nat.le_trans hoff hi), if_neg (by rw [hout]; decide)]

end Placed

/-! ### Switching on -/

/-- Switching an endpoint on writes its own endpoint control word and no other. -/
theorem word_enable (e : Endpoint) (m : Memory Dpram.size) {k : Nat}
    (hk : k < Dpram.endpointControls) :
    (e.enable m).word (Dpram.endpointControlOffset k) =
      if e.endpointControl = some k then e.controlWord
      else m.word (Dpram.endpointControlOffset k) := by
  simp only [Dpram.endpointControls] at hk
  unfold enable
  cases e.endpointControl with
  | none => rfl
  | some i =>
    simp only [Option.some.injEq]
    by_cases hik : i = k
    · rw [if_pos hik, hik, Memory.word_writeWord _ _ _
        (by simp only [Dpram.endpointControlOffset, Dpram.size]; omega)]
    · rw [if_neg hik, Memory.writeWord, Memory.word_writeBytes_of_disjoint]
      simp only [Dpram.endpointControlOffset, Word.length_bytes]
      omega

/-- Switching an endpoint on leaves everything but the endpoint control words alone. -/
theorem byte_enable {e : Endpoint}
    (he : ∀ k, e.endpointControl = some k → k < Dpram.endpointControls) (m : Memory Dpram.size)
    {i : Nat} (hi : i < Dpram.endpointControlOffset 0 ∨ Dpram.bufferControlOffset 0 ≤ i) :
    (e.enable m).byte i = m.byte i := by
  unfold enable
  cases hindex : e.endpointControl with
  | none => rfl
  | some k =>
    have hk := he k hindex
    simp only [Dpram.endpointControls] at hk
    simp only [Dpram.endpointControlOffset, Dpram.bufferControlOffset] at hi
    show (m.writeBytes _ _).byte i = m.byte i
    rw [Memory.byte_writeBytes, if_neg]
    simp only [Dpram.endpointControlOffset, Word.length_bytes]
    omega

end Endpoint

end UsbGadget
