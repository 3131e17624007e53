import Mathlib.Data.Nat.Bitwise
import Mathlib.Tactic.Common
import UsbGadget.Proofs.Accepted

/-!
# Which addresses are packet buffers

The offset of an address from an aligned base is a subtraction, although it is computed by
exclusive or (`BufferAddress.offset_eq_some`). An endpoint's buffer is in order exactly when its
address starts one of the slots from endpoint 0's buffer up (`BufferAddress.Slot`), whatever the
endpoint's packet size (`EndpointDescription.bufferOffset_eq_ok_iff`).
`EndpointDescription.bufferOffset_accepts_slots` puts the two together.

`EndpointDescription.Usable` is all that is asked of an endpoint, and
`EndpointDescription.checked_eq_ok_iff` says that its check asks for no more and no less.
-/

namespace UsbGadget

/-! ### Exclusive or with an aligned base -/

/-- Two numbers agree above the low bits exactly when those bits are all that is left of their
exclusive or. -/
theorem xor_lt_two_pow_iff {a b n : Nat} : a ^^^ b < 2 ^ n ↔ a / 2 ^ n = b / 2 ^ n := by
  rw [← Nat.div_eq_zero_iff_lt (Nat.two_pow_pos n), Nat.xor_div_two_pow, Nat.xor_eq_zero_iff]

/-- A base without low bits is taken away from a number that agrees with it above them. -/
theorem xor_of_aligned {a b n : Nat} (hb : b % 2 ^ n = 0) (h : a / 2 ^ n = b / 2 ^ n) :
    a ^^^ b = a % 2 ^ n := by
  have hlow : (a ^^^ b) % 2 ^ n = a % 2 ^ n := by
    rw [Nat.xor_mod_two_pow, hb, Nat.xor_zero]
  rwa [Nat.mod_eq_of_lt (xor_lt_two_pow_iff.2 h)] at hlow

namespace BufferAddress

/-- The offset of an address from a base that is a multiple of the memory's size. -/
theorem offset_eq_some {a : BufferAddress} {base : UInt32} (hbase : base.toNat % Dpram.size = 0)
    {o : Nat} : a.offset base = some o ↔ a.raw.toNat = base.toNat + o ∧ o < Dpram.size := by
  have hsize : Dpram.size = 2 ^ 12 := rfl
  rw [hsize] at hbase
  unfold offset
  simp only [UInt32.toNat_xor, Option.ite_none_right_eq_some, Option.some.injEq, hsize]
  constructor
  · rintro ⟨hlt, rfl⟩
    have hhigh := xor_lt_two_pow_iff.1 hlt
    rw [xor_of_aligned hbase hhigh]
    omega
  · rintro ⟨haddress, hlt⟩
    have hhigh : a.raw.toNat / 2 ^ 12 = base.toNat / 2 ^ 12 := by omega
    refine ⟨xor_lt_two_pow_iff.2 hhigh, ?_⟩
    rw [xor_of_aligned hbase hhigh]
    omega

theorem offset_eq_some_iff_distance {a : BufferAddress} {base : UInt32}
    (hbase : base.toNat % Dpram.size = 0) {o : Nat} :
    a.offset base = some o ↔
      (base.toNat ≤ a.raw.toNat ∧ a.raw.toNat < base.toNat + Dpram.size) ∧
        o = a.raw.toNat - base.toNat := by
  rw [offset_eq_some hbase]
  omega

/-- The address starts a slot of the buffer area, at this offset. -/
structure Slot (a : BufferAddress) (o : Nat) : Prop where
  /-- The address is that of the offset. -/
  address : a.raw.toNat = Dpram.base.toNat + o
  /-- The offset is a multiple of the size of a slot. -/
  aligned : o % Dpram.bufferSize = 0
  /-- The slot is above the control registers. -/
  le : Dpram.ep0Buffer ≤ o
  /-- The slot is inside the memory. -/
  ge : o ≤ 0xFC0

end BufferAddress

theorem BufferAddress.Slot.packet_le {a : BufferAddress} {o : Nat} (h : a.Slot o) (size : UInt16) :
    o + (legalPacketSize size).toNat ≤ Dpram.size := by
  have hlast := h.ge
  have hle := legalPacketSize_toNat_le size
  rw [Dpram.size]
  omega

theorem legalPacketSize_pos (size : UInt16) : 0 < (legalPacketSize size).toNat := by
  unfold legalPacketSize
  split_ifs <;> decide

namespace EndpointDescription

/-- A buffer is in order exactly when it starts a slot. -/
theorem bufferOffset_eq_ok_iff {e : EndpointDescription} {o : Nat} :
    e.bufferOffset = .ok o ↔ e.dataBuffer.Slot o := by
  rw [bufferOffset_eq_ok, BufferAddress.offset_eq_some (by decide)]
  constructor
  · rintro ⟨⟨haddress, hlt⟩, hge, hend, halign⟩
    -- a packet is never empty, so it does not start past the last slot
    have hpos := legalPacketSize_pos e.maxPacketSize
    refine ⟨haddress, halign, hge, ?_⟩
    simp only [Dpram.size, Dpram.bufferSize] at hend halign
    omega
  · intro h
    have hlast := h.ge
    exact ⟨⟨h.address, by rw [Dpram.size]; omega⟩, h.le, h.packet_le _, h.aligned⟩

/-- From a base that is a multiple of the memory's size the exclusive or is a subtraction: the
addresses with an offset are those of the memory that starts there, and the offset is the distance.
So the buffers that are in order are the slots of the buffer area. The packet size makes no
difference to that, since a slot holds a packet of any size. -/
theorem bufferOffset_accepts_slots :
    (∀ (a : BufferAddress) (base : UInt32), base.toNat % Dpram.size = 0 → ∀ o,
      a.offset base = some o ↔
        (base.toNat ≤ a.raw.toNat ∧ a.raw.toNat < base.toNat + Dpram.size) ∧
          o = a.raw.toNat - base.toNat) ∧
    ∀ (e : EndpointDescription) (o : Nat), (e.bufferOffset = .ok o ↔ e.dataBuffer.Slot o) ∧
      ∀ size : UInt16,
        ({ e with maxPacketSize := size }.bufferOffset = .ok o ↔ e.bufferOffset = .ok o) ∧
        (e.dataBuffer.Slot o → o + (legalPacketSize size).toNat ≤ Dpram.size) := by
  constructor
  · intro a base hbase o
    exact BufferAddress.offset_eq_some_iff_distance hbase
  · intro e o
    refine ⟨bufferOffset_eq_ok_iff, fun size => ⟨?_, fun h => h.packet_le size⟩⟩
    rw [bufferOffset_eq_ok_iff, bufferOffset_eq_ok_iff]

/-- The last address of all has an offset from the last base there is. The last slot is in order,
for the smallest packets and for the largest. -/
theorem bufferOffset_accepts_lastSlot :
    BufferAddress.offset ⟨0xFFFFFFFF⟩ 0xFFFFF000 = some 0xFFF ∧
      (standard .input 1 .bulk 0 57).bufferOffset = .ok 0xFC0 ∧
      (standard .input 1 .bulk 1023 57).bufferOffset = .ok 0xFC0 ∧
      0xFC0 + (legalPacketSize 1023).toNat ≤ Dpram.size := by
  have hslot : (standard .input 1 .bulk 0 57).dataBuffer.Slot 0xFC0 :=
    ⟨by decide, by decide, by decide, Nat.le_refl _⟩
  obtain ⟨haccepts, hsizes⟩ := bufferOffset_accepts_slots.2 (standard .input 1 .bulk 0 57) 0xFC0
  have hsmall := haccepts.2 hslot
  exact ⟨(bufferOffset_accepts_slots.1 _ _ (by decide) _).2 (by decide), hsmall,
    (hsizes 1023).1.2 hsmall, (hsizes 1023).2 hslot⟩

/-- All that is asked of an endpoint. -/
structure Usable (e : EndpointDescription) : Prop where
  /-- Its buffer starts a slot. -/
  dataBuffer : ∃ o, e.dataBuffer.Slot o
  /-- Its buffer control register exists. -/
  bufferControl : e.bufferControl < Dpram.bufferControls
  /-- Its endpoint control register exists, if it has one. -/
  endpointControl : ∀ i, e.endpointControl = some i → i < Dpram.endpointControls

/-- The endpoint with a legal packet size. -/
def tidied (e : EndpointDescription) : EndpointDescription :=
  { e with maxPacketSize := legalPacketSize e.maxPacketSize }

theorem registersExist_iff {e : EndpointDescription} :
    e.registersExist = true ↔ e.bufferControl < Dpram.bufferControls ∧
      ∀ i, e.endpointControl = some i → i < Dpram.endpointControls := by
  rw [registersExist, Bool.and_eq_true, decide_eq_true_eq, Option.all_eq_true]
  simp only [decide_eq_true_eq]

/-- The check of an endpoint asks for what makes it usable, and rounds its packet size. -/
theorem checked_eq_ok_iff {e e' : EndpointDescription} :
    e.checked = .ok e' ↔ e.Usable ∧ e' = e.tidied := by
  rw [checked_eq_ok, registersExist_iff]
  simp only [bufferOffset_eq_ok_iff]
  constructor
  · rintro ⟨hslot, ⟨hbuffer, hendpoint⟩, heq⟩
    exact ⟨⟨hslot, hbuffer, hendpoint⟩, heq⟩
  · rintro ⟨⟨hslot, hbuffer, hendpoint⟩, heq⟩
    exact ⟨hslot, ⟨hbuffer, hendpoint⟩, heq⟩

theorem usable_control (d : Direction) : (control d).Usable where
  dataBuffer := ⟨Dpram.ep0Buffer, by cases d <;> exact ⟨rfl, rfl, Nat.le_refl _, by decide⟩⟩
  bufferControl := by cases d <;> decide
  endpointControl := nofun

end EndpointDescription

end UsbGadget
