import UsbGadget.Proofs.GuardedSession
import UsbGadget.Text.Reader

/-!
# String descriptors carry their texts

One place counts the units of a text to see whether its descriptor fits in a packet, and another
writes the units one by one as long as there is room. The two agree, up to a text whose last
character is a pair that fills the packet.

* `Written` says what a buffer holds once the descriptor of a text is written to it: a host reads
  the text back, and what lies behind the descriptor is as before (`written_writeBytes`).
* `DescriptorSet.texts_written_or_refused` is the main statement: a text is written so, or it has no
  room and is refused (`DescriptorSet.assemble_of_long_text`).
-/

namespace UsbGadget

/-! ### Writing -/

/-- The descriptor of a text is written over the front of a buffer. -/
structure Written (s : String) (length : Nat) (before after : Guarded.Scratch) : Prop where
  /-- Two bytes stand in front, and every unit of the text takes two. -/
  length_eq : length = 2 + 2 * Utf16.length s
  /-- The buffer has room for them. -/
  room : length ≤ packetLimit
  /-- The first byte is the length. -/
  announced : (after.byte 0).toNat = length
  /-- The second is the kind. -/
  kind : after.byte 1 = 3
  /-- The rest is read as the text. -/
  text : Utf16.decode? (after.readBytes 2 (length - 2)) = some s
  /-- Nothing behind it has changed. -/
  behind : ∀ i, length ≤ i → after.byte i = before.byte i

theorem written_writeBytes {s : String} (h : FitsPacket s) (scratch : Guarded.Scratch) :
    Written s (stringDescriptorLength s) scratch (scratch.writeBytes 0 (stringDescriptor s)) := by
  have hroom : stringDescriptorLength s ≤ 64 := h
  have htext : (Utf16.bytes (Utf16.encode s)).length = stringDescriptorLength s - 2 := by
    rw [Utf16.length_bytes, stringDescriptorLength, Nat.add_sub_cancel_left]
    rfl
  have hbehind : 2 + (Utf16.bytes (Utf16.encode s)).length ≤ packetLimit := by
    rw [htext, packetLimit]
    omega
  have hbyte (i : Nat) (hi : i < (stringDescriptor s).length) :
      (scratch.writeBytes 0 (stringDescriptor s)).byte i = (stringDescriptor s)[i] := by
    have hin : 0 + i < packetLimit := by
      rw [length_stringDescriptor] at hi
      rw [packetLimit]
      omega
    have h' := scratch.byte_writeBytes_add 0 hi hin
    rwa [Nat.zero_add] at h'
  refine ⟨rfl, h, ?_, ?_, ?_, ?_⟩
  · rw [hbyte 0 (Nat.zero_lt_succ _)]
    exact UInt8.toNat_ofNat_of_lt' (Nat.lt_of_le_of_lt hroom (by decide))
  · rw [hbyte 1 (Nat.succ_lt_succ (Nat.zero_lt_succ _))]
    rfl
  -- the text stands behind the two bytes of the header
  · rw [show stringDescriptor s = [UInt8.ofNat (stringDescriptorLength s),
        DescriptorKind.string.byte] ++ Utf16.bytes (Utf16.encode s) from rfl,
      scratch.writeBytes_append, ← htext]
    show Utf16.decode? ((Memory.writeBytes _ 2 _).readBytes 2 _) = _
    rw [Memory.readBytes_writeBytes _ _ _ hbehind, Utf16.decode?_bytes_encode]
  · intro i hi
    rw [Memory.byte_writeBytes, if_neg]
    rw [length_stringDescriptor]
    omega

namespace DescriptorSet

/-- A string of a set that fits in packets is written whole, unit by unit or at once. -/
theorem Fits.written_string {set : DescriptorSet} (hset : set.Fits) {index : UInt8} {s : String}
    (hindex : index ≠ 0) (hs : set.strings[index.toNat - 1]? = some s) (before : Guarded.Scratch) :
    ∃ length after, Guarded.stageString set before index = .ok (after, length) ∧
      set.copyString index (before.readBytes 0 packetLimit) =
        some (length, after.readBytes 0 packetLimit) ∧
      Written s length before after := by
  have hfits := hset.strings s (List.mem_of_getElem? hs)
  have hpos : 1 ≤ index.toNat :=
    Nat.one_le_iff_ne_zero.2 fun h => hindex (UInt8.toNat_inj.1 h)
  have hlength : (stringDescriptor s).length ≤ packetLimit := length_stringDescriptor s ▸ hfits
  refine ⟨_, _, ?_, ?_, written_writeBytes hfits before⟩
  · rw [Guarded.stageString, if_neg hindex, Guarded.difference_eq hpos, Guarded.ok_bind, hs]
    exact Guarded.stageText_eq before hfits
  · rw [copyString, string?, if_neg hindex, hs,
      before.readBytes_writeBytes_of_le hlength (Nat.le_of_eq (Nat.zero_add _)),
      ← length_stringDescriptor]
    rfl

end DescriptorSet

namespace DescriptorSet

/-- Every string of the descriptors of a configuration is written as a descriptor from which the
text is read back, whatever the buffer held before. If the records of a checked configuration fit in
a packet, a text that takes more than thirty-one units is refused. -/
theorem texts_written_or_refused {c : Configuration} :
    (∀ set, assemble c = .ok set → ∀ (index : UInt8) (s : String), index ≠ 0 →
      set.strings[index.toNat - 1]? = some s → ∀ before : Guarded.Scratch, ∃ length after,
        Guarded.stageString set before index = .ok (after, length) ∧
        set.copyString index (before.readBytes 0 packetLimit) =
          some (length, after.readBytes 0 packetLimit) ∧
        Written s length before after) ∧
    ∀ d : DeviceDescription, d.checked = .ok c → c.descriptorLength ≤ packetLimit → c.HasLongText →
      assemble c = .error (.refused .stringTooLong) := by
  constructor
  · intro set hset index s hindex hs before
    exact (fits_of_assemble hset).written_string hindex hs before
  · intro d hd hlength h
    obtain ⟨-, -, -, -, rfl⟩ := DeviceDescription.checked_eq_ok_iff.1 hd
    exact assemble_of_long_text d.accounted_configuration hlength h

end DescriptorSet

/-- The full description with a product name of one letter too many. -/
def DeviceDescription.wordy : DeviceDescription :=
  { full with product := "A product of thirty-two letters." }

theorem DeviceDescription.checked_wordy : wordy.checked = .ok wordy.configuration :=
  checked_eq_ok_iff.2 ⟨usable_full.ids, usable_full.endpoints, by decide, by decide, rfl⟩

namespace DescriptorSet

theorem texts_written_or_refused_full :
    (∃ length after,
      Guarded.stageString DeviceDescription.full.configuration.descriptors .zero 5 =
        .ok (after, length) ∧
      DeviceDescription.full.configuration.descriptors.copyString 5
        (Memory.readBytes (.zero : Guarded.Scratch) 0 packetLimit) =
          some (length, after.readBytes 0 packetLimit) ∧
      Written "A name of a full thirty-one. 😀" length .zero after) ∧
    assemble DeviceDescription.wordy.configuration = .error (.refused .stringTooLong) :=
  ⟨texts_written_or_refused.1 _ DeviceDescription.usable_full.assemble 5 _ (by decide) rfl .zero,
    texts_written_or_refused.2 .wordy DeviceDescription.checked_wordy (by decide)
      (.inr (.inl (by decide +kernel)))⟩

end DescriptorSet

end UsbGadget
