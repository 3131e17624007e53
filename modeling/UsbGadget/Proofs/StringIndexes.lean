import UsbGadget.Proofs.EndpointCounts

/-!
# String indexes stand for the right strings

A record names a text by its index among the strings. The indexes are computed from positions, and
the strings are put into their table one by one in another place, empty names and a missing serial
number included; so the two could go apart.

* `DescriptorSet.text?` is what a host makes of the string with an index, and
  `DescriptorSet.Fits.text?_eq` that it is the text in the table.
* `DescriptorSet.Names` says that an index in a record stands for a text: it is 0 exactly for the
  empty one.
* `DescriptorSet.indexes_name_texts` is the main statement, for every index in the records.
-/

namespace UsbGadget

/-! ### Reading a string -/

theorem textOf?_stringDescriptor {s : String} (h : FitsPacket s) :
    textOf? (stringDescriptor s) = some s := by
  have hlength : stringDescriptorLength s = 2 + (Utf16.bytes (Utf16.encode s)).length := by
    rw [Utf16.length_bytes]
    rfl
  have hbyte : (UInt8.ofNat (stringDescriptorLength s)).toNat = stringDescriptorLength s :=
    UInt8.toNat_ofNat_of_lt' (Nat.lt_of_le_of_lt h (show packetLimit < 256 by decide))
  rw [stringDescriptor, textOf?, if_pos ⟨hbyte.trans hlength, rfl⟩, Utf16.decode?_bytes_encode]

namespace DescriptorSet

/-- The text that a host reads from the string with an index. -/
def text? (set : DescriptorSet) (index : UInt8) : Option String := (set.string? index).bind textOf?

/-- The host reads what is in the table. -/
theorem Fits.text?_eq {set : DescriptorSet} (hset : set.Fits) {index : UInt8} {s : String}
    (hindex : index ≠ 0) (hs : set.strings[index.toNat - 1]? = some s) :
    set.text? index = some s := by
  rw [text?, string?, if_neg hindex, hs]
  exact textOf?_stringDescriptor (hset.strings s (List.mem_of_getElem? hs))

/-- The index stands for the text. -/
structure Names (set : DescriptorSet) (index : UInt8) (text : String) : Prop where
  /-- There is no string for the empty text, and for no other. -/
  zero_iff : index = 0 ↔ text = ""
  /-- Any other index is that of the text. -/
  text : index ≠ 0 → set.text? index = some text

end DescriptorSet

/-! ### The indexes of a configuration -/

/-- The index of a name that is not empty counts from that of the first interface. -/
theorem Interface.toNat_nameString {i : Interface} {position : Nat} (hname : i.name ≠ "")
    (h : position < 252) : (i.nameString position).toNat = position + 4 := by
  have hsum : firstInterfaceString + UInt8.ofNat position = UInt8.ofNat (4 + position) :=
    (UInt8.ofNat_add 4 position).symm
  rw [nameString, if_neg hname, hsum, UInt8.toNat_ofNat_of_lt' (show 4 + position < 256 by omega),
    Nat.add_comm]

namespace Configuration

variable {c : Configuration}

theorem getElem?_strings (i : Nat) :
    c.descriptors.strings[i + 3]? = c.interfaces[i]?.map (·.name) := by
  rw [← List.getElem?_map]
  rfl

theorem names_nameString (hfits : c.descriptors.Fits) {i : Interface} {position : Nat}
    (hi : c.interfaces[position]? = some i) (h : position < 252) :
    c.descriptors.Names (i.nameString position) i.name := by
  by_cases hname : i.name = ""
  · have hzero : i.nameString position = 0 := if_pos hname
    exact ⟨iff_of_true hzero hname, fun hne => absurd hzero hne⟩
  · have hindex := Interface.toNat_nameString hname h
    have hne : i.nameString position ≠ 0 := by
      intro hzero
      rw [hzero] at hindex
      exact absurd hindex (Nat.succ_ne_zero _).symm
    refine ⟨iff_of_false hne hname, fun _ => hfits.text?_eq hne ?_⟩
    rw [hindex, show position + 4 - 1 = position + 3 from rfl, getElem?_strings, hi]
    rfl

/-- The index in the device record stands for the serial number, unless that is empty. -/
theorem names_serialString (hfits : c.descriptors.Fits) (hserial : c.serial ≠ some "") :
    c.descriptors.Names c.deviceRecord.serialString (c.serial.getD "") := by
  cases hs : c.serial with
  | none =>
    have hzero : c.deviceRecord.serialString = 0 := by
      rw [deviceRecord, hs]
      rfl
    exact ⟨iff_of_true hzero rfl, fun hne => absurd hzero hne⟩
  | some s =>
    have hindex : c.deviceRecord.serialString = serialString := by
      rw [deviceRecord, hs]
      rfl
    have htext : c.descriptors.strings[serialString.toNat - 1]? = some s := by
      show some (c.serial.getD "") = _
      rw [hs]
      rfl
    have hne : s ≠ "" := fun h => hserial (h ▸ hs)
    rw [hindex]
    exact ⟨iff_of_false (by decide) hne, fun hne => hfits.text?_eq hne htext⟩

theorem forall₂_names (hfits : c.descriptors.Fits) (h : c.interfaces.length ≤ 252) :
    List.Forall₂ (fun (g : RecordGroup) (i : Interface) =>
        c.descriptors.Names g.interface.nameString i.name)
      (c.interfaces.zipIdx.map (RecordGroup.ofEntry c)) c.interfaces := by
  -- the records are made of numbered interfaces, so the interfaces are numbered as well
  rw [List.forall₂_map_left_iff]
  conv => arg 3; rw [← List.zipIdx_map_fst 0 c.interfaces]
  rw [List.forall₂_map_right_iff, List.forall₂_same]
  rintro ⟨i, position⟩ hentry
  have hi := List.mem_zipIdx_iff_getElem?.1 hentry
  obtain ⟨hlt, -⟩ := List.getElem?_eq_some_iff.1 hi
  exact names_nameString hfits hi (Nat.lt_of_lt_of_le hlt h)

end Configuration

theorem DeviceInfo.getD_serial_tidy (d : DeviceInfo) :
    d.tidy.serial.getD "" = d.serial.getD "" := by
  show (d.serial.filter (· ≠ "")).getD "" = _
  cases d.serial with
  | none => rfl
  | some s =>
    by_cases hs : s = ""
    · subst hs
      rfl
    · rw [Option.filter_some, if_pos (by simpa using hs)]

theorem DeviceInfo.serial_tidy_ne (d : DeviceInfo) : d.tidy.serial ≠ some "" := by
  intro h
  have h' := (Option.filter_eq_some_iff.1 h).2
  exact absurd h' (by decide)

namespace DescriptorSet

/-- There is a string for the vendor, the product, the serial number and every interface, and the
indexes in the records of the device and of its interfaces stand for these. -/
theorem indexes_name_texts {d : DeviceDescription} {c : Configuration} {set : DescriptorSet}
    (hc : d.checked = .ok c) (hset : assemble c = .ok set) :
    set.stringCount = 3 + c.interfaces.length ∧
    set.device.bytes[14]?.bind set.text? = some d.vendor ∧
    set.device.bytes[15]?.bind set.text? = some d.product ∧
    (∃ index, set.device.bytes[16]? = some index ∧ set.Names index (d.serial.getD "")) ∧
    (∃ header groups,
      Record.readAll set.records =
        some (.configuration header :: groups.flatMap RecordGroup.records) ∧
      List.Forall₂ (fun (g : RecordGroup) (i : Interface) =>
        set.Names g.interface.nameString i.name) groups c.interfaces) ∧
    ∀ index : UInt8, set.stringCount < index.toNat → set.string? index = none := by
  have hfits := fits_of_assemble hset
  obtain ⟨hlength, -, -, -, rfl⟩ := assemble_eq_ok_iff.1 hset
  obtain ⟨-, -, -, -, hcd⟩ := DeviceDescription.checked_eq_ok_iff.1 hc
  have hcount : c.descriptors.stringCount = 3 + c.interfaces.length := by
    rw [stringCount, Configuration.descriptors, List.length_append, List.length_map]
    rfl
  have hsix : c.interfaces.length ≤ 252 := by
    rw [Configuration.descriptorLength, packetLimit] at hlength
    omega
  have hserial : c.serial ≠ some "" := hcd ▸ d.toDeviceInfo.serial_tidy_ne
  have hnumber : c.serial.getD "" = d.serial.getD "" := hcd ▸ d.toDeviceInfo.getD_serial_tidy
  refine ⟨hcount, ?_, ?_, ?_, ⟨_, _, c.readAll_descriptors, c.forall₂_names hfits hsix⟩, ?_⟩
  · show c.descriptors.text? vendorString = _
    rw [hcd] at hfits ⊢
    exact hfits.text?_eq (by decide) rfl
  · show c.descriptors.text? productString = _
    rw [hcd] at hfits ⊢
    exact hfits.text?_eq (by decide) rfl
  · exact ⟨_, rfl, hnumber ▸ c.names_serialString hfits hserial⟩
  · intro index hindex
    have hne : index ≠ 0 := by
      rintro rfl
      exact absurd hindex (Nat.not_lt_zero _)
    have hnone : c.descriptors.strings[index.toNat - 1]? = none :=
      List.getElem?_eq_none (Nat.le_sub_one_of_lt hindex)
    rw [string?, if_neg hne, hnone]
    rfl

theorem indexes_name_texts_full :
    DeviceDescription.full.configuration.descriptors.stringCount = 6 ∧
      DeviceDescription.full.configuration.descriptors.device.bytes[16]? = some 0 ∧
      ∃ header groups,
        Record.readAll DeviceDescription.full.configuration.descriptors.records =
          some (.configuration header :: groups.flatMap RecordGroup.records) ∧
        List.Forall₂ (fun (g : RecordGroup) name =>
            DeviceDescription.full.configuration.descriptors.Names g.interface.nameString name)
          groups ["Interface0", "A name of a full thirty-one. 😀", ""] := by
  have husable := DeviceDescription.usable_full
  obtain ⟨hcount, -, -, ⟨index, hindex, hserial⟩, ⟨header, groups, hread, hnames⟩, -⟩ :=
    indexes_name_texts husable.checked husable.assemble
  rw [hserial.zero_iff.2 rfl] at hindex
  exact ⟨hcount, hindex, header, groups, hread, List.forall₂_map_right_iff.2 hnames⟩

end DescriptorSet

end UsbGadget
