import UsbGadget.Proofs.Assembled
import UsbGadget.Proofs.Layout
import UsbGadget.Run

/-!
# Which descriptions are accepted

Whether a device opens is decided in three places: the check of its description, the assembly of
its descriptors and the making of its endpoints. Together they ask for what
`DeviceDescription.Usable` says, and for nothing else.

* `DeviceDescription.accounted_configuration`: the ranges that the check gives to interfaces account
  for the endpoints, so the assembly never ends in `AssemblyError.rangesMismatch`;
* `Session.endpointsFor_of_checked`: what passed the check always makes endpoints;
* `Device.open_eq_ok_iff_usable` is the main statement.

The records of the control interface and its endpoints take 32 of the 64 bytes of a packet. The
other 32 have room for three interfaces at most, or for four endpoints, so that the larger limits of
the check never decide.
-/

namespace UsbGadget

open InterfaceDescription

/-! ### Ranges -/

namespace Interface

theorem bounds_of_mem_row {start : Nat} {is : List InterfaceDescription} {i : Interface}
    (hi : i ∈ row start is) : i.start ≤ i.stop ∧ i.stop ≤ start + endpointCount is := by
  induction is generalizing start with
  | nil => cases hi
  | cons j js ih =>
    rw [endpointCount_cons]
    rcases List.mem_cons.1 hi with rfl | hi
    · exact ⟨Nat.le_add_right _ _, Nat.add_le_add_left (Nat.le_add_right _ _) _⟩
    · obtain ⟨hle, hstop⟩ := ih hi
      exact ⟨hle, by omega⟩

theorem sum_row (start : Nat) (is : List InterfaceDescription) :
    ((row start is).map fun i => i.stop - i.start).sum = endpointCount is := by
  induction is generalizing start with
  | nil => rfl
  | cons j js ih =>
    rw [row, List.map_cons, List.sum_cons, ih, endpointCount_cons]
    simp

theorem map_endpoints_row {α : Type} (f : InterfaceInfo → List EndpointDescription → α)
    (front : List EndpointDescription) (is : List InterfaceDescription) :
    (row front.length is).map (fun i => f i.toInterfaceInfo
      (((front ++ tidiedEndpoints is).drop i.start).take (i.stop - i.start))) =
      is.map fun i => f i.toInterfaceInfo (i.endpoints.map (·.tidied)) := by
  induction is generalizing front with
  | nil => rfl
  | cons i is ih =>
    have hrest := ih (front ++ i.endpoints.map (·.tidied))
    rw [List.length_append, List.length_map, List.append_assoc] at hrest
    have htake : (i.endpoints.map (·.tidied) ++ tidiedEndpoints is).take i.endpoints.length =
        i.endpoints.map (·.tidied) := List.take_left' (List.length_map _)
    rw [row, List.map_cons, List.map_cons, tidiedEndpoints_cons, hrest, List.drop_left,
      Nat.add_sub_cancel_left, htake]

end Interface

namespace DeviceDescription

/-- The ranges that the check gives to interfaces account for the endpoints. -/
theorem accounted_configuration (d : DeviceDescription) : d.configuration.Accounted where
  inRange i hi := by
    rw [Configuration.InRange, configuration, length_tidiedEndpoints]
    have hbounds := Interface.bounds_of_mem_row hi
    rwa [Nat.zero_add] at hbounds
  total := by
    rw [configuration, length_tidiedEndpoints, Interface.sum_row]

theorem map_endpointsOf {α : Type} (f : InterfaceInfo → List EndpointDescription → α)
    (d : DeviceDescription) :
    d.configuration.interfaces.map (fun i => f i.toInterfaceInfo (d.configuration.endpointsOf i)) =
      (InterfaceDescription.control :: d.interfaces).map fun i =>
        f i.toInterfaceInfo (i.endpoints.map (·.tidied)) := by
  refine Eq.trans (List.map_congr_left ?_)
    (Interface.map_endpoints_row f [] (InterfaceDescription.control :: d.interfaces))
  intro i hi
  have hrange : i.start ≤ i.stop ∧ i.stop ≤ d.configuration.endpoints.length :=
    d.accounted_configuration.inRange i hi
  rw [Configuration.endpointsOf, Configuration.endpointsOf?, if_pos hrange]
  rfl

/-- How long the records are that a description asks for; those of the control interface take half
a packet. -/
theorem descriptorLength_configuration (d : DeviceDescription) :
    d.configuration.descriptorLength =
      32 + 9 * d.interfaces.length + 7 * endpointCount d.interfaces := by
  rw [Configuration.descriptorLength, configuration, Interface.length_row, List.length_cons,
    length_tidiedEndpoints, endpointCount_cons, length_endpoints_control]
  omega

end DeviceDescription

/-! ### Texts -/

theorem fitsPacket_iff {text : String} : FitsPacket text ↔ Utf16.length text ≤ 31 := by
  unfold FitsPacket stringDescriptorLength packetLimit
  omega

/-- An empty serial number is none, and takes no room either way. -/
theorem fitsPacket_serial_iff {serial : Option String} :
    FitsPacket ((serial.filter (· ≠ "")).getD "") ↔ ∀ s, serial = some s → Utf16.length s ≤ 31 := by
  have hempty : FitsPacket "" := fitsPacket_iff.2 (by decide)
  cases serial with
  | none => exact ⟨fun _ => nofun, fun _ => hempty⟩
  | some s =>
    simp only [Option.some.injEq, forall_eq']
    rw [← fitsPacket_iff]
    by_cases hs : s = ""
    · subst hs
      exact ⟨fun _ => hempty, fun _ => hempty⟩
    · rw [Option.filter_some, if_pos (by simpa using hs), Option.getD_some]

/-! ### Acceptance -/

namespace DeviceDescription

/-- All that is asked of a description for a device to open with it. -/
structure Usable (d : DeviceDescription) : Prop where
  /-- No interface takes the number of the control interface. -/
  ids : ∀ i ∈ d.interfaces, i.id ≠ 0
  /-- The buffers and registers of all endpoints are in order. -/
  endpoints : ∀ i ∈ d.interfaces, ∀ e ∈ i.endpoints, e.Usable
  /-- The records of all interfaces and endpoints fit behind those of the control interface. -/
  room : 9 * d.interfaces.length + 7 * endpointCount d.interfaces ≤ 32
  /-- The vendor's name fits in a packet. -/
  vendor : Utf16.length d.vendor ≤ 31
  /-- The product's name fits in a packet. -/
  product : Utf16.length d.product ≤ 31
  /-- The serial number fits in a packet, if there is one. -/
  serial : ∀ s, d.serial = some s → Utf16.length s ≤ 31
  /-- The names of all interfaces fit in a packet. -/
  names : ∀ i ∈ d.interfaces, Utf16.length i.name ≤ 31

theorem assemble_configuration_eq_ok_iff {d : DeviceDescription} {set : DescriptorSet} :
    DescriptorSet.assemble d.configuration = .ok set ↔
      9 * d.interfaces.length + 7 * endpointCount d.interfaces ≤ 32 ∧
      Utf16.length d.vendor ≤ 31 ∧ Utf16.length d.product ≤ 31 ∧
      (∀ s, d.serial = some s → Utf16.length s ≤ 31) ∧
      (∀ i ∈ d.interfaces, Utf16.length i.name ≤ 31) ∧
      set = d.configuration.descriptors := by
  have hnames : (∀ i ∈ d.configuration.interfaces, FitsPacket i.name) ↔
      ∀ i ∈ d.interfaces, Utf16.length i.name ≤ 31 := by
    rw [← List.forall_mem_map (f := fun i : Interface => i.name) (P := FitsPacket), configuration,
      Interface.map_name_row, List.forall_mem_map, List.forall_mem_cons,
      and_iff_right (show FitsPacket InterfaceDescription.control.name from
        fitsPacket_iff.2 (by decide +kernel))]
    simp only [fitsPacket_iff]
  have hlength : d.configuration.descriptorLength ≤ packetLimit ↔
      9 * d.interfaces.length + 7 * endpointCount d.interfaces ≤ 32 := by
    rw [descriptorLength_configuration, packetLimit]
    omega
  rw [DescriptorSet.assemble_eq_ok_iff, hlength, hnames, and_iff_right d.accounted_configuration]
  simp only [List.forall_mem_cons, List.not_mem_nil, false_implies, implies_true, and_true]
  rw [show d.configuration.serial = d.serial.filter (· ≠ "") from rfl, fitsPacket_serial_iff,
    show d.configuration.vendor = d.vendor from rfl,
    show d.configuration.product = d.product from rfl, fitsPacket_iff, fitsPacket_iff]
  simp only [and_assoc]

theorem Usable.checked {d : DeviceDescription} (h : d.Usable) :
    d.checked = .ok d.configuration := by
  -- what fits in a packet is far below the limits of the check
  have hroom := h.room
  refine checked_eq_ok_iff.2 ⟨h.ids, h.endpoints, ?_, ?_, rfl⟩
  · rw [maxInterfaces]
    omega
  · rw [maxEndpoints]
    omega

theorem Usable.assemble {d : DeviceDescription} (h : d.Usable) :
    DescriptorSet.assemble d.configuration = .ok d.configuration.descriptors :=
  assemble_configuration_eq_ok_iff.2 ⟨h.room, h.vendor, h.product, h.serial, h.names, rfl⟩

/-- The check and the assembly together accept what is usable. -/
theorem usable_iff {d : DeviceDescription} : d.Usable ↔
    ∃ c set, d.checked = .ok c ∧ DescriptorSet.assemble c = .ok set := by
  constructor
  · exact fun h => ⟨_, _, h.checked, h.assemble⟩
  · rintro ⟨c, set, hc, hset⟩
    obtain ⟨hids, hendpoints, -, -, rfl⟩ := checked_eq_ok_iff.1 hc
    obtain ⟨hroom, hvendor, hproduct, hserial, hnames, -⟩ :=
      assemble_configuration_eq_ok_iff.1 hset
    exact ⟨hids, hendpoints, hroom, hvendor, hproduct, hserial, hnames⟩

end DeviceDescription

/-! ### The making of endpoints -/

theorem mapM_exists_ok {ε α β : Type} {f : α → Except ε β} {l : List α}
    (h : ∀ a ∈ l, ∃ b, f a = .ok b) : ∃ l', l.mapM f = .ok l' := by
  induction l with
  | nil => exact ⟨[], rfl⟩
  | cons a l ih =>
    obtain ⟨⟨b, hb⟩, hl⟩ := List.forall_mem_cons.1 h
    obtain ⟨l', hl'⟩ := ih hl
    exact ⟨b :: l', by rw [List.mapM_cons, hb, hl']; rfl⟩

namespace EndpointDescription

/-- An endpoint with the registers that the chip has for it is usable if there is a slot for its
buffer. -/
theorem usable_standard {direction : Direction} {number : UInt8} {attributes : EndpointAttributes}
    {maxPacketSize : UInt16} {index : UInt32} (hindex : index.toNat ≤ 57) :
    (standard direction number attributes maxPacketSize index).Usable where
  dataBuffer := by
    refine ⟨0x180 + 64 * index.toNat, ?_, ?_, ?_, ?_⟩
    · have hbase : (Dpram.base + UInt32.ofNat Dpram.dataBuffers).toNat = 0x50100180 := by decide
      have hsize : (UInt32.ofNat Dpram.bufferSize).toNat = 64 := by decide
      show (Dpram.base + UInt32.ofNat Dpram.dataBuffers +
        index * UInt32.ofNat Dpram.bufferSize).toNat = 0x50100000 + (0x180 + 64 * index.toNat)
      rw [UInt32.toNat_add, UInt32.toNat_mul, hbase, hsize]
      omega
    · rw [Dpram.bufferSize]
      omega
    · rw [Dpram.ep0Buffer]
      omega
    · omega
  bufferControl := by
    have hplace := direction.place_le
    show 2 * (number.toNat % 16) + direction.place < 32
    omega
  endpointControl i hi := by
    have hplace := direction.place_le
    change (if number.toNat % 16 = 0 then none
      else some (2 * (number.toNat % 16 - 1) + direction.place)) = some i at hi
    by_cases h : number.toNat % 16 = 0
    · rw [if_pos h] at hi
      cases hi
    · rw [if_neg h, Option.some.injEq] at hi
      rw [Dpram.endpointControls]
      omega

theorem Usable.tidied {e : EndpointDescription} (h : e.Usable) : e.tidied.Usable :=
  ⟨h.dataBuffer, h.bufferControl, h.endpointControl⟩

theorem Usable.ofDescription {e : EndpointDescription} (h : e.Usable) (interface : UInt8) :
    ∃ e', Endpoint.ofDescription interface e = .ok e' := by
  obtain ⟨o, ho⟩ := h.dataBuffer
  exact ⟨_, Endpoint.ofDescription_eq_ok.2 ⟨o, bufferOffset_eq_ok_iff.2 ho, rfl⟩⟩

end EndpointDescription

namespace DeviceDescription

/-- Two interfaces with an endpoint each, and a name as long as it may be: their records leave no
byte of a packet unused. -/
def full : DeviceDescription where
  vendor := "A vendor of thirty-one letters."
  serial := some ""
  interfaces :=
    [⟨⟨1, 0xFF, 0, 0, "A name of a full thirty-one. 😀"⟩, [.standard .input 1 .bulk 64 0]⟩,
      ⟨⟨2, 0xFF, 0, 0, ""⟩, [.standard .output 1 .bulk 7 57]⟩]

/-- The same with one more interface. -/
def overfull : DeviceDescription :=
  { full with interfaces := full.interfaces ++ [⟨⟨3, 0xFF, 0, 0, ""⟩, []⟩] }

theorem usable_full : full.Usable where
  ids := by decide
  endpoints i hi e he := by
    simp only [full, List.mem_cons, List.not_mem_nil, or_false] at hi
    rcases hi with rfl | rfl
    · rw [List.mem_singleton.1 he]
      exact EndpointDescription.usable_standard (by decide)
    · rw [List.mem_singleton.1 he]
      exact EndpointDescription.usable_standard (by decide)
  room := by decide
  vendor := by decide +kernel
  product := by decide +kernel
  serial := by
    rintro s ⟨⟩
    decide +kernel
  names := by decide +kernel

theorem usable_of_mem_configuration {d : DeviceDescription} {e : EndpointDescription}
    (h : ∀ i ∈ d.interfaces, ∀ e ∈ i.endpoints, e.Usable) (he : e ∈ d.configuration.endpoints) :
    e.Usable := by
  obtain ⟨i, hi, he⟩ := List.mem_flatMap.1 he
  obtain ⟨e₀, he₀, rfl⟩ := List.mem_map.1 he
  rcases List.mem_cons.1 hi with rfl | hi
  · exact (usable_control he₀).tidied
  · exact (h i hi e₀ he₀).tidied

end DeviceDescription

namespace Session

/-- What passed the check always makes endpoints. -/
theorem endpointsFor_of_checked {d : DeviceDescription} {c : Configuration}
    (h : d.checked = .ok c) : ∃ endpoints, endpointsFor c = .ok endpoints := by
  obtain ⟨-, husable, -, -, rfl⟩ := DeviceDescription.checked_eq_ok_iff.1 h
  have hgroups : ∀ i ∈ d.configuration.interfaces, ∃ group,
      (d.configuration.endpointsOf i).mapM (Endpoint.ofDescription i.id) = .ok group := by
    intro i _
    apply mapM_exists_ok
    intro e he
    have hmem := Configuration.mem_endpointsOf he
    exact (DeviceDescription.usable_of_mem_configuration husable hmem).ofDescription i.id
  obtain ⟨groups, hgroups⟩ := mapM_exists_ok hgroups
  exact ⟨groups.flatten, by rw [endpointsFor, hgroups]; rfl⟩

/-- A session comes of exactly the usable descriptions. -/
theorem exists_ofDescription_iff {d : DeviceDescription} :
    (∃ s, ofDescription d = .ok s) ↔ d.Usable := by
  rw [DeviceDescription.usable_iff]
  simp only [ofDescription_eq_ok]
  constructor
  · rintro ⟨_, c, set, endpoints, hc, hset, -, -⟩
    exact ⟨c, set, hc, hset⟩
  · rintro ⟨c, set, hc, hset⟩
    obtain ⟨endpoints, he⟩ := endpointsFor_of_checked hc
    exact ⟨_, c, set, endpoints, hc, hset, he, rfl⟩

end Session

namespace Device

variable {σ : Type} [Board σ]

theorem fst_open_of_closed {d : Device σ} (hd : d.session = none)
    (description : DeviceDescription) :
    (d.open description).1 = (Session.ofDescription description).map fun _ => () := by
  unfold «open»
  rw [hd]
  cases Session.ofDescription description <;> rfl

theorem open_closed_eq_ok_iff {d : Device σ} (hd : d.session = none)
    {description : DeviceDescription} :
    (d.open description).1 = .ok () ↔ ∃ s, Session.ofDescription description = .ok s := by
  rw [fst_open_of_closed hd, map_eq_ok]
  simp only [and_true]

/-- A closed device opens exactly with the usable descriptions, and the endpoints of what the check
and the assembly accept can always be made. -/
theorem open_eq_ok_iff_usable {d : Device σ} (hd : d.session = none)
    (description : DeviceDescription) :
    ((d.open description).1 = .ok () ↔ description.Usable) ∧
    ∀ c set, description.checked = .ok c → DescriptorSet.assemble c = .ok set →
      ∃ endpoints, Session.endpointsFor c = .ok endpoints := by
  refine ⟨?_, fun _ _ hc _ => Session.endpointsFor_of_checked hc⟩
  rw [open_closed_eq_ok_iff hd, Session.exists_ofDescription_iff]

theorem full_opens_overfull_does_not :
    ((blank ({} : Bench)).open .full).1 = .ok () ∧
      ((blank ({} : Bench)).open .overfull).1 ≠ .ok () := by
  constructor
  · exact (open_eq_ok_iff_usable rfl .full).1.2 DeviceDescription.usable_full
  · intro h
    have hroom := ((open_eq_ok_iff_usable rfl .overfull).1.1 h).room
    exact absurd hroom (by decide)

end Device

end UsbGadget
