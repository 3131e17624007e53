import Mathlib.Data.List.Forall2
import UsbGadget.Proofs.Acceptance

/-!
# A configuration is a faithful copy

What the check makes of a description says the same as the description, in one flat list.

* `DeviceDescription.checked_faithful`: the control interface comes first and the caller's
  interfaces follow in order, each with its own part of the list of endpoints; nothing changes but
  what has to be tidied (`EndpointDescription.TidyForm` and `DeviceInfo.TidyForm`);
* `Interface.Consecutive.existsUnique`: every place of the list is in the range of one interface;
* `DeviceDescription.checked_description`: a configuration taken apart into a description passes
  the check again and becomes what it was.

The last goes by way of a description's tidy form (`DeviceDescription.tidied`), which has the same
configuration, and is what the configuration is taken apart into.
-/

namespace UsbGadget

open InterfaceDescription

/-! ### Packet sizes -/

/-- The sizes that packets may have. -/
def packetSizes : List UInt16 := [8, 16, 32, 64]

theorem mem_packetSizes {size : UInt16} :
    size ∈ packetSizes ↔ size = 8 ∨ size = 16 ∨ size = 32 ∨ size = 64 := by
  simp only [packetSizes, List.mem_cons, List.not_mem_nil, or_false]

/-- The legal size for packets of a size is the least that is not below it; 64 if there is none. -/
structure RoundsTo (size legal : UInt16) : Prop where
  /-- The size is legal. -/
  mem : legal ∈ packetSizes
  /-- No smaller one would do. -/
  least : ∀ s ∈ packetSizes, size ≤ s → legal ≤ s
  /-- It is large enough, or none is. -/
  le : size ≤ legal ∨ (∀ s ∈ packetSizes, s < size) ∧ legal = 64

theorem roundsTo_legalPacketSize (size : UInt16) : RoundsTo size (legalPacketSize size) := by
  unfold legalPacketSize
  constructor
  · split_ifs <;> decide
  · intro s hs hle
    rcases mem_packetSizes.1 hs with rfl | rfl | rfl | rfl <;> split_ifs <;>
      simp_all [UInt16.le_iff_toNat_le]
  · split_ifs with h8 h16 h32
    · exact .inl h8
    · exact .inl h16
    · exact .inl h32
    · rcases UInt16.le_or_lt size 64 with h64 | h64
      · exact .inl h64
      · refine .inr ⟨fun s hs => UInt16.lt_of_le_of_lt ?_ h64, rfl⟩
        rcases mem_packetSizes.1 hs with rfl | rfl | rfl | rfl <;> decide

theorem legalPacketSize_of_mem {size : UInt16} (h : size ∈ packetSizes) :
    legalPacketSize size = size := by
  rcases mem_packetSizes.1 h with rfl | rfl | rfl | rfl <;> rfl

/-! ### What is tidied -/

/-- The endpoint is the other one with its packet size rounded; else they are the same. -/
structure EndpointDescription.TidyForm (e e' : EndpointDescription) : Prop where
  /-- All but the packet size is the same. -/
  same : e' = { e with maxPacketSize := e'.maxPacketSize }
  /-- The packet size is rounded. -/
  maxPacketSize : RoundsTo e.maxPacketSize e'.maxPacketSize

/-- What is said of a device is the same, but for a current that no device may draw and an empty
serial number. -/
structure DeviceInfo.TidyForm (d d' : DeviceInfo) : Prop where
  /-- All but the current and the serial number is the same. -/
  same : d' = { d with maxPower := d'.maxPower, serial := d'.serial }
  /-- The current is 500 mA at most. -/
  maxPower : d'.maxPower.toNat = min d.maxPower.toNat 500
  /-- An empty serial number is none. -/
  serial : d'.serial = if d.serial = some "" then none else d.serial

theorem EndpointDescription.tidyForm_tidied (e : EndpointDescription) : e.TidyForm e.tidied where
  same := rfl
  maxPacketSize := roundsTo_legalPacketSize e.maxPacketSize

theorem EndpointDescription.tidied_tidied (e : EndpointDescription) :
    e.tidied.tidied = e.tidied := by
  rw [tidied, tidied, legalPacketSize_of_mem (roundsTo_legalPacketSize e.maxPacketSize).mem]

theorem DeviceInfo.tidyForm_tidy (d : DeviceInfo) : d.TidyForm d.tidy where
  same := rfl
  maxPower := by
    show (if d.maxPower ≤ powerLimit then d.maxPower else powerLimit).toNat = _
    have hlimit : powerLimit.toNat = 500 := rfl
    split_ifs with h <;> rw [UInt16.le_iff_toNat_le, hlimit] at h <;> omega
  serial := by
    show d.serial.filter (· ≠ "") = _
    cases d.serial with
    | none => rfl
    | some s => by_cases h : s = "" <;> simp [h]

theorem DeviceInfo.tidy_tidy (d : DeviceInfo) : d.tidy.tidy = d.tidy := by
  have h := d.tidy.tidyForm_tidy
  have hclamped := d.tidyForm_tidy.maxPower
  have hserial : d.tidy.serial ≠ some "" := by
    rw [d.tidyForm_tidy.serial]
    split_ifs with hempty
    · exact nofun
    · exact hempty
  have hpower : d.tidy.tidy.maxPower = d.tidy.maxPower := by
    apply UInt16.toNat_inj.1
    rw [h.maxPower, hclamped]
    omega
  rw [h.same, hpower, h.serial, if_neg hserial]

/-! ### Ranges one behind the other -/

namespace Interface

/-- The ranges of interfaces stand one behind the other, from a place up to another. -/
inductive Consecutive : Nat → List Interface → Nat → Prop where
  /-- No range. -/
  | nil (place : Nat) : Consecutive place [] place
  /-- A range and those behind it. -/
  | cons {i : Interface} {is : List Interface} {stop : Nat} (hle : i.start ≤ i.stop)
    (hrest : Consecutive i.stop is stop) : Consecutive i.start (i :: is) stop

/-- A place is in the range of an interface. -/
def Holds (i : Interface) (place : Nat) : Prop := i.start ≤ place ∧ place < i.stop

theorem Consecutive.le_start {start stop : Nat} {is : List Interface} {i : Interface}
    (h : Consecutive start is stop) (hi : i ∈ is) : start ≤ i.start := by
  induction h with
  | nil => cases hi
  | cons hle _ ih =>
    rcases List.mem_cons.1 hi with rfl | hi
    · exact Nat.le_refl _
    · exact Nat.le_trans hle (ih hi)

/-- Every place is in the range of exactly one of the interfaces. -/
theorem Consecutive.existsUnique {start stop : Nat} {is : List Interface}
    (h : Consecutive start is stop) {place : Nat} (hge : start ≤ place) (hlt : place < stop) :
    ∃! k : Nat, ∃ i : Interface, is[k]? = some i ∧ i.Holds place := by
  induction h with
  | nil => omega
  | @cons i is stop hle hrest ih =>
    by_cases hi : place < i.stop
    · refine ⟨0, ⟨i, rfl, hge, hi⟩, ?_⟩
      rintro (_ | k) ⟨j, hj, hholds⟩
      · rfl
      · -- the ranges behind start where this one stops
        have hle' := hrest.le_start (List.mem_of_getElem? hj)
        exact absurd hholds.1 (by omega)
    · obtain ⟨k, ⟨j, hj, hholds⟩, hunique⟩ := ih (Nat.not_lt.1 hi) hlt
      refine ⟨k + 1, ⟨j, hj, hholds⟩, ?_⟩
      rintro (_ | k') ⟨j', hj', hholds'⟩
      · cases hj'
        exact absurd hholds'.2 hi
      · rw [hunique k' ⟨j', hj', hholds'⟩]

theorem consecutive_row (start : Nat) (is : List InterfaceDescription) :
    Consecutive start (row start is) (start + endpointCount is) := by
  induction is generalizing start with
  | nil => exact .nil start
  | cons i is ih =>
    rw [endpointCount_cons, ← Nat.add_assoc]
    exact .cons (i := ⟨i.toInterfaceInfo, start, start + i.endpoints.length⟩)
      (Nat.le_add_right _ _) (ih _)

end Interface

/-! ### The copy -/

/-- The endpoint is the half of the control endpoint with this address and register. -/
structure EndpointDescription.HalfOfControl (e : EndpointDescription) (address : UInt8)
    (register : Nat) : Prop where
  /-- The address. -/
  address : e.address = address
  /-- It is a control endpoint. -/
  attributes : e.attributes = .control
  /-- The largest packet. -/
  maxPacketSize : e.maxPacketSize = 64
  /-- The packet buffer. -/
  dataBuffer : e.dataBuffer.offset Dpram.base = some 0x100
  /-- The buffer control register. -/
  bufferControl : e.bufferControl = register
  /-- There is no endpoint control register. -/
  endpointControl : e.endpointControl = none

/-- The configuration has the interface with its endpoints, which are tidied. -/
structure Configuration.Copies (c : Configuration) (i : InterfaceDescription) (i' : Interface) :
    Prop where
  /-- What is said about the interface. -/
  info : i'.toInterfaceInfo = i.toInterfaceInfo
  /-- The endpoints in its range, in order. -/
  endpoints : ∃ es, c.endpointsOf? i' = some es ∧
    List.Forall₂ EndpointDescription.TidyForm i.endpoints es

/-- The configuration says what the description does. -/
structure Configuration.FaithfulTo (c : Configuration) (d : DeviceDescription) : Prop where
  /-- What is said about the device. -/
  info : d.toDeviceInfo.TidyForm c.toDeviceInfo
  /-- The control interface comes first, then those of the description in order. -/
  interfaces : ∃ control callers, c.interfaces = control :: callers ∧
    control.toInterfaceInfo = ⟨0, 0, 0, 0, "Interface0"⟩ ∧
    (∃ e e', c.endpointsOf? control = some [e, e'] ∧ e.HalfOfControl 0x80 0 ∧
      e'.HalfOfControl 0x00 1) ∧
    List.Forall₂ c.Copies d.interfaces callers
  /-- The ranges stand one behind the other and take up the whole list of endpoints. -/
  ranges : Interface.Consecutive 0 c.interfaces c.endpoints.length
  /-- So every endpoint in the list is that of one interface. -/
  partition : ∀ place < c.endpoints.length,
    ∃! k : Nat, ∃ i : Interface, c.interfaces[k]? = some i ∧ i.Holds place

theorem EndpointDescription.halfOfControl_control (d : Direction) :
    (control d).HalfOfControl (d.address 0) d.place := by
  cases d <;> exact ⟨rfl, rfl, rfl, rfl, rfl, rfl⟩

namespace DeviceDescription

/-- Interface by interface, a configuration says the same as its description and has the same
endpoints, tidied. -/
theorem forall₂_configuration (d : DeviceDescription) :
    List.Forall₂ (fun i i' => i'.toInterfaceInfo = i.toInterfaceInfo ∧
      d.configuration.endpointsOf? i' = some (i.endpoints.map (·.tidied)))
      (.control :: d.interfaces) d.configuration.interfaces := by
  -- what is said of interfaces and their ranges is two equal lists; these correspond one by one
  have hsome : d.configuration.interfaces.map (fun i =>
      (i.toInterfaceInfo, d.configuration.endpointsOf? i)) =
        (InterfaceDescription.control :: d.interfaces).map fun i =>
          (i.toInterfaceInfo, some (i.endpoints.map (·.tidied))) := by
    rw [← d.map_endpointsOf fun info es => (info, some es)]
    refine List.map_congr_left fun i hi => ?_
    have hrange := d.accounted_configuration.inRange i hi
    rw [Configuration.endpointsOf?_eq_some.2 ⟨hrange, rfl⟩]
  rw [← List.forall₂_eq_eq_eq, List.forall₂_map_left_iff, List.forall₂_map_right_iff] at hsome
  exact hsome.flip.imp fun _ _ => Prod.mk.inj

theorem forall₂_copies (d : DeviceDescription) :
    List.Forall₂ d.configuration.Copies (.control :: d.interfaces) d.configuration.interfaces := by
  refine d.forall₂_configuration.imp fun i i' h => ⟨h.1, _, h.2, ?_⟩
  rw [List.forall₂_map_right_iff]
  exact List.forall₂_same.2 fun e _ => e.tidyForm_tidied

theorem endpointsOf?_control (d : DeviceDescription) :
    d.configuration.endpointsOf? .control = some [.control .input, .control .output] :=
  if_pos (d.accounted_configuration.inRange .control List.mem_cons_self)

/-- A configuration that comes of a description is faithful to it. -/
theorem checked_faithful {d : DeviceDescription} {c : Configuration} (h : d.checked = .ok c) :
    c.FaithfulTo d := by
  obtain ⟨-, -, -, -, rfl⟩ := checked_eq_ok_iff.1 h
  have hranges : Interface.Consecutive 0 d.configuration.interfaces
      d.configuration.endpoints.length := by
    have hrow := Interface.consecutive_row 0 (.control :: d.interfaces)
    rwa [Nat.zero_add, ← length_tidiedEndpoints] at hrow
  refine ⟨d.toDeviceInfo.tidyForm_tidy, ?_, hranges,
    fun place => hranges.existsUnique place.zero_le⟩
  exact ⟨.control, Interface.row 2 d.interfaces, rfl, rfl,
    ⟨_, _, d.endpointsOf?_control, EndpointDescription.halfOfControl_control .input,
      EndpointDescription.halfOfControl_control .output⟩,
    (List.forall₂_cons.1 d.forall₂_copies).2⟩

/-- A description with something of everything to tidy: a current that is too large, an empty serial
number and a packet size that is not legal. -/
def untidy : DeviceDescription := { full with maxPower := 900 }

theorem checked_untidy : untidy.checked = .ok untidy.configuration :=
  checked_eq_ok_iff.2 ⟨usable_full.ids, usable_full.endpoints, by decide, by decide, rfl⟩

theorem checked_faithful_untidy :
    untidy.checked = .ok untidy.configuration ∧ untidy.configuration.FaithfulTo untidy :=
  ⟨checked_untidy, checked_faithful checked_untidy⟩

end DeviceDescription

/-! ### Checking again -/

/-- The interface with its endpoints tidied. -/
def InterfaceDescription.tidied (i : InterfaceDescription) : InterfaceDescription :=
  { i with endpoints := i.endpoints.map (·.tidied) }

namespace DeviceDescription

/-- The description with all tidied that the check tidies. -/
def tidied (d : DeviceDescription) : DeviceDescription where
  toDeviceInfo := d.toDeviceInfo.tidy
  interfaces := d.interfaces.map (·.tidied)

end DeviceDescription

/-- The description that a configuration is the copy of: all that it says about the device and the
interfaces but the control interface, each with its part of the list of endpoints. -/
def Configuration.description (c : Configuration) : DeviceDescription where
  toDeviceInfo := c.toDeviceInfo
  interfaces := c.interfaces.tail.map fun i => ⟨i.toInterfaceInfo, c.endpointsOf i⟩

namespace InterfaceDescription

theorem row_map_tidied (start : Nat) (is : List InterfaceDescription) :
    Interface.row start (is.map (·.tidied)) = Interface.row start is := by
  induction is generalizing start with
  | nil => rfl
  | cons i is ih =>
    have hlength : i.tidied.endpoints.length = i.endpoints.length := List.length_map _
    rw [List.map_cons, Interface.row, Interface.row, hlength, ih]
    rfl

theorem tidiedEndpoints_map_tidied (is : List InterfaceDescription) :
    tidiedEndpoints (is.map (·.tidied)) = tidiedEndpoints is := by
  induction is with
  | nil => rfl
  | cons i is ih =>
    rw [List.map_cons, tidiedEndpoints_cons, tidiedEndpoints_cons, ih]
    simp [tidied, Function.comp_def, EndpointDescription.tidied_tidied]

end InterfaceDescription

namespace DeviceDescription

/-- What a configuration is taken apart into is the tidy form of what it was made of. -/
theorem description_configuration (d : DeviceDescription) :
    d.configuration.description = d.tidied := by
  have hinterfaces := congrArg List.tail (d.map_endpointsOf InterfaceDescription.mk)
  rw [← List.map_tail] at hinterfaces
  rw [Configuration.description, hinterfaces]
  rfl

/-- A description and its tidy form stand for the same configuration. -/
theorem configuration_tidied (d : DeviceDescription) :
    d.tidied.configuration = d.configuration := by
  have hcontrol : InterfaceDescription.control :: d.tidied.interfaces =
      (InterfaceDescription.control :: d.interfaces).map (·.tidied) := rfl
  have hinfo : d.tidied.toDeviceInfo = d.toDeviceInfo.tidy := rfl
  rw [configuration, hcontrol, row_map_tidied, tidiedEndpoints_map_tidied, hinfo,
    DeviceInfo.tidy_tidy, configuration]

theorem checked_tidied {d : DeviceDescription} {c : Configuration} (h : d.checked = .ok c) :
    d.tidied.checked = .ok c := by
  obtain ⟨hids, husable, hinterfaces, hendpoints, rfl⟩ := checked_eq_ok_iff.1 h
  refine checked_eq_ok_iff.2 ⟨?_, ?_, ?_, ?_, d.configuration_tidied.symm⟩
  · exact List.forall_mem_map.2 hids
  · refine List.forall_mem_map.2 fun i hi => List.forall_mem_map.2 fun e he => ?_
    exact (husable i hi e he).tidied
  · rwa [tidied, List.length_map]
  · rwa [tidied, ← length_tidiedEndpoints, tidiedEndpoints_map_tidied, length_tidiedEndpoints]

/-- A configuration that is taken apart, each interface with the endpoints in its range, passes the
check again and becomes what it was, with the same descriptors. -/
theorem checked_description {d : DeviceDescription} {c : Configuration} (h : d.checked = .ok c) :
    (∀ i ∈ c.interfaces, c.endpointsOf? i = some (c.endpointsOf i)) ∧
      ∃ c', c.description.checked = .ok c' ∧ c' = c ∧
        DescriptorSet.assemble c' = DescriptorSet.assemble c := by
  have htidied := checked_tidied h
  obtain ⟨-, -, -, -, rfl⟩ := checked_eq_ok_iff.1 h
  refine ⟨fun i hi => ?_, _, ?_, rfl, rfl⟩
  · exact Configuration.endpointsOf?_eq_some.2 ⟨d.accounted_configuration.inRange i hi, rfl⟩
  · rw [description_configuration, htidied]

theorem checked_description_untidy :
    untidy.checked = .ok untidy.configuration ∧ untidy.configuration.description ≠ untidy ∧
      (∀ i ∈ untidy.configuration.interfaces,
        untidy.configuration.endpointsOf? i = some (untidy.configuration.endpointsOf i)) ∧
      ∃ c', untidy.configuration.description.checked = .ok c' ∧ c' = untidy.configuration ∧
        DescriptorSet.assemble c' = DescriptorSet.assemble untidy.configuration :=
  have hpower : untidy.configuration.description.maxPower ≠ untidy.maxPower := by decide
  ⟨checked_untidy, fun h => hpower (by rw [h]), checked_description checked_untidy⟩

end DeviceDescription

end UsbGadget
