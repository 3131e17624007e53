import UsbGadget.Descriptor.Reader
import UsbGadget.Proofs.Acceptance

/-!
# Descriptors say what the configuration is

A host that walks over the records of a configuration finds the configuration's own record, then
for each interface its record and those of its endpoints, and in them what the configuration says
(`DescriptorSet.readAll_records`). The same records, cut where the interfaces start, are what
`DescriptorSet.interface?` gives out (`Configuration.interface?_descriptors`).

The walk is proved record by record: `Record.readAll_append` takes one record off the front, and
`readAll_flatten_blocksOf` takes off the blocks of interfaces.
-/

namespace UsbGadget

/-! ### Walking over records -/

namespace Record

/-- A record whose first byte is its length is taken off the front. -/
theorem readAll_append {b : UInt8} {bs rest : List UInt8} {r : Record}
    (hlen : b.toNat = (b :: bs).length) (hr : ofBytes? (b :: bs) = some r) :
    readAll (b :: bs ++ rest) = (readAll rest).map (r :: ·) := by
  have hwhole : ¬(b.toNat = 0 ∨ (b :: bs ++ rest).length < b.toNat) := by
    rw [hlen, List.length_append, List.length_cons]
    omega
  rw [List.cons_append] at hwhole ⊢
  rw [readAll, if_neg hwhole, ← List.cons_append, hlen, List.take_left, List.drop_left, hr]
  cases readAll rest <;> rfl

theorem readAll_configuration {r : ConfigurationRecord} (hlen : r.length = 9)
    (hkind : r.kind = .configuration) (rest : List UInt8) :
    readAll (r.bytes ++ rest) = (readAll rest).map (.configuration r :: ·) := by
  obtain ⟨length, kind, totalLength, interfaces, value, nameString, attributes, maxPower⟩ := r
  cases hlen
  cases hkind
  refine readAll_append rfl ?_
  show some (Record.configuration ⟨9, .configuration, halfOfBytes _ _, _, _, _, _, _⟩) = _
  rw [halfOfBytes_halfBytes]
  rfl

theorem readAll_interface {r : InterfaceRecord} (hlen : r.length = 9) (hkind : r.kind = .interface)
    (rest : List UInt8) : readAll (r.bytes ++ rest) = (readAll rest).map (.interface r :: ·) := by
  obtain ⟨length, kind, number, alternate, endpoints, classCode, subclass, protocol, name⟩ := r
  cases hlen
  cases hkind
  exact readAll_append rfl rfl

theorem readAll_endpoint {r : EndpointRecord} (hlen : r.length = 7) (hkind : r.kind = .endpoint)
    (rest : List UInt8) : readAll (r.bytes ++ rest) = (readAll rest).map (.endpoint r :: ·) := by
  obtain ⟨length, kind, address, attributes, maxPacketSize, interval⟩ := r
  cases hlen
  cases hkind
  refine readAll_append rfl ?_
  show some (Record.endpoint ⟨7, .endpoint, _, _, halfOfBytes _ _, _⟩) = _
  rw [halfOfBytes_halfBytes]
  rfl

end Record

/-- The records of an interface and its endpoints. -/
structure RecordGroup where
  /-- The interface. -/
  interface : InterfaceRecord
  /-- Its endpoints. -/
  endpoints : List EndpointRecord

namespace RecordGroup

/-- The records in the order in which they are sent. -/
def records (g : RecordGroup) : List Record := .interface g.interface :: g.endpoints.map .endpoint

/-- The records that a configuration sends for an interface at a position. -/
def ofEntry (c : Configuration) (entry : Interface × Nat) : RecordGroup where
  interface := entry.1.record entry.2 (c.endpointsOf entry.1)
  endpoints := (c.endpointsOf entry.1).map (·.record)

end RecordGroup

theorem readAll_flatMap_endpoints (endpoints : List EndpointDescription) (rest : List UInt8) :
    Record.readAll ((endpoints.flatMap fun e => e.record.bytes) ++ rest) =
      (Record.readAll rest).map ((endpoints.map fun e => .endpoint e.record) ++ ·) := by
  induction endpoints with
  | nil => simp
  | cons e es ih =>
    rw [List.flatMap_cons, List.append_assoc, Record.readAll_endpoint rfl rfl, ih, Option.map_map]
    rfl

/-- The blocks of interfaces are taken off the front, each as one group of records. -/
theorem readAll_flatten_blocksOf (c : Configuration) (entries : List (Interface × Nat)) :
    Record.readAll (c.blocksOf entries).flatten =
      some ((entries.map (RecordGroup.ofEntry c)).flatMap RecordGroup.records) := by
  induction entries with
  | nil => rw [Configuration.blocksOf, List.map_nil, List.flatten_nil, Record.readAll]; rfl
  | cons entry entries ih =>
    rw [Configuration.blocksOf] at ih ⊢
    rw [List.map_cons, List.flatten_cons, Interface.block, List.append_assoc,
      Record.readAll_interface rfl rfl, readAll_flatMap_endpoints, ih]
    simp [RecordGroup.records, RecordGroup.ofEntry, Function.comp_def]

/-! ### What records say -/

/-- The record says what the configuration is. -/
structure ConfigurationRecord.Describes (r : ConfigurationRecord) (c : Configuration) : Prop where
  /-- The length of a configuration record. -/
  length : r.length = 9
  /-- The kind of a configuration record. -/
  kind : r.kind = .configuration
  /-- The length of all records. -/
  totalLength : r.totalLength.toNat = 9 + 9 * c.interfaces.length + 7 * c.endpoints.length
  /-- The number of interfaces. -/
  interfaces : r.interfaces.toNat = c.interfaces.length
  /-- The flags, with the reserved bit. -/
  attributes : r.attributes = 0x80 ||| c.flags.bits
  /-- The current, in units of 2 mA. -/
  maxPower : r.maxPower.toNat = c.maxPower.toNat / 2

/-- The record says what the interface is. -/
structure InterfaceRecord.Describes (r : InterfaceRecord) (i : Interface) : Prop where
  /-- The length of an interface record. -/
  length : r.length = 9
  /-- The kind of an interface record. -/
  kind : r.kind = .interface
  /-- The number. -/
  number : r.number = i.id
  /-- The class. -/
  classCode : r.classCode = i.classCode
  /-- The subclass. -/
  subclass : r.subclass = i.subclass
  /-- The protocol. -/
  protocol : r.protocol = i.protocol

/-- The record says what the endpoint is. -/
structure EndpointRecord.Describes (r : EndpointRecord) (e : EndpointDescription) : Prop where
  /-- The length of an endpoint record. -/
  length : r.length = 7
  /-- The kind of an endpoint record. -/
  kind : r.kind = .endpoint
  /-- The address. -/
  address : r.address = e.address
  /-- The transfer, synchronization and usage types. -/
  attributes : EndpointAttributes.ofByte? r.attributes = some e.attributes
  /-- The largest packet. -/
  maxPacketSize : r.maxPacketSize = e.maxPacketSize
  /-- The polling interval. -/
  interval : r.interval = e.interval

/-- The records say what the interface and its endpoints are. -/
structure RecordGroup.Describes (g : RecordGroup) (c : Configuration) (i : Interface) : Prop where
  /-- The first record is that of the interface. -/
  interface : g.interface.Describes i
  /-- The others are those of its endpoints, in order. -/
  endpoints : ∃ es, c.endpointsOf? i = some es ∧
    List.Forall₂ EndpointRecord.Describes g.endpoints es

theorem EndpointDescription.describes_record (e : EndpointDescription) :
    e.record.Describes e where
  length := rfl
  kind := rfl
  address := rfl
  attributes := EndpointAttributes.ofByte?_byte e.attributes
  maxPacketSize := rfl
  interval := rfl

theorem RecordGroup.describes_ofEntry {c : Configuration} {entry : Interface × Nat}
    (h : c.InRange entry.1) : (ofEntry c entry).Describes c entry.1 where
  interface := ⟨rfl, rfl, rfl, rfl, rfl, rfl⟩
  endpoints := by
    refine ⟨c.endpointsOf entry.1, Configuration.endpointsOf?_eq_some.2 ⟨h, rfl⟩, ?_⟩
    rw [ofEntry, List.forall₂_map_left_iff]
    exact List.forall₂_same.2 fun e _ => e.describes_record

/-- A configuration that fits in a packet and draws what a device may is described by its record. -/
theorem Configuration.describes_record {c : Configuration} (hlen : c.descriptorLength ≤ packetLimit)
    (hpower : c.maxPower ≤ powerLimit) : c.record.Describes c := by
  have hpower : c.maxPower.toNat ≤ 500 := UInt16.le_iff_toNat_le.1 hpower
  have hlen : 9 + 9 * c.interfaces.length + 7 * c.endpoints.length ≤ 64 := hlen
  refine ⟨rfl, rfl, ?_, ?_, rfl, ?_⟩
  · exact UInt16.toNat_ofNat_of_lt'
      (show 9 + 9 * c.interfaces.length + 7 * c.endpoints.length < 65536 by omega)
  · exact UInt8.toNat_ofNat_of_lt' (show _ < 256 by omega)
  · exact UInt8.toNat_ofNat_of_lt' (show _ < 256 by omega)

theorem DeviceInfo.maxPower_tidy_le (d : DeviceInfo) : d.tidy.maxPower ≤ powerLimit := by
  show (if d.maxPower ≤ powerLimit then d.maxPower else powerLimit) ≤ powerLimit
  by_cases h : d.maxPower ≤ powerLimit
  · rwa [if_pos h]
  · rw [if_neg h]
    exact UInt16.le_refl _

/-! ### Cutting records at the interfaces -/

/-- Blocks are found between where they start and where the next one does, or the bytes end. -/
theorem slice_startsFrom (front : List UInt8) (blocks : List (List UInt8)) (p : Nat) :
    ((startsFrom front.length blocks)[p]?.map fun start =>
      ((front ++ blocks.flatten).drop start).take
        ((startsFrom front.length blocks)[p + 1]?.getD (front ++ blocks.flatten).length - start)) =
      blocks[p]? := by
  induction blocks generalizing front p with
  | nil => rfl
  | cons block blocks ih =>
    rw [startsFrom, List.flatten_cons, ← List.append_assoc, ← List.length_append]
    cases p with
    | zero =>
      -- the next block, or the end, comes right behind this one
      have hnext : (startsFrom (front ++ block).length blocks)[0]?.getD
          (front ++ block ++ blocks.flatten).length = (front ++ block).length := by
        cases blocks with
        | nil => simp [startsFrom]
        | cons _ _ => rfl
      simp only [List.getElem?_cons_zero, List.getElem?_cons_succ, Option.map_some, hnext]
      rw [List.append_assoc, List.drop_left, List.length_append, Nat.add_sub_cancel_left,
        List.take_left]
    | succ p =>
      simp only [List.getElem?_cons_succ]
      exact ih (front ++ block) p

/-- The part of the records for an interface is its block. -/
theorem Configuration.interface?_descriptors (c : Configuration) (p : Nat) :
    c.descriptors.interface? p = c.blocks[p]? :=
  slice_startsFrom c.record.bytes c.blocks p

theorem filterMap_range_getElem? {α : Type} (l : List α) :
    (List.range l.length).filterMap (fun p => l[p]?) = l := by
  induction l with
  | nil => rfl
  | cons a l ih =>
    rw [List.length_cons, List.range_succ_eq_map, List.filterMap_cons, List.getElem?_cons_zero]
    simp only [List.filterMap_map, Function.comp_def, List.getElem?_cons_succ, ih]

/-! ### Reading a configuration back -/

theorem RecordGroup.forall₂_describes {c : Configuration} {is : List Interface}
    (h : ∀ i ∈ is, c.InRange i) (n : Nat) :
    List.Forall₂ (fun g i => Describes g c i) ((is.zipIdx n).map (ofEntry c)) is := by
  induction is generalizing n with
  | nil => exact .nil
  | cons i is ih =>
    rw [List.forall_mem_cons] at h
    exact .cons (describes_ofEntry h.1) (ih h.2 (n + 1))

namespace DescriptorSet

/-- Records that a host reads say what the configuration is, and where the interfaces start. -/
theorem readAll_records {d : DeviceDescription} {c : Configuration} {set : DescriptorSet}
    (hc : d.checked = .ok c) (hset : assemble c = .ok set) :
    (∃ header groups,
      Record.readAll set.records =
        some (.configuration header :: groups.flatMap RecordGroup.records) ∧
      header.Describes c ∧ header.totalLength.toNat = set.records.length ∧
      List.Forall₂ (fun g i => g.Describes c i) groups c.interfaces) ∧
    set.header ++ ((List.range c.interfaces.length).filterMap set.interface?).flatten =
      set.records ∧
    ∀ p, set.interface? p = none ↔ c.interfaces.length ≤ p := by
  obtain ⟨hlen, -, -, haccounted, rfl⟩ := assemble_eq_ok_iff.1 hset
  obtain ⟨-, -, -, -, rfl⟩ := DeviceDescription.checked_eq_ok_iff.1 hc
  generalize hcd : d.configuration = c at *
  have hpower : c.maxPower ≤ powerLimit := hcd ▸ d.toDeviceInfo.maxPower_tidy_le
  have hdescribes := Configuration.describes_record hlen hpower
  refine ⟨⟨c.record, c.interfaces.zipIdx.map (RecordGroup.ofEntry c), ?_, hdescribes, ?_, ?_⟩,
    ?_, ?_⟩
  · rw [Configuration.descriptors, Record.readAll_configuration rfl rfl, Configuration.blocks,
      readAll_flatten_blocksOf]
    rfl
  · rw [hdescribes.totalLength, Configuration.descriptors, List.length_append,
      ConfigurationRecord.length_bytes, Configuration.length_flatten_blocks haccounted.inRange,
      haccounted.total]
    omega
  · exact RecordGroup.forall₂_describes haccounted.inRange 0
  · have hinterface : c.descriptors.interface? = fun p => c.blocks[p]? :=
      funext c.interface?_descriptors
    rw [hinterface, ← c.length_blocks, filterMap_range_getElem?]
    rfl
  · intro p
    rw [c.interface?_descriptors, List.getElem?_eq_none_iff, c.length_blocks]

/-- The records of a configuration that fills a packet, read back. -/
theorem readAll_records_full : ∃ (header : ConfigurationRecord) (groups : List RecordGroup),
    Record.readAll DeviceDescription.full.configuration.descriptors.records =
      some (.configuration header :: groups.flatMap RecordGroup.records) ∧
    header.totalLength.toNat = 64 ∧ groups.length = 3 := by
  have hu := DeviceDescription.usable_full
  have hc : DeviceDescription.full.checked = .ok DeviceDescription.full.configuration :=
    DeviceDescription.checked_eq_ok_iff.2 ⟨hu.ids, hu.endpoints, by decide, by decide, rfl⟩
  have hset : assemble DeviceDescription.full.configuration =
      .ok DeviceDescription.full.configuration.descriptors :=
    DeviceDescription.assemble_configuration_eq_ok_iff.2
      ⟨hu.room, hu.vendor, hu.product, hu.serial, hu.names, rfl⟩
  obtain ⟨⟨header, groups, hread, hheader, -, hgroups⟩, -, -⟩ := readAll_records hc hset
  exact ⟨header, groups, hread, hheader.totalLength, hgroups.length_eq⟩

end DescriptorSet

end UsbGadget
