import Mathlib.Algebra.GroupWithZero.Nat
import UsbGadget.Proofs.Accepted

/-!
# Assembled descriptors

The assembly of a configuration's descriptors goes through a loop with a running offset. What comes
out can be written down at once: `Configuration.descriptors` has the configuration record, then for
every interface a block of its record and the records of its endpoints, and the blocks start where
the ones before them end (`startsFrom`).

* `Assembly.foldlM_append_eq_ok` and `Assembly.foldlM_addInterface_eq_ok` are the two loops;
* `DescriptorSet.assemble_eq_ok_iff` is the main statement: which configurations have descriptors,
  and what these are.
-/

namespace UsbGadget

/-! ### Blocks -/

/-- The record of the interface at a position, with those of the given endpoints behind it. -/
def Interface.block (i : Interface) (position : Nat) (endpoints : List EndpointDescription) :
    List UInt8 :=
  (i.record position endpoints).bytes ++ endpoints.flatMap fun e => e.record.bytes

theorem length_flatMap_record (endpoints : List EndpointDescription) :
    (endpoints.flatMap fun e => e.record.bytes).length = 7 * endpoints.length := by
  induction endpoints with
  | nil => rfl
  | cons e es ih =>
    rw [List.flatMap_cons, List.length_append, ih, EndpointRecord.length_bytes, List.length_cons]
    omega

@[simp] theorem Interface.length_block (i : Interface) (position : Nat)
    (endpoints : List EndpointDescription) :
    (i.block position endpoints).length = 9 + 7 * endpoints.length := by
  rw [block, List.length_append, InterfaceRecord.length_bytes, length_flatMap_record]

/-- Where blocks start that stand one behind the other from an offset on. -/
def startsFrom (offset : Nat) : List (List UInt8) → List Nat
  | [] => []
  | block :: blocks => offset :: startsFrom (offset + block.length) blocks

namespace Configuration

/-- The interface's range lies in the list of endpoints. -/
def InRange (c : Configuration) (i : Interface) : Prop :=
  i.start ≤ i.stop ∧ i.stop ≤ c.endpoints.length

instance (c : Configuration) (i : Interface) : Decidable (c.InRange i) :=
  inferInstanceAs (Decidable (_ ∧ _))

theorem endpointsOf?_eq_some {c : Configuration} {i : Interface} {es : List EndpointDescription} :
    c.endpointsOf? i = some es ↔ c.InRange i ∧ es = c.endpointsOf i := by
  unfold endpointsOf endpointsOf? InRange
  by_cases h : i.start ≤ i.stop ∧ i.stop ≤ c.endpoints.length
  · rw [if_pos h, Option.some.injEq, Option.getD_some, and_iff_right h]
    exact eq_comm
  · rw [if_neg h]
    exact ⟨nofun, fun h' => absurd h'.1 h⟩

theorem length_endpointsOf {c : Configuration} {i : Interface} (h : c.InRange i) :
    (c.endpointsOf i).length = i.stop - i.start := by
  have hsome : c.endpointsOf? i = _ := if_pos h
  rw [endpointsOf, hsome, Option.getD_some, List.length_take, List.length_drop]
  have := h.2
  omega

/-- The ranges of the interfaces account for the list of endpoints. -/
structure Accounted (c : Configuration) : Prop where
  /-- Every range lies in the list. -/
  inRange : ∀ i ∈ c.interfaces, c.InRange i
  /-- The ranges are together as long as the list. -/
  total : (c.interfaces.map fun i => i.stop - i.start).sum = c.endpoints.length

theorem accounted_iff {c : Configuration} : c.Accounted ↔ (∀ i ∈ c.interfaces, c.InRange i) ∧
    (c.interfaces.map fun i => i.stop - i.start).sum = c.endpoints.length :=
  ⟨fun h => ⟨h.inRange, h.total⟩, fun h => ⟨h.1, h.2⟩⟩

instance (c : Configuration) : Decidable c.Accounted := decidable_of_iff' _ accounted_iff

/-- The blocks of interfaces that are numbered. -/
def blocksOf (c : Configuration) (entries : List (Interface × Nat)) : List (List UInt8) :=
  entries.map fun entry => entry.1.block entry.2 (c.endpointsOf entry.1)

/-- The block of every interface. -/
def blocks (c : Configuration) : List (List UInt8) := c.blocksOf c.interfaces.zipIdx

@[simp] theorem length_blocks (c : Configuration) : c.blocks.length = c.interfaces.length := by
  rw [blocks, blocksOf, List.length_map, List.length_zipIdx]

/-- All descriptors of a configuration. -/
def descriptors (c : Configuration) : DescriptorSet where
  device := c.deviceRecord
  records := c.record.bytes ++ c.blocks.flatten
  starts := startsFrom 9 c.blocks
  strings := [c.vendor, c.product, c.serial.getD ""] ++ c.interfaces.map (·.name)

theorem length_flatten_blocksOf {c : Configuration} {entries : List (Interface × Nat)}
    (h : ∀ entry ∈ entries, c.InRange entry.1) :
    (c.blocksOf entries).flatten.length =
      9 * entries.length + 7 * (entries.map fun entry => entry.1.stop - entry.1.start).sum := by
  induction entries with
  | nil => rfl
  | cons entry entries ih =>
    rw [List.forall_mem_cons] at h
    have hrest := ih h.2
    simp only [blocksOf, List.map_cons, List.flatten_cons, List.length_append,
      Interface.length_block, length_endpointsOf h.1, List.sum_cons, List.length_cons] at hrest ⊢
    omega

theorem map_zipIdx {α : Type} (f : Interface → α) (is : List Interface) :
    (is.zipIdx.map fun entry => f entry.1) = is.map f := by
  have hmap := List.map_map (f := Prod.fst) (g := f) (l := is.zipIdx)
  rw [List.zipIdx_map_fst] at hmap
  exact hmap.symm

theorem forall_mem_zipIdx {P : Interface → Prop} {is : List Interface} :
    (∀ entry ∈ is.zipIdx, P entry.1) ↔ ∀ i ∈ is, P i := by
  rw [← List.forall_mem_map (f := Prod.fst) (P := P), List.zipIdx_map_fst]

theorem length_flatten_blocks {c : Configuration} (h : ∀ i ∈ c.interfaces, c.InRange i) :
    c.blocks.flatten.length =
      9 * c.interfaces.length + 7 * (c.interfaces.map fun i => i.stop - i.start).sum := by
  rw [blocks, length_flatten_blocksOf (forall_mem_zipIdx.2 h), List.length_zipIdx,
    map_zipIdx fun i => i.stop - i.start]

end Configuration

/-! ### The loops of the assembly -/

namespace Assembly

/-- Records of endpoints are added as long as they fit. -/
theorem foldlM_append_eq_ok {a a' : Assembly} {endpoints : List EndpointDescription}
    (ha : a.bytes.length ≤ packetLimit) :
    endpoints.foldlM (fun a e => a.append e.record.bytes) a = .ok a' ↔
      a.bytes.length + 7 * endpoints.length ≤ packetLimit ∧
      a' = { a with bytes := a.bytes ++ endpoints.flatMap fun e => e.record.bytes } := by
  induction endpoints generalizing a with
  | nil =>
    simp only [List.foldlM_nil, List.length_nil, Nat.mul_zero, Nat.add_zero, ha, true_and,
      List.flatMap_nil, List.append_nil]
    exact ⟨fun h => (Except.ok.inj h).symm, fun h => congrArg Except.ok h.symm⟩
  | cons e es ih =>
    rw [List.foldlM_cons, bind_eq_ok]
    simp only [append_eq_ok, EndpointRecord.length_bytes, List.length_cons, List.flatMap_cons]
    constructor
    · rintro ⟨_, ⟨hfits, rfl⟩, h⟩
      obtain ⟨hlen, rfl⟩ := (ih (by simpa using hfits)).1 h
      simp only [List.length_append, EndpointRecord.length_bytes] at hlen
      exact ⟨by omega, by simp⟩
    · rintro ⟨hlen, rfl⟩
      have hfits : a.bytes.length + 7 ≤ packetLimit := by omega
      refine ⟨_, ⟨hfits, rfl⟩, (ih (by simpa using hfits)).2 ⟨?_, by simp⟩⟩
      simp only [List.length_append, EndpointRecord.length_bytes]
      omega

/-- The block of an interface is added if its range lies in the list, its name fits in a packet
and the block still fits. -/
theorem addInterface_eq_ok_iff {c : Configuration} {a a' : Assembly} {i : Interface} {k : Nat} :
    addInterface c a (i, k) = .ok a' ↔ c.InRange i ∧ FitsPacket i.name ∧
      a.bytes.length + (i.block k (c.endpointsOf i)).length ≤ packetLimit ∧
      a' = ⟨a.bytes ++ i.block k (c.endpointsOf i), a.starts ++ [a.bytes.length],
        a.strings ++ [i.name]⟩ := by
  rw [addInterface_eq_ok]
  simp only [Configuration.endpointsOf?_eq_some, pushString_eq_ok, append_eq_ok,
    InterfaceRecord.length_bytes, Interface.length_block]
  constructor
  · rintro ⟨_, _, _, ⟨hrange, rfl⟩, ⟨hname, rfl⟩, ⟨hfits, rfl⟩, h⟩
    obtain ⟨hlen, rfl⟩ := (foldlM_append_eq_ok (by simpa using hfits)).1 h
    simp only [List.length_append, InterfaceRecord.length_bytes] at hlen
    exact ⟨hrange, hname, by omega, by simp [Interface.block]⟩
  · rintro ⟨hrange, hname, hlen, rfl⟩
    have hfits : a.bytes.length + 9 ≤ packetLimit := by omega
    refine ⟨_, _, _, ⟨hrange, rfl⟩, ⟨hname, rfl⟩, ⟨hfits, rfl⟩,
      (foldlM_append_eq_ok (by simpa using hfits)).2 ⟨?_, by simp [Interface.block]⟩⟩
    simp only [List.length_append, InterfaceRecord.length_bytes]
    omega

/-- Blocks are added as long as they fit; each starts where those before it end. -/
theorem foldlM_addInterface_eq_ok {c : Configuration} {a a' : Assembly}
    {entries : List (Interface × Nat)} (ha : a.bytes.length ≤ packetLimit) :
    entries.foldlM (addInterface c) a = .ok a' ↔ (∀ entry ∈ entries, c.InRange entry.1) ∧
      (∀ entry ∈ entries, FitsPacket entry.1.name) ∧
      a.bytes.length + (c.blocksOf entries).flatten.length ≤ packetLimit ∧
      a' = ⟨a.bytes ++ (c.blocksOf entries).flatten,
        a.starts ++ startsFrom a.bytes.length (c.blocksOf entries),
        a.strings ++ entries.map (·.1.name)⟩ := by
  induction entries generalizing a with
  | nil =>
    simp only [List.foldlM_nil, List.not_mem_nil, false_implies, implies_true, true_and,
      Configuration.blocksOf, List.map_nil, List.flatten_nil, List.length_nil, Nat.add_zero, ha,
      List.append_nil, startsFrom]
    exact ⟨fun h => (Except.ok.inj h).symm, fun h => congrArg Except.ok h.symm⟩
  | cons entry entries ih =>
    obtain ⟨i, k⟩ := entry
    rw [List.foldlM_cons, bind_eq_ok, List.forall_mem_cons, List.forall_mem_cons]
    simp only [addInterface_eq_ok_iff, Configuration.blocksOf, List.map_cons, List.flatten_cons,
      List.length_append, startsFrom]
    constructor
    · rintro ⟨_, ⟨hrange, hname, hfits, rfl⟩, h⟩
      obtain ⟨hranges, hnames, hlen, rfl⟩ := (ih (by simpa using hfits)).1 h
      simp only [List.length_append] at hlen
      refine ⟨⟨hrange, hranges⟩, ⟨hname, hnames⟩, ?_, ?_⟩
      · rwa [Nat.add_assoc] at hlen
      · simp [Configuration.blocksOf]
    · rintro ⟨⟨hrange, hranges⟩, ⟨hname, hnames⟩, hlen, rfl⟩
      have hfits : a.bytes.length + (i.block k (c.endpointsOf i)).length ≤ packetLimit := by omega
      refine ⟨_, ⟨hrange, hname, hfits, rfl⟩,
        (ih (by simpa using hfits)).2 ⟨hranges, hnames, ?_, ?_⟩⟩
      · rwa [List.length_append, Nat.add_assoc]
      · simp [Configuration.blocksOf]

theorem foldlM_interfaces_eq_ok {c : Configuration} {strings : List String} {a : Assembly} :
    c.interfaces.zipIdx.foldlM (addInterface c) ⟨c.record.bytes, [], strings⟩ = .ok a ↔
      (∀ i ∈ c.interfaces, c.InRange i) ∧ (∀ i ∈ c.interfaces, FitsPacket i.name) ∧
      9 + c.blocks.flatten.length ≤ packetLimit ∧
      a = ⟨c.record.bytes ++ c.blocks.flatten, startsFrom 9 c.blocks,
        strings ++ c.interfaces.map (·.name)⟩ := by
  have hfits : (⟨c.record.bytes, [], strings⟩ : Assembly).bytes.length ≤ packetLimit :=
    show 9 ≤ packetLimit by decide
  rw [foldlM_addInterface_eq_ok hfits, Configuration.forall_mem_zipIdx,
    Configuration.forall_mem_zipIdx (P := fun i => FitsPacket i.name),
    Configuration.map_zipIdx (·.name)]
  exact Iff.rfl

end Assembly

/-! ### The assembly as a whole -/

namespace DescriptorSet

theorem foldlM_pushString_eq_ok {strings strings' texts : List String} :
    texts.foldlM pushString strings = .ok strings' ↔
      (∀ t ∈ texts, FitsPacket t) ∧ strings' = strings ++ texts := by
  induction texts generalizing strings with
  | nil =>
    simp only [List.foldlM_nil, List.not_mem_nil, false_implies, implies_true, true_and,
      List.append_nil]
    exact ⟨fun h => (Except.ok.inj h).symm, fun h => congrArg Except.ok h.symm⟩
  | cons t ts ih =>
    rw [List.foldlM_cons, bind_eq_ok, List.forall_mem_cons]
    simp only [pushString_eq_ok, ih]
    constructor
    · rintro ⟨_, ⟨ht, rfl⟩, hts, rfl⟩
      exact ⟨⟨ht, hts⟩, by simp⟩
    · rintro ⟨⟨ht, hts⟩, rfl⟩
      exact ⟨_, ⟨ht, rfl⟩, hts, by simp⟩

/-- A configuration has descriptors exactly when its records fit in a packet, all its texts do and
its ranges account for its endpoints. -/
theorem assemble_eq_ok_iff {c : Configuration} {set : DescriptorSet} :
    assemble c = .ok set ↔ c.descriptorLength ≤ packetLimit ∧
      (∀ t ∈ [c.vendor, c.product, c.serial.getD ""], FitsPacket t) ∧
      (∀ i ∈ c.interfaces, FitsPacket i.name) ∧ c.Accounted ∧ set = c.descriptors := by
  rw [assemble_eq_ok]
  simp only [foldlM_pushString_eq_ok, Assembly.foldlM_interfaces_eq_ok, List.nil_append]
  -- the records are as long as they were said to be exactly when the ranges add up
  have htotal (h : ∀ i ∈ c.interfaces, c.InRange i) :
      9 + c.blocks.flatten.length = c.descriptorLength ↔
        (c.interfaces.map fun i => i.stop - i.start).sum = c.endpoints.length := by
    rw [Configuration.length_flatten_blocks h, Configuration.descriptorLength]
    omega
  constructor
  · rintro ⟨hlen, _, _, ⟨htexts, rfl⟩, ⟨hranges, hnames, -, rfl⟩, hrecords, rfl⟩
    rw [List.length_append, ConfigurationRecord.length_bytes, htotal hranges] at hrecords
    exact ⟨hlen, htexts, hnames, ⟨hranges, hrecords⟩, rfl⟩
  · rintro ⟨hlen, htexts, hnames, ⟨hranges, hsum⟩, rfl⟩
    have hrecords := (htotal hranges).2 hsum
    refine ⟨hlen, _, _, ⟨htexts, rfl⟩, ⟨hranges, hnames, hrecords ▸ hlen, rfl⟩, ?_, rfl⟩
    rw [List.length_append, ConfigurationRecord.length_bytes, hrecords]

end DescriptorSet

end UsbGadget
