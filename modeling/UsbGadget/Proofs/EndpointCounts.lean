import UsbGadget.Proofs.ConfigurationReader
import UsbGadget.Proofs.FaithfulCopy

/-!
# How many endpoints an interface record announces

An interface record says how many endpoints its interface has, and the records of these follow it.
The two numbers come from different places: the first leaves out what looks like the OUT half of
the control endpoint, and that may be an endpoint of a caller.

* `Record.tallies` counts the endpoint records behind each interface record;
* `DescriptorSet.countsEndpoints_iff` is the main statement: what interface records announce is what
  follows exactly if no caller has an OUT endpoint with number 0. The record of the control
  interface announces one endpoint in any case;
* `DescriptorSet.not_countsEndpoints_zeroOut`: such an endpoint is sent but not announced.
-/

namespace UsbGadget

namespace Record

/-- The record is one of an interface. -/
def isInterface : Record → Bool
  | interface _ => true
  | _ => false

/-- The record is one of an endpoint. -/
def isEndpoint : Record → Bool
  | endpoint _ => true
  | _ => false

/-- The interface records, each with the number of endpoint records that follow it before the next
interface record. -/
def tallies : List Record → List (InterfaceRecord × Nat)
  | [] => []
  | interface r :: rest =>
    (r, (rest.takeWhile fun record => !record.isInterface).countP isEndpoint) :: tallies rest
  | _ :: rest => tallies rest

end Record

namespace Record

/-- Endpoint records at the front are counted with the interface record before them. -/
theorem tallies_append_endpoints (endpoints : List EndpointRecord) (rest : List Record) :
    tallies (endpoints.map endpoint ++ rest) = tallies rest := by
  induction endpoints with
  | nil => rfl
  | cons r rs ih => exact ih

/-- Behind the records of an interface comes another interface record, or none. -/
theorem takeWhile_flatMap_records (groups : List RecordGroup) :
    ((groups.flatMap RecordGroup.records).takeWhile fun record => !record.isInterface) = [] := by
  cases groups with
  | nil => rfl
  | cons g gs => rfl

theorem tallies_flatMap_records (groups : List RecordGroup) :
    tallies (groups.flatMap RecordGroup.records) =
      groups.map fun g => (g.interface, g.endpoints.length) := by
  induction groups with
  | nil => rfl
  | cons g gs ih =>
    have hendpoints : ∀ record ∈ g.endpoints.map endpoint, (!record.isInterface) = true :=
      List.forall_mem_map.2 fun _ _ => rfl
    have hcount : (g.endpoints.map endpoint).countP isEndpoint = g.endpoints.length := by
      rw [List.countP_eq_length.2 (List.forall_mem_map.2 fun _ _ => rfl), List.length_map]
    rw [List.flatMap_cons, RecordGroup.records, List.cons_append, tallies,
      List.takeWhile_append_of_pos hendpoints, takeWhile_flatMap_records, List.append_nil, hcount,
      tallies_append_endpoints, ih, List.map_cons]

end Record

namespace DescriptorSet

/-- A host that reads the records finds behind every interface record as many endpoint records as it
announces, but for that of the control interface, which announces one. -/
def CountsEndpoints (set : DescriptorSet) : Prop :=
  ∃ records control callers, Record.readAll set.records = some records ∧
    Record.tallies records = control :: callers ∧ control.1.endpoints = 1 ∧
    ∀ tally ∈ callers, tally.1.endpoints.toNat = tally.2

end DescriptorSet

theorem Configuration.readAll_descriptors (c : Configuration) :
    Record.readAll c.descriptors.records = some (.configuration c.record ::
      (c.interfaces.zipIdx.map (RecordGroup.ofEntry c)).flatMap RecordGroup.records) := by
  rw [descriptors, Record.readAll_configuration rfl rfl, blocks, readAll_flatten_blocksOf]
  rfl

/-! ### What interface records announce -/

/-- The endpoint is left out of the count in its interface's record: it has the number and the
direction of the OUT half of the control endpoint. -/
def EndpointDescription.LeftOut (e : EndpointDescription) : Prop :=
  e.number = 0 ∧ e.direction = .output

instance (e : EndpointDescription) : Decidable e.LeftOut := inferInstanceAs (Decidable (_ ∧ _))

/-- What a host makes of the records for an interface: the endpoint records are all there, and the
interface record announces those that are not left out. -/
structure InterfaceDescription.Announced (i : InterfaceDescription)
    (tally : InterfaceRecord × Nat) : Prop where
  /-- The interface. -/
  number : tally.1.number = i.id
  /-- The endpoint records that follow. -/
  records : tally.2 = i.endpoints.length
  /-- The number that is announced. -/
  announced : tally.1.endpoints.toNat + i.endpoints.countP (·.LeftOut) = tally.2

theorem EndpointDescription.counted_tidied (e : EndpointDescription) :
    e.tidied.counted = !decide e.LeftOut := by
  show (!(e.number == 0 && e.direction == .output)) = _
  rw [beq_eq_decide, beq_eq_decide, ← Bool.decide_and]
  rfl

theorem InterfaceDescription.announced_record {i : InterfaceDescription} {i' : Interface}
    (position : Nat) (hinfo : i'.toInterfaceInfo = i.toInterfaceInfo)
    (hlength : i.endpoints.length < 256) :
    i.Announced (i'.record position (i.endpoints.map (·.tidied)), i.endpoints.length) where
  number := congrArg InterfaceInfo.id hinfo
  records := rfl
  announced := by
    have hcount : (i.endpoints.map (·.tidied)).countP (·.counted) =
        i.endpoints.countP fun e => !decide e.LeftOut := by
      rw [List.countP_map]
      exact List.countP_congr fun e _ => by rw [Function.comp_apply, e.counted_tidied]
    have hsum := i.endpoints.length_eq_countP_add_countP fun e => decide e.LeftOut
    have hle := i.endpoints.countP_le_length (p := fun e => !decide e.LeftOut)
    -- the count is kept in a byte, which is large enough
    show (UInt8.ofNat ((i.endpoints.map (·.tidied)).countP (·.counted))).toNat + _ = _
    rw [hcount, UInt8.toNat_ofNat_of_lt' (Nat.lt_of_le_of_lt hle hlength)]
    simp only [decide_eq_true_eq, decide_not] at hsum
    omega

theorem DeviceDescription.announced_tallies {d : DeviceDescription}
    (hroom : d.configuration.endpoints.length < 256) :
    ∃ records, Record.readAll d.configuration.descriptors.records = some records ∧
      List.Forall₂ InterfaceDescription.Announced (.control :: d.interfaces)
        (Record.tallies records) := by
  refine ⟨_, d.configuration.readAll_descriptors, ?_⟩
  rw [show Record.tallies (.configuration _ :: _) = _ from Record.tallies_flatMap_records _,
    List.map_map, List.forall₂_map_right_iff]
  have hall := d.forall₂_configuration
  rw [← List.zipIdx_map_fst 0 d.configuration.interfaces, List.forall₂_map_right_iff] at hall
  refine hall.imp fun i entry ⟨hinfo, hendpoints⟩ => ?_
  obtain ⟨hrange, heq⟩ := Configuration.endpointsOf?_eq_some.1 hendpoints
  have hlength : i.endpoints.length = (d.configuration.endpointsOf entry.1).length := by
    rw [← heq, List.length_map]
  have hlt : i.endpoints.length < 256 := by
    rw [hlength, Configuration.length_endpointsOf hrange]
    have := hrange.2
    omega
  have hannounced := InterfaceDescription.announced_record entry.2 hinfo hlt
  rw [heq, hlength] at hannounced
  simpa [RecordGroup.ofEntry] using hannounced

theorem forall_mem_iff_of_forall₂ {α β : Type} {R : α → β → Prop} {P : α → Prop} {Q : β → Prop}
    {l : List α} {l' : List β} (h : List.Forall₂ R l l') (hiff : ∀ a b, R a b → (P a ↔ Q b)) :
    (∀ a ∈ l, P a) ↔ ∀ b ∈ l', Q b := by
  induction h with
  | nil => exact ⟨fun _ => nofun, fun _ => nofun⟩
  | cons hr _ ih => rw [List.forall_mem_cons, List.forall_mem_cons, hiff _ _ hr, ih]

namespace InterfaceDescription.Announced

variable {i : InterfaceDescription} {tally : InterfaceRecord × Nat}

/-- All endpoint records that follow are announced exactly if no endpoint is left out. -/
theorem forall_iff (h : i.Announced tally) :
    (∀ e ∈ i.endpoints, ¬e.LeftOut) ↔ tally.1.endpoints.toNat = tally.2 := by
  have hzero : i.endpoints.countP (·.LeftOut) = 0 ↔ ∀ e ∈ i.endpoints, ¬e.LeftOut := by
    simp only [List.countP_eq_zero, decide_eq_true_eq]
  have hannounced := h.announced
  rw [← hzero]
  omega

theorem endpoints_of_control (h : InterfaceDescription.control.Announced tally) :
    tally.1.endpoints = 1 := by
  have hone : InterfaceDescription.control.endpoints.countP (·.LeftOut) = 1 := rfl
  have hannounced := h.announced
  rw [h.records, length_endpoints_control, hone] at hannounced
  exact UInt8.toNat_inj.1 (Nat.succ.inj hannounced)

end InterfaceDescription.Announced

namespace DescriptorSet

/-- Interface records announce the endpoint records that follow, and that of the control interface
announces one, exactly if no endpoint of a caller is left out. In any case an interface record falls
short by the number of the endpoints that are left out, of which the control interface has one. -/
theorem countsEndpoints_iff {d : DeviceDescription} {c : Configuration} {set : DescriptorSet}
    (hc : d.checked = .ok c) (hset : assemble c = .ok set) :
    (set.CountsEndpoints ↔ ∀ i ∈ d.interfaces, ∀ e ∈ i.endpoints, ¬e.LeftOut) ∧
      ∃ records, Record.readAll set.records = some records ∧
        List.Forall₂ InterfaceDescription.Announced (.control :: d.interfaces)
          (Record.tallies records) := by
  obtain ⟨hlength, -, -, -, rfl⟩ := assemble_eq_ok_iff.1 hset
  obtain ⟨-, -, -, -, rfl⟩ := DeviceDescription.checked_eq_ok_iff.1 hc
  have hlt : d.configuration.endpoints.length < 256 := by
    rw [Configuration.descriptorLength, packetLimit] at hlength
    omega
  obtain ⟨records, hread, hannounced⟩ := DeviceDescription.announced_tallies hlt
  refine ⟨?_, records, hread, hannounced⟩
  obtain ⟨control, callers, hcontrol, hcallers, htallies⟩ := List.forall₂_cons_left_iff.1 hannounced
  -- the control interface announces one in any case, so the records of callers decide
  rw [forall_mem_iff_of_forall₂ hcallers fun _ _ => InterfaceDescription.Announced.forall_iff]
  constructor
  · rintro ⟨records', control', callers', hread', htallies', -, hcounts⟩
    rw [hread, Option.some.injEq] at hread'
    rw [← hread', htallies, List.cons.injEq] at htallies'
    rwa [htallies'.2]
  · intro hcounts
    exact ⟨records, control, callers, hread, htallies, hcontrol.endpoints_of_control, hcounts⟩

theorem countsEndpoints_full :
    DeviceDescription.full.checked = .ok DeviceDescription.full.configuration ∧
      assemble DeviceDescription.full.configuration =
        .ok DeviceDescription.full.configuration.descriptors ∧
      DeviceDescription.full.configuration.descriptors.CountsEndpoints :=
  have husable := DeviceDescription.usable_full
  ⟨husable.checked, husable.assemble,
    (countsEndpoints_iff husable.checked husable.assemble).1.2 (by decide)⟩

end DescriptorSet

namespace DeviceDescription

/-- An interface with one endpoint, the OUT endpoint with number 0. -/
def zeroOut : DeviceDescription where
  interfaces := [⟨⟨1, 0xFF, 0, 0, ""⟩, [.standard .output 0 .bulk 64 0]⟩]

theorem usable_zeroOut : zeroOut.Usable where
  ids := by decide
  endpoints i hi e he := by
    rw [List.mem_singleton.1 hi] at he
    rw [List.mem_singleton.1 he]
    exact EndpointDescription.usable_standard (by decide)
  room := by decide
  vendor := by decide +kernel
  product := by decide +kernel
  serial := nofun
  names := by decide +kernel

end DeviceDescription

namespace DescriptorSet

/-- The OUT endpoint with number 0 is sent, but the record of its interface announces none. -/
theorem not_countsEndpoints_zeroOut :
    DeviceDescription.zeroOut.checked = .ok DeviceDescription.zeroOut.configuration ∧
      assemble DeviceDescription.zeroOut.configuration =
        .ok DeviceDescription.zeroOut.configuration.descriptors ∧
      ¬DeviceDescription.zeroOut.configuration.descriptors.CountsEndpoints := by
  have husable := DeviceDescription.usable_zeroOut
  refine ⟨husable.checked, husable.assemble, ?_⟩
  rintro ⟨records, control, callers, hread, htallies, -, hcounts⟩
  rw [Configuration.readAll_descriptors, Option.some.injEq] at hread
  have hcallers : callers.map (fun tally => (tally.1.endpoints, tally.2)) = [(0, 1)] := by
    have htail : callers = _ := (congrArg List.tail htallies).symm
    rw [htail, ← hread]
    decide +kernel
  obtain ⟨tally, rest, rfl, htally, -⟩ := List.map_eq_cons_iff.1 hcallers
  obtain ⟨hannounced, hfollowing⟩ := Prod.mk.inj htally
  have hequal := hcounts tally List.mem_cons_self
  rw [hannounced, hfollowing] at hequal
  exact absurd hequal (by decide)

end DescriptorSet

end UsbGadget
