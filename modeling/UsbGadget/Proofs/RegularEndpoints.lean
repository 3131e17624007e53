import UsbGadget.Proofs.Toggles

/-!
# Endpoints that their addresses tell apart

The registers of an endpoint follow from its number and its direction, which are all that there is
to its address. The endpoints of a description are regular (`DeviceDescription.Regular`) if each
has the registers of its address and no two have the same address; where their packet buffers are
does not matter.

* `Session.exists_mem_of_has` and `Session.exists_has_of_mem`: a session has the endpoints that are
  described and no others;
* `Session.regular_of_same`: the endpoints of a session are regular if those of its description are;
* `Session.Regular.submit_eq` and `Session.submit_of_forall_not`: what a session makes of a packet
  then, which is found by its address alone.
-/

namespace UsbGadget

/-! ### Registers that follow from an address -/

namespace Dpram

theorem toNat_address_mod (d : Direction) (number : UInt8) :
    (d.address number).toNat % 16 = number.toNat % 16 := by
  have hlt : number.toNat % 16 + d.bit < 256 := by
    have hd : d.bit ≤ 128 := by cases d <;> decide
    omega
  rw [Direction.address, UInt8.toNat_ofNat_of_lt' hlt]
  cases d <;> simp only [Direction.bit] <;> omega

theorem bufferControlIndex_address (number : UInt8) (d d' : Direction) :
    bufferControlIndex (d.address number) d' = bufferControlIndex number d' := by
  rw [bufferControlIndex, toNat_address_mod, bufferControlIndex]

theorem endpointControlIndex_address (number : UInt8) (d d' : Direction) :
    endpointControlIndex (d.address number) d' = endpointControlIndex number d' := by
  rw [endpointControlIndex, toNat_address_mod, endpointControlIndex]

theorem bufferControlIndex_inj {n n' : UInt8} {d d' : Direction}
    (h : bufferControlIndex n d = bufferControlIndex n' d') :
    n.toNat % 16 = n'.toNat % 16 ∧ d = d' := by
  simp only [bufferControlIndex] at h
  cases d <;> cases d' <;> simp only [Direction.place] at h <;>
    first | exact ⟨by omega, rfl⟩ | omega

/-- The two registers of an endpoint stand in the same order, but for the pair of endpoint 0. -/
theorem bufferControlIndex_of_endpointControlIndex {n : UInt8} {d : Direction} {k : Nat}
    (h : endpointControlIndex n d = some k) : bufferControlIndex n d = k + 2 := by
  unfold endpointControlIndex at h
  split_ifs at h with hzero
  rw [← Option.some.inj h, bufferControlIndex]
  omega

end Dpram

/-! ### The endpoints of an interface -/

/-- An interface with this number has this endpoint; interface 0 has the two halves of endpoint 0.
-/
def DeviceDescription.Has (d : DeviceDescription) (interface : UInt8) (e : EndpointDescription) :
    Prop :=
  ∃ i ∈ InterfaceDescription.control :: d.interfaces, i.id = interface ∧ e ∈ i.endpoints

theorem DeviceDescription.mem_numbered {d : DeviceDescription} {interface : UInt8}
    {e : EndpointDescription} : (interface, e) ∈ d.numbered ↔ d.Has interface e := by
  simp only [numbered, Has, List.mem_flatMap, List.mem_map, Prod.mk.injEq]
  constructor
  · rintro ⟨i, hi, e', he', rfl, rfl⟩
    exact ⟨i, hi, rfl, he'⟩
  · rintro ⟨i, hi, rfl, he⟩
    exact ⟨i, hi, e, he, rfl, rfl⟩

theorem DeviceDescription.Has.mem {d : DeviceDescription} {interface : UInt8}
    {e : EndpointDescription} (h : d.Has interface e) : e ∈ d.endpoints := by
  rw [← d.map_numbered]
  exact List.mem_map_of_mem (mem_numbered.2 h)

namespace Session

variable {description : DeviceDescription} {s₀ s : Session}

/-- A session has every endpoint that is described. -/
theorem exists_mem_of_has (h : ofDescription description = .ok s₀) (hsame : s₀.Same s)
    {interface : UInt8} {e₀ : EndpointDescription} (he₀ : description.Has interface e₀) :
    ∃ e ∈ s.endpoints, e.Serves interface e₀ := by
  have hmem := DeviceDescription.mem_numbered.2 he₀
  exact exists_of_forall₂_of_mem_left (a := (interface, e₀)) (serves_of_same h hsame) hmem

/-- A session has no other endpoints. -/
theorem exists_has_of_mem (h : ofDescription description = .ok s₀) (hsame : s₀.Same s)
    {e : Endpoint} (he : e ∈ s.endpoints) :
    ∃ e₀, description.Has e.interface e₀ ∧ e.Serves e.interface e₀ := by
  obtain ⟨⟨interface, e₀⟩, hmem, hserves⟩ := exists_of_forall₂_of_mem (serves_of_same h hsame) he
  obtain rfl : e.interface = interface := hserves.interface
  exact ⟨e₀, DeviceDescription.mem_numbered.1 hmem, hserves⟩

end Session

/-! ### Regular descriptions -/

/-- The endpoints of a caller have numbers other than 0, the registers that the chip has for their
numbers and directions, and addresses of their own. Their buffers may be anywhere. -/
structure DeviceDescription.Regular (d : DeviceDescription) : Prop where
  /-- The numbers. -/
  number : ∀ e ∈ d.interfaces.flatMap (·.endpoints), 1 ≤ e.number.toNat ∧ e.number.toNat ≤ 15
  /-- The registers. -/
  registers : ∀ e ∈ d.interfaces.flatMap (·.endpoints),
    e.bufferControl = Dpram.bufferControlIndex e.number e.direction ∧
      e.endpointControl = Dpram.endpointControlIndex e.number e.direction
  /-- The addresses. -/
  addresses : ((d.interfaces.flatMap (·.endpoints)).map EndpointDescription.address).Nodup

namespace DeviceDescription.Regular

variable {d : DeviceDescription} {e : EndpointDescription}

theorem endpoints_eq (d : DeviceDescription) :
    d.endpoints = .control .input :: .control .output :: d.interfaces.flatMap (·.endpoints) := rfl

theorem registers_of_mem (h : d.Regular) (he : e ∈ d.endpoints) :
    e.bufferControl = Dpram.bufferControlIndex e.number e.direction ∧
      e.endpointControl = Dpram.endpointControlIndex e.number e.direction := by
  rw [endpoints_eq, List.mem_cons, List.mem_cons] at he
  rcases he with rfl | rfl | he
  · exact ⟨rfl, rfl⟩
  · exact ⟨rfl, rfl⟩
  · exact h.registers e he

theorem nodup_addresses (h : d.Regular) : (d.endpoints.map EndpointDescription.address).Nodup := by
  have hother (direction : Direction) :
      direction.address 0 ∉
        (d.interfaces.flatMap (·.endpoints)).map EndpointDescription.address := by
    rintro hmem
    obtain ⟨e, he, haddress⟩ := List.mem_map.1 hmem
    have hnumber := h.number e he
    have hmod := congrArg (·.toNat % 16) haddress
    simp only [EndpointDescription.address, Dpram.toNat_address_mod] at hmod
    have hzero : (0 : UInt8).toNat = 0 := rfl
    omega
  rw [endpoints_eq, List.map_cons, List.map_cons, List.nodup_cons, List.nodup_cons]
  refine ⟨?_, hother .output, h.addresses⟩
  rw [List.mem_cons, not_or]
  exact ⟨by decide, hother .input⟩

/-- Only endpoint 0 has no endpoint control register, and it has a buffer of its own. -/
theorem dataBuffer_of_none (h : d.Regular) (he : e ∈ d.endpoints)
    (hnone : e.endpointControl = none) : e.dataBuffer = Dpram.ep0BufferAddress := by
  have hregister := (h.registers_of_mem he).2.symm.trans hnone
  rw [endpoints_eq, List.mem_cons, List.mem_cons] at he
  rcases he with rfl | rfl | he
  · rfl
  · rfl
  · have hnumber := h.number e he
    unfold Dpram.endpointControlIndex at hregister
    split_ifs at hregister with hzero
    omega

end DeviceDescription.Regular

theorem DeviceDescription.regular_echo : Echo.device.Regular where
  number := by decide
  registers := by decide
  addresses := by decide

namespace Session

/-- The endpoints of a session have addresses of their own, and the registers that go with these. -/
structure Regular (s : Session) : Prop where
  /-- The addresses. -/
  addresses : (s.endpoints.map Endpoint.address).Nodup
  /-- The number and the direction are all that there is to an address. -/
  address : ∀ e ∈ s.endpoints, e.address = Event.bufferAddress e.bufferControl
  /-- The buffer control registers. -/
  bufferControl : ∀ e ∈ s.endpoints,
    e.bufferControl = Dpram.bufferControlIndex e.address e.direction
  /-- The endpoint control registers. -/
  endpointControl : ∀ e ∈ s.endpoints,
    e.endpointControl = Dpram.endpointControlIndex e.address e.direction
  /-- Where there is none the buffer is that of endpoint 0. -/
  bufferOffset : ∀ e ∈ s.endpoints, e.endpointControl = none → e.bufferOffset = Dpram.ep0Buffer

variable {description : DeviceDescription} {s₀ s s' : Session}

theorem regular_of_same (h : ofDescription description = .ok s₀) (hsame : s₀.Same s)
    (hd : description.Regular) : s.Regular := by
  -- each endpoint is that of a description with the registers of its address
  have hmem : ∀ e ∈ s.endpoints, ∃ e₀ ∈ description.endpoints,
      e.Serves e.interface e₀ ∧ e.direction = e₀.direction := by
    intro e he
    obtain ⟨e₀, hhas, hserves⟩ := exists_has_of_mem h hsame he
    refine ⟨e₀, hhas.mem, hserves, ?_⟩
    rw [Endpoint.direction, hserves.address, EndpointDescription.address, Direction.ofByte_address]
  constructor
  · have hmap : s.endpoints.map Endpoint.address =
        description.numbered.map fun p => p.2.address :=
      map_eq_of_forall₂ (fun _ _ he => he.address) (serves_of_same h hsame)
    rw [hmap, ← Function.comp_def EndpointDescription.address Prod.snd, ← List.map_map,
      description.map_numbered]
    exact hd.nodup_addresses
  · intro e he
    obtain ⟨e₀, he₀, hserves, -⟩ := hmem e he
    rw [hserves.address, hserves.bufferControl, (hd.registers_of_mem he₀).1,
      Event.bufferAddress_bufferControlIndex, EndpointDescription.address]
  · intro e he
    obtain ⟨e₀, he₀, hserves, hdirection⟩ := hmem e he
    rw [hserves.bufferControl, (hd.registers_of_mem he₀).1, hserves.address, hdirection,
      EndpointDescription.address, Dpram.bufferControlIndex_address]
  · intro e he
    obtain ⟨e₀, he₀, hserves, hdirection⟩ := hmem e he
    rw [hserves.endpointControl, (hd.registers_of_mem he₀).2, hserves.address, hdirection,
      EndpointDescription.address, Dpram.endpointControlIndex_address]
  · intro e he hnone
    obtain ⟨e₀, he₀, hserves, -⟩ := hmem e he
    have haddress := hserves.bufferOffset.address
    rw [hd.dataBuffer_of_none he₀ (hserves.endpointControl.symm.trans hnone)] at haddress
    have hbase : Dpram.ep0BufferAddress.raw.toNat = Dpram.base.toNat + Dpram.ep0Buffer := rfl
    omega

namespace Regular

variable {e e' : Endpoint}

theorem eq_of_address (h : s.Regular) (he : e ∈ s.endpoints) (he' : e' ∈ s.endpoints)
    (haddress : e'.address = e.address) : e' = e :=
  List.inj_on_of_nodup_map h.addresses he' he haddress

theorem eq_of_endpointControl (h : s.Regular) (he : e ∈ s.endpoints) (he' : e' ∈ s.endpoints)
    {k : Nat} (hk : e.endpointControl = some k) (hk' : e'.endpointControl = some k) : e' = e := by
  have hindex := Dpram.bufferControlIndex_of_endpointControlIndex
    ((h.endpointControl e he).symm.trans hk)
  have hindex' := Dpram.bufferControlIndex_of_endpointControlIndex
    ((h.endpointControl e' he').symm.trans hk')
  refine h.eq_of_address he he' ?_
  rw [h.address e he, h.address e' he', h.bufferControl e he, h.bufferControl e' he', hindex,
    hindex']

/-- An endpoint is the one that is found by its interface and its address. -/
theorem exists_position? (h : s.Regular) (he : e ∈ s.endpoints) :
    ∃ i, s.position? e.interface e.address = some i ∧ s.endpoints[i]? = some e := by
  cases hposition : s.position? e.interface e.address with
  | none =>
    have hnot := List.findIdx?_eq_none_iff.1 hposition e he
    simp at hnot
  | some i =>
    obtain ⟨e', he', -, haddress⟩ := of_position? hposition
    rw [h.eq_of_address he (List.mem_of_getElem? he') haddress] at he'
    exact ⟨i, rfl, he'⟩

theorem nextPid_eq (h : s.Regular) (he : e ∈ s.endpoints) :
    s.nextPid e.interface e.address = e.nextPid := by
  obtain ⟨i, hposition, hi⟩ := h.exists_position? he
  rw [nextPid, endpoint?_of_position? hposition, hi]
  rfl

theorem set_eq_map (h : s.Regular) {i : Nat} (hi : s.endpoints[i]? = some e)
    (f : Endpoint → Endpoint) :
    s.endpoints.set i (f e) =
      s.endpoints.map fun e' => if e'.address = e.address then f e' else e' := by
  have hlt : i < s.endpoints.length := (List.getElem?_eq_some_iff.1 hi).1
  have haddress : (s.endpoints.map Endpoint.address)[i]? = some e.address := by
    rw [List.getElem?_map, hi, Option.map_some]
  apply List.ext_getElem?
  intro j
  rw [List.getElem?_set, List.getElem?_map]
  by_cases hij : i = j
  · subst hij
    rw [if_pos rfl, if_pos hlt, hi, Option.map_some, if_pos rfl]
  · rw [if_neg hij]
    cases hj : s.endpoints[j]? with
    | none => rfl
    | some e' =>
      -- at another position there is another address
      have hne : e'.address ≠ e.address := by
        intro heq
        refine hij ((List.getElem?_inj (by rwa [List.length_map]) h.addresses).1 ?_)
        rw [haddress, List.getElem?_map, hj, Option.map_some, heq]
      rw [Option.map_some, if_neg hne]

/-- A packet of an endpoint is taken and handed over. -/
theorem submit_eq (h : s.Regular) (he : e ∈ s.endpoints) (data : List UInt8) :
    s.submit e.interface e.address data =
      ({ s with endpoints :=
          s.endpoints.map fun e' => if e'.address = e.address then e'.advance else e' },
        [.arm e (e.clip data)], true) := by
  obtain ⟨i, hposition, hi⟩ := h.exists_position? he
  simp only [submit, hposition, arm, hi]
  rw [h.set_eq_map hi]

end Regular

/-- A packet of no endpoint is not taken. -/
theorem submit_of_forall_not {interface address : UInt8}
    (h : ∀ e ∈ s.endpoints, ¬(e.interface = interface ∧ e.address = address)) (data : List UInt8) :
    s.submit interface address data = (s, [], false) := by
  have hposition : s.position? interface address = none := by
    rw [position?, List.findIdx?_eq_none_iff]
    intro e he
    rw [← Bool.not_eq_true, Bool.and_eq_true, beq_iff_eq, beq_iff_eq]
    exact h e he
  rw [submit, hposition]

end Session

end UsbGadget
