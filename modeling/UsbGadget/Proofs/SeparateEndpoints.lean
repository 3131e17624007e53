import Mathlib.Data.List.Nodup
import UsbGadget.Proofs.Acceptance
import UsbGadget.Proofs.ControlEndpoint

/-!
# Endpoints that share nothing

The endpoints of a description are separate (`DeviceDescription.Separate`) if no two of them have
the same address or the same packet buffer, but for the two halves of endpoint 0, and each has the
registers that the chip has for its address.

* `Session.made_ofDescription` and `Session.realizes_ofDescription`: the endpoints of a session are
  those of its description, one by one; `Session.serves_of_same` says so of every later state;
* `Session.separate_ofDescription`: so they are separate if those of the description are.
-/

namespace UsbGadget

/-! ### The endpoints of a session, one by one -/

/-- What an endpoint of a session has from its description. -/
structure Endpoint.Realizes (e₀ : EndpointDescription) (e : Endpoint) : Prop where
  /-- The address. -/
  address : e.address = e₀.address
  /-- The buffer control register. -/
  bufferControl : e.bufferControl = e₀.bufferControl
  /-- The packet buffer. -/
  bufferOffset : e₀.dataBuffer.Slot e.bufferOffset

theorem Endpoint.realizes_of_ofDescription {interface : UInt8} {e₀ : EndpointDescription}
    {e : Endpoint} (h : ofDescription interface e₀.tidied = .ok e) : Realizes e₀ e := by
  obtain ⟨offset, hoffset, rfl⟩ := ofDescription_eq_ok.1 h
  have hslot := EndpointDescription.bufferOffset_eq_ok_iff.1 hoffset
  exact ⟨rfl, rfl, hslot⟩

/-- The endpoints that a description names, the two halves of endpoint 0 first. -/
def DeviceDescription.endpoints (d : DeviceDescription) : List EndpointDescription :=
  (InterfaceDescription.control :: d.interfaces).flatMap (·.endpoints)

/-- The same endpoints, each with the number of its interface. -/
def DeviceDescription.numbered (d : DeviceDescription) : List (UInt8 × EndpointDescription) :=
  (InterfaceDescription.control :: d.interfaces).flatMap fun i => i.endpoints.map (i.id, ·)

theorem DeviceDescription.map_numbered (d : DeviceDescription) :
    d.numbered.map Prod.snd = d.endpoints := by
  simp only [numbered, endpoints, List.map_flatMap, List.map_map, Function.comp_def, List.map_id']

/-- Each endpoint of a session is made of the one in its place in the description. -/
theorem Session.made_ofDescription {description : DeviceDescription} {s : Session}
    (h : ofDescription description = .ok s) :
    List.Forall₂ (fun p e => Endpoint.ofDescription p.1 p.2.tidied = .ok e) description.numbered
      s.endpoints := by
  obtain ⟨c, set, endpoints, hc, -, hendpoints, rfl⟩ := ofDescription_eq_ok.1 h
  obtain ⟨-, -, -, -, rfl⟩ := DeviceDescription.checked_eq_ok_iff.1 hc
  obtain ⟨groups, hgroups, hflatten⟩ := bind_eq_ok.1 hendpoints
  obtain rfl : groups.flatten = endpoints := Except.ok.inj hflatten
  -- interface by interface, the endpoints are made of those in its range
  have hmade : List.Forall₂ (List.Forall₂ fun p e => Endpoint.ofDescription p.1 p.2 = .ok e)
      (description.configuration.interfaces.map fun i =>
        (description.configuration.endpointsOf i).map (i.id, ·)) groups := by
    rw [List.forall₂_map_left_iff]
    refine (mapM_eq_ok.1 hgroups).imp ?_
    intro i group hgroup
    rw [List.forall₂_map_left_iff]
    exact mapM_eq_ok.1 hgroup
  have hall := List.rel_flatten hmade
  have hflat : (description.configuration.interfaces.map fun i =>
      (description.configuration.endpointsOf i).map (i.id, ·)).flatten =
        description.numbered.map fun p => (p.1, p.2.tidied) := by
    rw [description.map_endpointsOf fun info es => es.map (info.id, ·), DeviceDescription.numbered,
      List.map_flatMap, List.flatMap_def]
    simp only [List.map_map, Function.comp_def]
  rw [hflat, List.forall₂_map_left_iff] at hall
  exact hall

theorem Session.nextPid_of_mem {description : DeviceDescription} {s : Session}
    (h : ofDescription description = .ok s) {e : Endpoint} (he : e ∈ s.endpoints) :
    e.nextPid = .data0 := by
  obtain ⟨p, -, hmade⟩ := exists_of_forall₂_of_mem (made_ofDescription h) he
  obtain ⟨offset, -, rfl⟩ := Endpoint.ofDescription_eq_ok.1 hmade
  rfl

/-- The endpoints of a session are those of its description. -/
theorem Session.realizes_ofDescription {description : DeviceDescription} {s : Session}
    (h : ofDescription description = .ok s) :
    List.Forall₂ Endpoint.Realizes description.endpoints s.endpoints := by
  rw [← description.map_numbered, List.forall₂_map_left_iff]
  exact (made_ofDescription h).imp fun _ _ => Endpoint.realizes_of_ofDescription

/-- What an endpoint of a session has from its description and its interface, whatever the
identifier of its next packet. -/
structure Endpoint.Serves (id : UInt8) (e₀ : EndpointDescription) (e : Endpoint) : Prop
    extends Realizes e₀ e where
  /-- The interface. -/
  interface : e.interface = id
  /-- The largest packet is of a legal size. -/
  maxPacketSize : e.maxPacketSize = (legalPacketSize e₀.maxPacketSize).toNat
  /-- Who is told when a packet is done. -/
  owner : e.owner = ownerOf id e₀
  /-- The endpoint control register. -/
  endpointControl : e.endpointControl = e₀.endpointControl

theorem Endpoint.serves_of_ofDescription {interface : UInt8} {e₀ : EndpointDescription}
    {e e' : Endpoint} (h : ofDescription interface e₀.tidied = .ok e) (he' : e'.fixed = e.fixed) :
    Serves interface e₀ e' := by
  have hrealizes := realizes_of_ofDescription h
  obtain ⟨offset, -, rfl⟩ := ofDescription_eq_ok.1 h
  rw [eq_of_fixed he']
  exact ⟨⟨hrealizes.address, hrealizes.bufferControl, hrealizes.bufferOffset⟩, rfl, rfl, rfl, rfl⟩

/-- At any time the endpoints of a session are those of its description, one by one. -/
theorem Session.serves_of_same {description : DeviceDescription} {s₀ s : Session}
    (h : ofDescription description = .ok s₀) (hsame : s₀.Same s) :
    List.Forall₂ (fun p e => Endpoint.Serves p.1 p.2 e) description.numbered s.endpoints := by
  have hfirst : List.Forall₂ (fun p e => ∀ e', e'.fixed = e → Endpoint.Serves p.1 p.2 e')
      description.numbered (s₀.endpoints.map Endpoint.fixed) := by
    rw [List.forall₂_map_right_iff]
    exact (made_ofDescription h).imp fun _ _ hmade _ =>
      Endpoint.serves_of_ofDescription hmade
  rw [← hsame.endpoints, List.forall₂_map_right_iff] at hfirst
  exact hfirst.imp fun _ _ hserves => hserves _ rfl

/-- Searches that agree on related elements find related elements. -/
theorem rel_find? {α β : Type} {R : α → β → Prop} {p : α → Bool} {q : β → Bool}
    (hpq : ∀ a b, R a b → p a = q b) {l : List α} {l' : List β} (h : List.Forall₂ R l l') :
    Option.Rel R (l.find? p) (l'.find? q) := by
  induction h with
  | nil => exact .none
  | @cons a b _ _ hr _ ih =>
    rw [List.find?_cons, List.find?_cons, ← hpq a b hr]
    cases p a with
    | true => exact .some hr
    | false => exact ih

/-! ### Separate endpoints -/

/-- The endpoints of a description share nothing: neither addresses nor, but for the two halves of
endpoint 0, buffers, and they have the registers of their addresses. -/
structure DeviceDescription.Separate (d : DeviceDescription) : Prop where
  /-- The addresses. -/
  addresses : (d.endpoints.map EndpointDescription.address).Nodup
  /-- The registers. -/
  registers : ∀ e ∈ d.endpoints, e.bufferControl = Dpram.bufferControlIndex e.number e.direction ∧
    e.endpointControl = Dpram.endpointControlIndex e.number e.direction
  /-- The packet buffers, of which endpoint 0 has one. -/
  buffers : ((d.endpoints.drop 1).map EndpointDescription.dataBuffer).Nodup

/-- The endpoints of a session share nothing. -/
structure Session.Separate (s : Session) : Prop where
  /-- The addresses. -/
  addresses : (s.endpoints.map Endpoint.address).Nodup
  /-- The buffer control registers. -/
  registers : ∀ e ∈ s.endpoints, e.address = Event.bufferAddress e.bufferControl
  /-- The packet buffers, of which endpoint 0 has one. -/
  buffers : ((s.endpoints.drop 1).map Endpoint.bufferOffset).Nodup

theorem Event.bufferAddress_bufferControlIndex (number : UInt8) (d : Direction) :
    bufferAddress (Dpram.bufferControlIndex number d) = d.address number := by
  have hplace := d.place_le
  have hhalf : Dpram.bufferControlIndex number d / 2 = number.toNat % 16 := by
    rw [Dpram.bufferControlIndex]
    omega
  have hnumber : (UInt8.ofNat (number.toNat % 16)).toNat % 16 = number.toNat % 16 := by
    rw [UInt8.toNat_ofNat']
    omega
  rw [bufferAddress, hhalf, Direction.address, hnumber, Dpram.bufferControlIndex,
    Direction.ofIndex_place, Direction.address]

theorem map_eq_of_forall₂ {α β γ : Type} {R : α → β → Prop} {f : α → γ} {g : β → γ}
    (hR : ∀ a b, R a b → g b = f a) {l : List α} {l' : List β} (h : List.Forall₂ R l l') :
    l'.map g = l.map f := by
  induction h with
  | nil => rfl
  | cons hr _ ih => rw [List.map_cons, List.map_cons, hR _ _ hr, ih]

/-- A session of separate endpoints comes of a description of separate endpoints. -/
theorem Session.separate_ofDescription {description : DeviceDescription} {s : Session}
    (h : ofDescription description = .ok s) (hd : description.Separate) : s.Separate := by
  have hall := realizes_ofDescription h
  refine ⟨?_, ?_, ?_⟩
  · rw [map_eq_of_forall₂ (fun _ _ he => he.address) hall]
    exact hd.addresses
  · intro e he
    obtain ⟨e₀, he₀, hrealizes⟩ := exists_of_forall₂_of_mem hall he
    rw [hrealizes.address, hrealizes.bufferControl, (hd.registers e₀ he₀).1,
      Event.bufferAddress_bufferControlIndex]
    rfl
  · -- two offsets from one base differ as the addresses do
    have hoffsets : ((s.endpoints.drop 1).map fun e => Dpram.base.toNat + e.bufferOffset) =
        (description.endpoints.drop 1).map fun e₀ => e₀.dataBuffer.raw.toNat :=
      map_eq_of_forall₂ (fun _ _ he => he.bufferOffset.address.symm) (List.forall₂_drop 1 hall)
    have hraw : Function.Injective fun a : BufferAddress => a.raw.toNat := by
      rintro ⟨a⟩ ⟨b⟩ hab
      exact congrArg BufferAddress.mk (UInt32.toNat_inj.1 hab)
    have hnodup := List.Nodup.map hraw hd.buffers
    rw [List.map_map, show (fun a : BufferAddress => a.raw.toNat) ∘ EndpointDescription.dataBuffer =
      fun e₀ => e₀.dataBuffer.raw.toNat from rfl, ← hoffsets] at hnodup
    refine List.Nodup.of_map (Dpram.base.toNat + ·) ?_
    rwa [List.map_map]

end UsbGadget
