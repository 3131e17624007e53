import Mathlib.Tactic.Common
import UsbGadget.Engine.Session
import UsbGadget.Proofs.Fallible
import UsbGadget.Proofs.PacketMemory

/-!
# Sessions of accepted descriptions

What a description has to be for a session to come of it, and what the session is then like.

* `DeviceDescription.checked_eq_ok`, `DescriptorSet.assemble_eq_ok` and
  `Session.ofDescription_eq_ok` take the checks apart;
* `Session.Sound` is what all that follows needs to know about a session: endpoint 0 comes first,
  every other endpoint is in order (`Endpoint.OfCaller`), and every descriptor fits in a packet;
* `Session.sound_of_ofDescription` is the main statement.
-/

namespace UsbGadget

/-! ### Single checks -/

theorem legalPacketSize_toNat_le (size : UInt16) : (legalPacketSize size).toNat ≤ 64 := by
  unfold legalPacketSize
  split_ifs <;> decide

namespace EndpointDescription

theorem bufferOffset_eq_ok {e : EndpointDescription} {offset : Nat} :
    e.bufferOffset = .ok offset ↔ e.dataBuffer.offset Dpram.base = some offset ∧
      Dpram.ep0Buffer ≤ offset ∧ offset + (legalPacketSize e.maxPacketSize).toNat ≤ Dpram.size ∧
      offset % Dpram.bufferSize = 0 := by
  unfold bufferOffset
  cases he : e.dataBuffer.offset Dpram.base with
  | none => simp
  | some o =>
    simp only [Option.some.injEq]
    rw [if_error_eq_ok, if_error_eq_ok, Except.ok.injEq, not_not, not_or, Nat.not_lt, Nat.not_lt]
    constructor
    · rintro ⟨⟨hle, hend⟩, halign, rfl⟩
      exact ⟨rfl, hle, hend, halign⟩
    · rintro ⟨rfl, hle, hend, halign⟩
      exact ⟨⟨hle, hend⟩, halign, rfl⟩

theorem checked_eq_ok {e e' : EndpointDescription} :
    e.checked = .ok e' ↔ (∃ offset, e.bufferOffset = .ok offset) ∧ e.registersExist = true ∧
      e' = { e with maxPacketSize := legalPacketSize e.maxPacketSize } := by
  unfold checked
  rw [bind_eq_ok]
  constructor
  · rintro ⟨o, ho, h⟩
    exact ⟨⟨o, ho⟩, if_ok_eq_ok.1 h⟩
  · rintro ⟨⟨o, ho⟩, h⟩
    exact ⟨o, ho, if_ok_eq_ok.2 h⟩

/-- The endpoint came out of its check. -/
def Legal (e : EndpointDescription) : Prop := ∃ e₀ : EndpointDescription, e₀.checked = .ok e

theorem Legal.packet {e : EndpointDescription} (h : e.Legal) : e.maxPacketSize.toNat ≤ 64 := by
  obtain ⟨e₀, h⟩ := h
  obtain ⟨-, -, rfl⟩ := checked_eq_ok.1 h
  exact legalPacketSize_toNat_le _

theorem Legal.registersExist {e : EndpointDescription} (h : e.Legal) :
    e.registersExist = true := by
  obtain ⟨e₀, h⟩ := h
  obtain ⟨-, hr, rfl⟩ := checked_eq_ok.1 h
  exact hr

theorem legal_control (d : Direction) : (control d).Legal :=
  ⟨control d, by cases d <;> rfl⟩

end EndpointDescription

/-! ### The check of a device -/

namespace Tables

theorem addEndpoint_eq_ok {t t' : Tables} {e : EndpointDescription} :
    t.addEndpoint e = .ok t' ↔ ∃ e', e.checked = .ok e' ∧ t.endpoints.length < maxEndpoints ∧
      t' = { t with endpoints := t.endpoints ++ [e'] } := by
  unfold addEndpoint
  rw [bind_eq_ok]
  apply exists_congr
  intro e'
  apply and_congr_right
  intro _
  exact if_ok_eq_ok

theorem addInterface_eq_ok {t t' : Tables} {i : InterfaceDescription} :
    t.addInterface i = .ok t' ↔ ∃ t₁ : Tables,
      (i.endpoints.take listLimit).foldlM addEndpoint t = .ok t₁ ∧
      t₁.interfaces.length < maxInterfaces ∧
      t' = { t₁ with interfaces := t₁.interfaces ++
        [⟨i.toInterfaceInfo, t.endpoints.length, t₁.endpoints.length⟩] } := by
  unfold addInterface
  rw [bind_eq_ok]
  apply exists_congr
  intro t₁
  apply and_congr_right
  intro _
  exact if_ok_eq_ok

end Tables

theorem DeviceDescription.checked_eq_ok {d : DeviceDescription} {c : Configuration} :
    d.checked = .ok c ↔ (∀ i ∈ d.interfaces.take listLimit, i.id ≠ 0) ∧ ∃ t : Tables,
      (InterfaceDescription.control :: d.interfaces.take listLimit).foldlM
        Tables.addInterface {} = .ok t ∧
      c = ⟨d.toDeviceInfo.tidy, t.interfaces, t.endpoints⟩ := by
  unfold checked
  refine if_error_eq_ok.trans (and_congr ?_ ?_)
  · simp
  · rw [bind_eq_ok]
    apply exists_congr
    intro t
    apply and_congr_right
    intro _
    exact ⟨fun h => (Except.ok.inj h).symm, fun h => congrArg Except.ok h.symm⟩

/-- The interface of the control endpoint, in a configuration. -/
def Interface.control : Interface := ⟨InterfaceDescription.control.toInterfaceInfo, 0, 2⟩

/-- The control interface comes first and its number is its own; all endpoints are legal, and
first among them are those of the control endpoint. -/
structure Tables.Orderly (t : Tables) : Prop where
  /-- The interfaces. -/
  interfaces : ∃ rest, t.interfaces = .control :: rest ∧ ∀ i ∈ rest, i.id ≠ 0
  /-- The endpoints. -/
  endpoints : ∃ rest, t.endpoints = .control .input :: .control .output :: rest
  /-- The endpoints came out of their check. -/
  legal : ∀ e ∈ t.endpoints, e.Legal

namespace Tables

theorem Orderly.addEndpoint {t t' : Tables} {e : EndpointDescription} (ht : t.Orderly)
    (h : t.addEndpoint e = .ok t') : t'.Orderly := by
  obtain ⟨e', he, -, rfl⟩ := addEndpoint_eq_ok.1 h
  obtain ⟨rest, hrest⟩ := ht.endpoints
  refine ⟨ht.interfaces, ⟨rest ++ [e'], by simp [hrest]⟩, ?_⟩
  intro x hx
  rcases List.mem_append.1 hx with hx | hx
  · exact ht.legal x hx
  · rw [List.mem_singleton.1 hx]
    exact ⟨e, he⟩

theorem Orderly.addInterface {t t' : Tables} {i : InterfaceDescription} (hi : i.id ≠ 0)
    (ht : t.Orderly) (h : t.addInterface i = .ok t') : t'.Orderly := by
  obtain ⟨t₁, ht₁, -, rfl⟩ := addInterface_eq_ok.1 h
  have hto : t₁.Orderly := foldlM_preserves (fun _ _ _ _ hc h => hc.addEndpoint h) ht ht₁
  obtain ⟨rest, hrest, hids⟩ := hto.interfaces
  refine ⟨⟨rest ++ [_], by rw [hrest]; rfl, ?_⟩, hto.endpoints, hto.legal⟩
  intro j hj
  rcases List.mem_append.1 hj with hj | hj
  · exact hids j hj
  · rw [List.mem_singleton.1 hj]
    exact hi

theorem addInterface_control :
    Tables.addInterface {} .control =
      .ok ⟨[.control], [.control .input, .control .output]⟩ := rfl

theorem orderly_control : (⟨[.control], [.control .input, .control .output]⟩ : Tables).Orderly where
  interfaces := ⟨[], rfl, nofun⟩
  endpoints := ⟨[], rfl⟩
  legal e he := by
    simp only [List.mem_cons, List.not_mem_nil, or_false] at he
    rcases he with rfl | rfl <;> exact EndpointDescription.legal_control _

theorem orderly_of_foldlM {callers : List InterfaceDescription} {t : Tables}
    (hids : ∀ i ∈ callers, i.id ≠ 0)
    (h : (InterfaceDescription.control :: callers).foldlM Tables.addInterface {} = .ok t) :
    t.Orderly := by
  -- the tables are orderly once the control interface is in, and stay so
  rw [List.foldlM_cons, addInterface_control, bind_eq_ok] at h
  obtain ⟨t₀, h₀, h⟩ := h
  cases h₀
  exact foldlM_preserves (fun _ i _ hi hc h => hc.addInterface (hids i hi) h) orderly_control h

end Tables

/-! ### The endpoints of a session -/

namespace Endpoint

/-- One direction of the control endpoint, with the identifier of its next packet. -/
def ofControl (d : Direction) (pid : Pid) : Endpoint where
  interface := 0
  address := d.address 0
  maxPacketSize := 64
  owner := .control
  nextPid := pid
  transfer := .control
  bufferOffset := Dpram.ep0Buffer
  bufferControl := Dpram.bufferControlIndex 0 d
  endpointControl := none

theorem placed_ofControl (d : Direction) (pid : Pid) : (ofControl d pid).Placed where
  bufferControl_lt := show Dpram.bufferControlIndex 0 d < 32 by cases d <;> decide
  le_bufferOffset := Nat.le_refl _
  bufferOffset_add_le := show 0x100 + 64 ≤ 4096 by decide
  aligned := show 0x100 % 64 = 0 by decide
  maxPacketSize_le := Nat.le_refl _

/-- What the checks promise about a caller's endpoint. -/
structure OfCaller (e : Endpoint) : Prop extends Placed e where
  /-- It belongs to the caller. -/
  owner : ∃ handler, e.owner = .caller handler
  /-- Its interface is not the control interface. -/
  interface : e.interface ≠ 0
  /-- Its endpoint control register exists. -/
  endpointControl_lt : ∀ i, e.endpointControl = some i → i < Dpram.endpointControls

theorem ofDescription_eq_ok {interface : UInt8} {e : EndpointDescription} {e' : Endpoint} :
    ofDescription interface e = .ok e' ↔ ∃ offset, e.bufferOffset = .ok offset ∧
      e' = ⟨interface, e.address, e.maxPacketSize.toNat, ownerOf interface e, .data0,
        e.attributes.transfer, offset, e.bufferControl, e.endpointControl⟩ := by
  rw [ofDescription, map_eq_ok]
  exact exists_congr fun _ => and_congr_right fun _ => eq_comm

theorem ofDescription_control (d : Direction) :
    ofDescription 0 (.control d) = .ok (ofControl d .data0) := by cases d <;> rfl

theorem ofCaller_of_ofDescription {interface : UInt8} {e : EndpointDescription} {e' : Endpoint}
    (hi : interface ≠ 0) (he : e.Legal) (h : ofDescription interface e = .ok e') :
    e'.OfCaller := by
  obtain ⟨offset, ho, rfl⟩ := ofDescription_eq_ok.1 h
  obtain ⟨-, hge, hle, hal⟩ := EndpointDescription.bufferOffset_eq_ok.1 ho
  -- a packet is never empty, so the whole slot that it starts in lies inside the memory
  have hpos : 8 ≤ (legalPacketSize e.maxPacketSize).toNat := by
    unfold legalPacketSize
    split_ifs <;> decide
  have hr := he.registersExist
  rw [EndpointDescription.registersExist, Bool.and_eq_true, decide_eq_true_eq] at hr
  simp only [Dpram.size, Dpram.bufferSize] at hle hal
  exact
    { owner := ⟨e.handler, if_neg fun h => hi h.1⟩
      interface := hi
      le_bufferOffset := hge
      bufferOffset_add_le := by
        simp only [Dpram.bufferSize, Dpram.size]
        omega
      aligned := hal
      maxPacketSize_le := he.packet
      bufferControl_lt := hr.1
      endpointControl_lt := fun i hi => by
        simpa [show e.endpointControl = some i from hi] using hr.2 }

end Endpoint

theorem Configuration.mem_endpointsOf {c : Configuration} {i : Interface}
    {e : EndpointDescription} (h : e ∈ c.endpointsOf i) : e ∈ c.endpoints := by
  unfold endpointsOf endpointsOf? at h
  split_ifs at h
  · exact List.mem_of_mem_drop (List.mem_of_mem_take h)
  · cases h

/-- The two directions of endpoint 0 come first, then the callers' endpoints. -/
def Session.Arranged (endpoints : List Endpoint) : Prop :=
  ∃ pidIn pidOut rest, endpoints = .ofControl .input pidIn :: .ofControl .output pidOut :: rest ∧
    ∀ e ∈ rest, e.OfCaller

theorem Session.arranged_of_endpointsFor {c : Configuration} {endpoints : List Endpoint}
    (hc : (⟨c.interfaces, c.endpoints⟩ : Tables).Orderly)
    (h : Session.endpointsFor c = .ok endpoints) : Session.Arranged endpoints := by
  unfold Session.endpointsFor at h
  rw [bind_eq_ok] at h
  obtain ⟨groups, hgroups, h⟩ := h
  cases h
  obtain ⟨is, his, hids⟩ := hc.interfaces
  obtain ⟨es, hes⟩ := hc.endpoints
  simp only at his hes
  -- the first group of endpoints is that of the control interface
  rw [mapM_eq_ok, his, List.forall₂_cons_left_iff] at hgroups
  obtain ⟨g₀, gs, hg₀, hgs, rfl⟩ := hgroups
  have hcontrol : c.endpointsOf .control = [.control .input, .control .output] := by
    simp [Configuration.endpointsOf, Configuration.endpointsOf?, Interface.control, hes]
  rw [hcontrol, mapM_eq_ok] at hg₀
  simp only [List.forall₂_cons_left_iff, List.forall₂_nil_left_iff] at hg₀
  obtain ⟨e₀, _, h₀, ⟨e₁, _, h₁, rfl, rfl⟩, rfl⟩ := hg₀
  rw [show Interface.control.id = 0 from rfl, Endpoint.ofDescription_control, Except.ok.injEq]
    at h₀ h₁
  subst h₀ h₁
  refine ⟨.data0, .data0, gs.flatten, rfl, ?_⟩
  intro e he
  obtain ⟨g, hg, he⟩ := List.mem_flatten.1 he
  obtain ⟨i, hi, hig⟩ := exists_of_forall₂_of_mem hgs hg
  obtain ⟨e₀, he₀, h⟩ := exists_of_forall₂_of_mem (mapM_eq_ok.1 hig) he
  exact Endpoint.ofCaller_of_ofDescription (hids i hi)
    (hc.legal e₀ (Configuration.mem_endpointsOf he₀)) h

/-! ### The descriptors of a session -/

/-- A text has a descriptor that fits in a packet. -/
def FitsPacket (text : String) : Prop := stringDescriptorLength text ≤ packetLimit

theorem pushString_eq_ok {strings strings' : List String} {text : String} :
    pushString strings text = .ok strings' ↔ FitsPacket text ∧ strings' = strings ++ [text] := by
  unfold pushString FitsPacket
  rw [if_error_eq_ok, Nat.not_lt, Except.ok.injEq]
  exact and_congr_right fun _ => eq_comm

theorem pushString_fits {strings strings' : List String} {text : String}
    (hs : ∀ t ∈ strings, FitsPacket t) (h : pushString strings text = .ok strings') :
    ∀ t ∈ strings', FitsPacket t := by
  obtain ⟨ht, rfl⟩ := pushString_eq_ok.1 h
  intro t hmem
  rcases List.mem_append.1 hmem with hmem | hmem
  · exact hs t hmem
  · rw [List.mem_singleton.1 hmem]
    exact ht

namespace Assembly

theorem append_eq_ok {a a' : Assembly} {record : List UInt8} :
    a.append record = .ok a' ↔ a.bytes.length + record.length ≤ packetLimit ∧
      a' = { a with bytes := a.bytes ++ record } := by
  unfold append
  exact if_ok_eq_ok

theorem addInterface_eq_ok {c : Configuration} {a a' : Assembly} {i : Interface} {position : Nat} :
    addInterface c a (i, position) = .ok a' ↔ ∃ endpoints strings a₁,
      c.endpointsOf? i = some endpoints ∧ pushString a.strings i.name = .ok strings ∧
      append ⟨a.bytes, a.starts ++ [a.bytes.length], strings⟩
        (i.record position endpoints).bytes = .ok a₁ ∧
      endpoints.foldlM (fun a e => a.append e.record.bytes) a₁ = .ok a' := by
  unfold addInterface
  simp only
  cases he : c.endpointsOf? i with
  | none => exact ⟨nofun, fun ⟨_, _, _, h, _⟩ => by cases h⟩
  | some endpoints =>
    simp only [bind_eq_ok, Option.some.injEq]
    constructor
    · rintro ⟨strings, hs, a₁, h₁, h⟩
      exact ⟨endpoints, strings, a₁, rfl, hs, h₁, h⟩
    · rintro ⟨_, strings, a₁, rfl, hs, h₁, h⟩
      exact ⟨strings, hs, a₁, h₁, h⟩

theorem strings_of_append {a a' : Assembly} {record : List UInt8}
    (h : a.append record = .ok a') : a'.strings = a.strings := by
  obtain ⟨-, rfl⟩ := append_eq_ok.1 h
  rfl

theorem addInterface_fits {c : Configuration} {a a' : Assembly} {entry : Interface × Nat}
    (ha : ∀ t ∈ a.strings, FitsPacket t) (h : addInterface c a entry = .ok a') :
    ∀ t ∈ a'.strings, FitsPacket t := by
  obtain ⟨endpoints, strings, a₁, -, hs, h₁, h⟩ := addInterface_eq_ok.1 h
  -- the records of the endpoints add no strings
  have hfold : a'.strings = a₁.strings :=
    foldlM_preserves (P := fun b => b.strings = a₁.strings)
      (fun _ _ _ _ hc h => (strings_of_append h).trans hc) rfl h
  rw [hfold, strings_of_append h₁]
  exact pushString_fits ha hs

end Assembly

namespace DescriptorSet

theorem assemble_eq_ok {c : Configuration} {d : DescriptorSet} :
    assemble c = .ok d ↔ c.descriptorLength ≤ packetLimit ∧ ∃ strings a,
      [c.vendor, c.product, c.serial.getD ""].foldlM pushString [] = .ok strings ∧
      c.interfaces.zipIdx.foldlM (Assembly.addInterface c) ⟨c.record.bytes, [], strings⟩ = .ok a ∧
      a.bytes.length = c.descriptorLength ∧
      d = ⟨c.deviceRecord, a.bytes, a.starts, a.strings⟩ := by
  unfold assemble
  refine if_error_eq_ok.trans (and_congr Nat.not_lt ?_)
  simp only [bind_eq_ok]
  constructor
  · rintro ⟨strings, hs, a, ha, h⟩
    exact ⟨strings, a, hs, ha, if_ok_eq_ok.1 h⟩
  · rintro ⟨strings, a, hs, ha, h⟩
    exact ⟨strings, hs, a, ha, if_ok_eq_ok.2 h⟩

/-- Every descriptor fits in a packet of endpoint 0, and the configuration record is whole. -/
structure Fits (d : DescriptorSet) : Prop where
  /-- The configuration record is there. -/
  le_records : 9 ≤ d.records.length
  /-- The records of the configuration fit in a packet. -/
  records_le : d.records.length ≤ packetLimit
  /-- Every string fits in a packet. -/
  strings : ∀ t ∈ d.strings, FitsPacket t

theorem fits_of_assemble {c : Configuration} {d : DescriptorSet} (h : assemble c = .ok d) :
    d.Fits := by
  obtain ⟨hle, strings, a, hs, ha, hlen, rfl⟩ := assemble_eq_ok.1 h
  have hstrings : ∀ t ∈ strings, FitsPacket t :=
    foldlM_preserves (P := fun l => ∀ t ∈ l, FitsPacket t)
      (fun _ _ _ _ hc h => pushString_fits hc h) (fun _ h => by cases h) hs
  refine ⟨?_, ?_, ?_⟩
  · show 9 ≤ a.bytes.length
    rw [hlen, Configuration.descriptorLength]
    omega
  · show a.bytes.length ≤ packetLimit
    rw [hlen]
    exact hle
  · exact foldlM_preserves (P := fun b : Assembly => ∀ t ∈ b.strings, FitsPacket t)
      (fun _ _ _ _ hc h => Assembly.addInterface_fits hc h) hstrings ha

end DescriptorSet

/-! ### Sessions -/

namespace Session

theorem ofDescription_eq_ok {d : DeviceDescription} {s : Session} :
    ofDescription d = .ok s ↔ ∃ c set endpoints, d.checked = .ok c ∧
      DescriptorSet.assemble c = .ok set ∧ endpointsFor c = .ok endpoints ∧
      s = ⟨c, set, endpoints, {}⟩ := by
  unfold ofDescription
  simp only [bind_eq_ok, mapError_eq_ok]
  constructor
  · rintro ⟨c, hc, set, hset, endpoints, he, h⟩
    exact ⟨c, set, endpoints, hc, by
      cases hx : DescriptorSet.assemble c with
      | error e => rw [hx] at hset; cases hset
      | ok y => rw [hx] at hset; exact hset, he, (Except.ok.inj h).symm⟩
  · rintro ⟨c, set, endpoints, hc, hset, he, rfl⟩
    exact ⟨c, hc, set, by rw [hset], endpoints, he, rfl⟩

/-- A session in which everything is where the engine expects it. -/
structure Sound (s : Session) : Prop where
  /-- Endpoint 0 comes first, and the others are in order. -/
  arranged : Arranged s.endpoints
  /-- Every descriptor fits in a packet. -/
  fits : s.descriptors.Fits

/-- A session that comes of a description is sound. -/
theorem sound_of_ofDescription {d : DeviceDescription} {s : Session}
    (h : ofDescription d = .ok s) : s.Sound := by
  obtain ⟨c, set, endpoints, hc, hset, he, rfl⟩ := ofDescription_eq_ok.1 h
  obtain ⟨hids, t, ht, rfl⟩ := DeviceDescription.checked_eq_ok.1 hc
  exact
    { arranged := arranged_of_endpointsFor (Tables.orderly_of_foldlM hids ht) he
      fits := DescriptorSet.fits_of_assemble hset }

end Session

end UsbGadget
