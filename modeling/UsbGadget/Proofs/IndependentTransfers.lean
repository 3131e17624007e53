import UsbGadget.Proofs.Footprint
import UsbGadget.Proofs.Toggles

/-!
# Transfers on different endpoints are independent

That two endpoints share nothing is checked nowhere; endpoints may well share a buffer or a
register. But two that have different buffer addresses have different slots, since a buffer starts a
slot and a packet stays in it, and the buffer control words lie below all slots.

* `Endpoint.Placed.arm_comm` says that two packets can be armed in either order, and
  `Session.Found.submit_comm` that they can be submitted in either order.
* `Device.InUse.transfers_independent` is the main statement, for any two endpoints that are each
  the first with its interface and address.
-/

namespace UsbGadget

/-! ### Places -/

/-- A place in the packet memory is in the slot that an endpoint's packets lie in. -/
def EndpointDescription.Occupies (e : EndpointDescription) (i : Nat) : Prop :=
  ∃ offset, e.bufferOffset = .ok offset ∧ offset ≤ i ∧ i < offset + Dpram.bufferSize

/-- Two slots are the same or have no place in common. -/
theorem slots_disjoint {o o' : Nat} (ho : o % Dpram.bufferSize = 0)
    (ho' : o' % Dpram.bufferSize = 0) (hne : o ≠ o') :
    o + Dpram.bufferSize ≤ o' ∨ o' + Dpram.bufferSize ≤ o := by
  simp only [Dpram.bufferSize] at *
  omega

theorem BufferAddress.Slot.ne {a a' : BufferAddress} {o o' : Nat} (h : a.Slot o) (h' : a'.Slot o')
    (hne : a ≠ a') : o ≠ o' := by
  rintro rfl
  obtain ⟨raw⟩ := a
  obtain ⟨raw'⟩ := a'
  exact hne (congrArg BufferAddress.mk (UInt32.toNat_inj.1 (h.address.trans h'.address.symm)))

theorem EndpointDescription.not_occupies {e e' : EndpointDescription}
    (hne : e.dataBuffer ≠ e'.dataBuffer) {i : Nat} (h : e.Occupies i) : ¬e'.Occupies i := by
  rintro ⟨o', ho', hle', hlt'⟩
  obtain ⟨o, ho, hle, hlt⟩ := h
  have hslot := bufferOffset_eq_ok_iff.1 ho
  have hslot' := bufferOffset_eq_ok_iff.1 ho'
  have hdisjoint := slots_disjoint hslot.aligned hslot'.aligned (hslot.ne hslot' hne)
  omega

/-! ### Arming two endpoints -/

namespace Endpoint

variable {e e' : Endpoint} {data data' : List UInt8}

/-- What arming copies to the buffer: the data of an IN packet. -/
def copied (e : Endpoint) (data : List UInt8) : List UInt8 :=
  if e.direction = .input then data else []

theorem length_copied_le (e : Endpoint) (data : List UInt8) :
    (e.copied data).length ≤ data.length := by
  unfold copied
  split_ifs
  · exact Nat.le_refl _
  · exact Nat.zero_le _

theorem arm_eq (e : Endpoint) (data : List UInt8) (m : Memory Dpram.size) :
    e.arm data m = (m.writeBytes e.bufferOffset (e.copied data)).writeBytes
      (Dpram.bufferControlOffset e.bufferControl) (e.armWord data.length).bytes := by
  unfold arm copied
  split_ifs <;> rfl

theorem Placed.word_below (he : e.Placed) (he' : e'.Placed) :
    Dpram.bufferControlOffset e.bufferControl + 4 ≤ e'.bufferOffset := by
  have hlt := he.bufferControl_lt
  have hle := he'.le_bufferOffset
  simp only [Dpram.bufferControlOffset, Dpram.bufferControls, Dpram.ep0Buffer] at *
  omega

/-- Packets of endpoints with different buffers and different buffer control words can be armed in
either order. -/
theorem Placed.arm_comm (he : e.Placed) (he' : e'.Placed)
    (hbuffer : e.bufferOffset ≠ e'.bufferOffset) (hcontrol : e.bufferControl ≠ e'.bufferControl)
    (hdata : data.length ≤ Dpram.bufferSize) (hdata' : data'.length ≤ Dpram.bufferSize)
    (m : Memory Dpram.size) : e'.arm data' (e.arm data m) = e.arm data (e'.arm data' m) := by
  have hcopied := Nat.le_trans (e.length_copied_le data) hdata
  have hcopied' := Nat.le_trans (e'.length_copied_le data') hdata'
  have hword := (e.armWord data.length).length_bytes
  have hword' := (e'.armWord data'.length).length_bytes
  have hslots := slots_disjoint he.aligned he'.aligned hbuffer
  have hlow := he.word_below he'
  have hlow' := he'.word_below he
  have hwords : Dpram.bufferControlOffset e.bufferControl + 4 ≤
        Dpram.bufferControlOffset e'.bufferControl ∨
      Dpram.bufferControlOffset e'.bufferControl + 4 ≤
        Dpram.bufferControlOffset e.bufferControl := by
    simp only [Dpram.bufferControlOffset]
    omega
  simp only [arm_eq]
  refine m.writeBytes_comm_two ?_ (.inr ?_) (.inl ?_) ?_
  · omega
  · rw [hword']
    exact hlow'
  · rw [hword]
    exact hlow
  · rw [hword, hword']
    exact hwords

end Endpoint

/-! ### Submitting to two endpoints -/

namespace Session

variable {s s' : Session} {interface address : UInt8}

theorem Same.position?_eq (h : s.Same s') (interface address : UInt8) :
    s'.position? interface address = s.position? interface address := by
  have hfixed (endpoints : List Endpoint) :
      (endpoints.findIdx? fun e => e.interface == interface && e.address == address) =
        (endpoints.map Endpoint.fixed).findIdx? fun e =>
          e.interface == interface && e.address == address := by
    rw [List.findIdx?_map]
    rfl
  rw [position?, position?, hfixed, h.endpoints, ← hfixed]

/-- The endpoint at a position is the one for an interface and an address, and it is as described.
-/
structure Found (s : Session) (interface address : UInt8) (e₀ : EndpointDescription) (i : Nat)
    (e : Endpoint) : Prop where
  /-- It is the first of its interface and address. -/
  first : s.position? interface address = some i
  /-- It is there. -/
  there : s.endpoints[i]? = some e
  /-- It has its buffer and its registers from the description. -/
  serves : e.Serves interface e₀
  /-- Its packets and its control word lie in the memory. -/
  placed : e.Placed

namespace Found

variable {e₀ e₀' : EndpointDescription} {i : Nat} {e : Endpoint}

theorem endpoint?_eq (h : s.Found interface address e₀ i e) :
    s.endpoint? interface address = some e :=
  (endpoint?_of_position? h.first).trans h.there

theorem submit_eq (h : s.Found interface address e₀ i e) (data : List UInt8) :
    s.submit interface address data =
      ({ s with endpoints := s.endpoints.set i e.advance }, [.arm e (e.clip data)], true) := by
  simp only [submit, h.first, arm, h.there]

theorem position_ne {interface' address' : UInt8} {i' : Nat} {e' : Endpoint}
    (h : s.Found interface address e₀ i e) (h' : s.Found interface' address' e₀' i' e')
    (hne : e₀.bufferControl ≠ e₀'.bufferControl) : i ≠ i' := by
  rintro rfl
  obtain rfl : e = e' := Option.some.inj (h.there.symm.trans h'.there)
  exact hne (h.serves.bufferControl.symm.trans h'.serves.bufferControl)

theorem after_advance (h : s.Found interface address e₀ i e) {j : Nat} {e' : Endpoint}
    (he' : s.endpoints[j]? = some e') (hne : j ≠ i) :
    ({ s with endpoints := s.endpoints.set j e'.advance } : Session).Found interface address e₀ i
      e where
  first := ((same_advance he').position?_eq interface address).trans h.first
  there := (List.getElem?_set_ne hne).trans h.there
  serves := h.serves
  placed := h.placed

end Found

theorem exists_found {description : DeviceDescription} {s₀ : Session}
    (h : ofDescription description = .ok s₀) (hsame : s₀.Same s)
    {interface address : UInt8} {e₀ : EndpointDescription}
    (he₀ : description.numbered.find? (fun p => p.1 == interface && p.2.address == address) =
      some (interface, e₀)) : ∃ i e, s.Found interface address e₀ i e := by
  have hrel := rel_find? (p := fun p => p.1 == interface && p.2.address == address)
    (q := fun e : Endpoint => e.interface == interface && e.address == address)
    (fun p e hserves => by rw [hserves.interface, hserves.address]) (serves_of_same h hsame)
  rw [he₀] at hrel
  obtain ⟨e, he, hserves⟩ :
      ∃ e, s.endpoint? interface address = some e ∧ e.Serves interface e₀ := by
    unfold endpoint?
    generalize s.endpoints.find? _ = found at hrel
    cases hrel with
    | some hserves => exact ⟨_, rfl, hserves⟩
  have hmem := List.mem_of_find?_eq_some he
  have hplaced := ((sound_of_ofDescription h).of_same hsame).arranged.placed hmem
  cases hposition : s.position? interface address with
  | none =>
    have hnot := List.findIdx?_eq_none_iff.1 hposition e hmem
    exact absurd (List.find?_some he) (Bool.eq_false_iff.1 hnot)
  | some i =>
    rw [endpoint?_of_position? hposition] at he
    exact ⟨i, e, hposition, he, hserves, hplaced⟩

end Session

/-! ### Devices -/

namespace Device

variable {σ : Type} [Board σ] {description : DeviceDescription} {d : Device σ}

/-- Whatever happened left an endpoint alone: the bytes of its slot, its buffer control word, and
the identifier of its next packet. -/
structure Spares (interface address : UInt8) (e : EndpointDescription) (d d' : Device σ) :
    Prop where
  /-- The slot. -/
  slot : ∀ i, e.Occupies i → d'.hw.dpram.byte i = d.hw.dpram.byte i
  /-- The buffer control word. -/
  word : d'.hw.dpram.word (Dpram.bufferControlOffset e.bufferControl) =
    d.hw.dpram.word (Dpram.bufferControlOffset e.bufferControl)
  /-- The identifier. -/
  nextPid : d'.session.map (·.nextPid interface address) =
    d.session.map (·.nextPid interface address)

section

variable {s : Session} {interface address interface' address' : UInt8}
  {e₀ e₀' : EndpointDescription} {i i' : Nat} {e e' : Endpoint}

theorem submit_of_found (hd : d.session = some s) (h : s.Found interface address e₀ i e)
    (data : List UInt8) :
    d.submit interface address data =
      (true, d.after [.arm e (e.clip data)]
        (some { s with endpoints := s.endpoints.set i e.advance }), [.arm e (e.clip data)]) := by
  rw [submit_eq hd, h.submit_eq data]

/-- A packet of one endpoint leaves another one alone that has a buffer and a register of its own.
-/
theorem spares_submit (hd : d.session = some s) (h : s.Found interface address e₀ i e)
    (h' : s.Found interface' address' e₀' i' e') (hbuffer : e₀.dataBuffer ≠ e₀'.dataBuffer)
    (hcontrol : e₀.bufferControl ≠ e₀'.bufferControl) (data : List UInt8) :
    Spares interface' address' e₀' d (d.submit interface address data).2.1 := by
  have hfits := h.placed.length_clip_le data
  rw [submit_of_found hd h data]
  refine ⟨?_, ?_, ?_⟩
  · rintro j ⟨o, ho, hle, hlt⟩
    have hslot' := EndpointDescription.bufferOffset_eq_ok_iff.1 ho
    have hslot := h.serves.bufferOffset
    have hlow := h.placed.word_below h'.placed
    have hplace := h'.placed.le_bufferOffset
    have hdisjoint := slots_disjoint hslot.aligned hslot'.aligned (hslot.ne hslot' hbuffer)
    have hcontrol_lt := h.placed.bufferControl_lt
    have hbase := hslot'.le
    simp only [Dpram.bufferControls, Dpram.ep0Buffer] at hcontrol_lt hbase
    -- a place in the other slot lies behind all control words, and beside this slot
    refine Endpoint.byte_arm_of_outside e (e.clip data) d.hw.dpram (.inr ?_) fun _ => ?_
    · simp only [Dpram.bufferControlOffset]
      omega
    · omega
  · have hlt := h'.placed.bufferControl_lt
    rw [h'.serves.bufferControl] at hlt
    have hne : e₀'.bufferControl ≠ e.bufferControl := by
      rw [h.serves.bufferControl]
      exact hcontrol.symm
    exact (h.placed.word_arm (e.clip data) d.hw.dpram hlt).trans (if_neg hne)
  · have hfound := h'.after_advance h.there (h.position_ne h' hcontrol)
    rw [session_after, hd, Option.map_some, Option.map_some, Session.nextPid, Session.nextPid,
      hfound.endpoint?_eq, h'.endpoint?_eq]

/-- Packets of two endpoints can be submitted in either order. -/
theorem submit_comm (hd : d.session = some s) (h : s.Found interface address e₀ i e)
    (h' : s.Found interface' address' e₀' i' e') (hbuffer : e₀.dataBuffer ≠ e₀'.dataBuffer)
    (hcontrol : e₀.bufferControl ≠ e₀'.bufferControl) (data data' : List UInt8) :
    ((d.submit interface address data).2.1.submit interface' address' data').2.1 =
      ((d.submit interface' address' data').2.1.submit interface address data).2.1 := by
  have hne := h.position_ne h' hcontrol
  have hoffsets := h.serves.bufferOffset.ne h'.serves.bufferOffset hbuffer
  have hcontrols : e.bufferControl ≠ e'.bufferControl := by
    rw [h.serves.bufferControl, h'.serves.bufferControl]
    exact hcontrol
  have hdpram := h.placed.arm_comm h'.placed hoffsets hcontrols (h.placed.length_clip_le data)
    (h'.placed.length_clip_le data') d.hw.dpram
  have hendpoints : (s.endpoints.set i e.advance).set i' e'.advance =
      (s.endpoints.set i' e'.advance).set i e.advance := List.set_comm _ _ hne
  -- each endpoint is still the one that is found once the other has been used
  rw [submit_of_found hd h data, submit_of_found hd h' data',
    submit_of_found rfl (h'.after_advance h.there hne) data',
    submit_of_found rfl (h.after_advance h'.there hne.symm) data]
  simp only [after, hendpoints, replay_cons, replay_nil, Effect.apply, Hardware.mapDpram]
  rw [hdpram]

end

/-- Two endpoints of a device in use, each the first with its interface and address, that have
different buffer addresses and different buffer control registers: their slots have no place in
common, a packet of one leaves the other alone, and packets of both can be submitted in either
order, with the same device in the end. -/
theorem InUse.transfers_independent (hd : d.InUse description)
    {interface address interface' address' : UInt8} {e e' : EndpointDescription}
    (he : description.numbered.find? (fun p => p.1 == interface && p.2.address == address) =
      some (interface, e))
    (he' : description.numbered.find? (fun p => p.1 == interface' && p.2.address == address') =
      some (interface', e'))
    (hbuffer : e.dataBuffer ≠ e'.dataBuffer) (hcontrol : e.bufferControl ≠ e'.bufferControl) :
    (∀ i, e.Occupies i → ¬e'.Occupies i) ∧
    (∀ data, (d.submit interface address data).1 = true ∧
      Spares interface' address' e' d (d.submit interface address data).2.1) ∧
    (∀ data, (d.submit interface' address' data).1 = true ∧
      Spares interface address e d (d.submit interface' address' data).2.1) ∧
    ∀ data data', ((d.submit interface address data).2.1.submit interface' address' data').2.1 =
      ((d.submit interface' address' data').2.1.submit interface address data).2.1 := by
  obtain ⟨s₀, s, hs₀, hsame, hs⟩ := hd.session
  obtain ⟨i, x, h⟩ := Session.exists_found hs₀ hsame he
  obtain ⟨i', x', h'⟩ := Session.exists_found hs₀ hsame he'
  refine ⟨fun _ => EndpointDescription.not_occupies hbuffer, ?_, ?_, ?_⟩
  · intro data
    exact ⟨congrArg (·.1) (submit_of_found hs h data), spares_submit hs h h' hbuffer hcontrol data⟩
  · intro data
    exact ⟨congrArg (·.1) (submit_of_found hs h' data),
      spares_submit hs h' h hbuffer.symm hcontrol.symm data⟩
  · exact submit_comm hs h h' hbuffer hcontrol

/-- The two endpoints of the echo device, whatever lies in its packet memory. -/
theorem transfers_independent_overwritten :
    overwritten.InUse Echo.device ∧
      Spares Echo.interface Echo.inAddress Echo.inEndpoint overwritten
        (overwritten.submit Echo.interface Echo.outAddress Echo.room).2.1 ∧
      ((overwritten.submit Echo.interface Echo.outAddress Echo.room).2.1.submit
          Echo.interface Echo.inAddress [1, 2, 3]).2.1 =
        ((overwritten.submit Echo.interface Echo.inAddress [1, 2, 3]).2.1.submit
          Echo.interface Echo.outAddress Echo.room).2.1 := by
  have hout : Echo.device.numbered.find?
      (fun p => p.1 == Echo.interface && p.2.address == Echo.outAddress) =
        some (Echo.interface, Echo.outEndpoint) := rfl
  have hin : Echo.device.numbered.find?
      (fun p => p.1 == Echo.interface && p.2.address == Echo.inAddress) =
        some (Echo.interface, Echo.inEndpoint) := rfl
  obtain ⟨-, hspares, -, hcomm⟩ := inUse_overwritten.transfers_independent hout hin
    (by decide) (by decide)
  exact ⟨inUse_overwritten, (hspares Echo.room).2, hcomm Echo.room [1, 2, 3]⟩

end Device

end UsbGadget
