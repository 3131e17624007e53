import UsbGadget.Proofs.GuardedDescription
import UsbGadget.Proofs.InService

/-!
# Sessions never go wrong

One lemma for each guarded operation of a session: it does what the plain one does, and has no
fault.

* What a session does with its endpoints needs nothing (`Guarded.arm_eq`, `Guarded.runHandler_eq`,
  `Guarded.proceed_eq`), since data is cut to the size of a packet first.
* What goes to and from the packet memory needs endpoints that are `Endpoint.Placed`
  (`Guarded.armEndpoint_eq`, `Guarded.completedData_eq`).
* What is put together in the scratch buffer needs descriptors that fit in a packet
  (`Guarded.controlSetup_eq`); `Staged` says what the buffer then holds.

`Guarded.react_eq` is the main statement: any event, with any packet memory.
-/

namespace UsbGadget

namespace Guarded

/-! ### The packet memory -/

theorem writePacket_eq {m : Memory Dpram.size} {offset : Nat} {bytes : List UInt8}
    (h : offset + bytes.length ≤ Dpram.size) :
    writePacket m offset bytes = .ok (m.writeBytes offset bytes) := by
  have hsum : sum sizeWidth offset bytes.length = .ok (offset + bytes.length) :=
    sum_eq (Nat.lt_of_le_of_lt h (by decide))
  rw [writePacket, hsum, ok_bind, if_neg (Nat.not_lt.2 h)]
  rfl

theorem readPacket_eq {m : Memory Dpram.size} {offset count : Nat}
    (h : offset + count ≤ Dpram.size) :
    readPacket m offset count = .ok (m.readBytes offset count) := by
  have hsum : sum sizeWidth offset count = .ok (offset + count) :=
    sum_eq (Nat.lt_of_le_of_lt h (by decide))
  rw [readPacket, hsum, ok_bind, if_neg (Nat.not_lt.2 h)]
  rfl

theorem enableEndpoint_eq {e : Endpoint} (m : Memory Dpram.size)
    (h : ∀ i, e.endpointControl = some i → i < Dpram.endpointControls) :
    enableEndpoint e m = .ok (e.enable m) := by
  unfold enableEndpoint Endpoint.enable
  cases he : e.endpointControl with
  | none => rfl
  | some i =>
    simp only [index_eq (h i he)]
    rfl

theorem armEndpoint_eq {e : Endpoint} (he : e.Placed) {data : List UInt8}
    (hdata : data.length ≤ Dpram.bufferSize) (m : Memory Dpram.size) :
    armEndpoint e data m = .ok (e.arm data m) := by
  have hstop : e.bufferOffset + data.length ≤ Dpram.size :=
    Nat.le_trans (Nat.add_le_add_left hdata _) he.bufferOffset_add_le
  unfold armEndpoint Endpoint.arm
  by_cases hin : e.direction = .input
  · rw [if_pos hin, if_pos hin, writePacket_eq hstop, ok_bind, index_eq he.bufferControl_lt]
    rfl
  · rw [if_neg hin, if_neg hin, pure_eq_ok, ok_bind, index_eq he.bufferControl_lt]
    rfl

-- an endpoint that is not placed has a packet end outside the memory
example : armEndpoint { Endpoint.ofControl .input .data0 with bufferOffset := 4090 }
    (List.replicate 64 0) .zero = .error (.outside 4090 64) := rfl

theorem fill_front {size : Nat} (m : Memory size) (bytes : List UInt8) (h : bytes.length ≤ size) :
    fill m 0 bytes.length bytes = .ok (m.writeBytes 0 bytes) := by
  have hfill := fill_eq m 0 bytes (by rw [Nat.zero_add]; exact h)
  rwa [Nat.zero_add] at hfill

/-- A packet that came back lies in its endpoint's buffer, however long its length field says it
is. -/
theorem completedData_eq {e : Endpoint} (he : e.Placed) (m : Memory Dpram.size) :
    completedData e m = .ok (e.completedData m) := by
  have hlength : e.completedLength m ≤ Dpram.bufferSize := Nat.min_le_right _ _
  have hstop : e.bufferOffset + e.completedLength m ≤ Dpram.size :=
    Nat.le_trans (Nat.add_le_add_left hlength _) he.bufferOffset_add_le
  have hbytes : (e.completedData m).length = e.completedLength m := Memory.length_readBytes ..
  rw [← hbytes] at hlength
  unfold completedData
  simp only [index_eq he.bufferControl_lt, ok_bind, readPacket_eq hstop]
  rw [← Endpoint.completedData, ← hbytes, fill_front _ _ hlength, ok_bind,
    view_eq (Nat.zero_le _) hlength, Nat.sub_zero,
    Memory.readBytes_writeBytes _ _ _ (by rw [Nat.zero_add]; exact hlength)]

theorem bytes_ofBytes (b₀ b₁ b₂ b₃ : UInt8) :
    (Word.ofBytes b₀ b₁ b₂ b₃).bytes = [b₀, b₁, b₂, b₃] := by
  have h₀ := b₀.toNat_lt
  have h₁ := b₁.toNat_lt
  have h₂ := b₂.toNat_lt
  have h₃ := b₃.toNat_lt
  have hw : (Word.ofBytes b₀ b₁ b₂ b₃).toNat =
      b₀.toNat + 256 * b₁.toNat + 65536 * b₂.toNat + 16777216 * b₃.toNat :=
    UInt32.toNat_ofNat_of_lt' (show _ < 4294967296 by omega)
  have byte (n : Nat) (b : UInt8) (h : n % 256 = b.toNat) : UInt8.ofNat n = b :=
    UInt8.toNat_inj.1 (by rw [UInt8.toNat_ofNat']; exact h)
  rw [Word.bytes, hw, byte _ b₀ (by omega), byte _ b₁ (by omega), byte _ b₂ (by omega),
    byte _ b₃ (by omega)]

theorem readSetup_eq (m : Memory Dpram.size) : readSetup m = .ok (some (.inMemory m)) := by
  have hlow := fill_eq (.zero : Memory 8) 0 (m.word 0).bytes
    (show 0 + 4 ≤ 8 by decide)
  have hhigh := fill_eq ((.zero : Memory 8).writeBytes 0 (m.word 0).bytes) 4 (m.word 4).bytes
    (show 4 + 4 ≤ 8 by decide)
  have hpacket := Memory.readBytes_writeBytes_behind
    ((.zero : Memory 8).writeBytes 0 (m.word 0).bytes) 4 (m.word 4).bytes
    (show 4 + 4 ≤ 8 by decide)
  have hfront := (.zero : Memory 8).readBytes_writeBytes 0 (m.word 0).bytes
    (show 0 + 4 ≤ 8 by decide)
  rw [Word.length_bytes] at hlow hhigh hpacket hfront
  rw [readSetup, hlow, ok_bind, hhigh, ok_bind, hpacket, hfront, Memory.word, Memory.word,
    bytes_ofBytes, bytes_ofBytes]
  rfl

/-! ### Clearing the packet memory -/

/-- The bytes below an offset are 0. -/
def ClearBelow (m : Memory Dpram.size) (n : Nat) : Prop := ∀ i < n, m.byte i = 0

theorem ClearBelow.writeBytes {m : Memory Dpram.size} {n : Nat} (h : ClearBelow m n)
    (bytes : List UInt8) (hbytes : ∀ b ∈ bytes, b = 0) :
    ClearBelow (m.writeBytes n bytes) (n + bytes.length) := by
  intro i hi
  rw [Memory.byte_writeBytes]
  by_cases hin : n ≤ i ∧ i < n + bytes.length ∧ i < Dpram.size
  · rw [if_pos hin]
    cases hb : bytes[i - n]? with
    | none => rfl
    | some b => exact hbytes b (List.mem_of_getElem? hb)
  · rw [if_neg hin]
    by_cases hlow : i < n
    · exact h i hlow
    · exact Memory.byte_of_size_le m (by omega)

theorem ClearBelow.clearWords {m : Memory Dpram.size} {n : Nat} (h : ClearBelow m n) (count : Nat) :
    ClearBelow (clearWords m n count) (n + 4 * count) := by
  induction count with
  | zero => exact h
  | succ count ih =>
    have hzero : Word.bytes 0 = List.replicate 4 0 := rfl
    rw [Guarded.clearWords, List.range_succ, List.foldl_append]
    exact ih.writeBytes (Word.bytes 0) fun b hb => List.eq_of_mem_replicate (hzero ▸ hb)

theorem ClearBelow.clearSlots {m : Memory Dpram.size} (h : ClearBelow m Dpram.ep0Buffer)
    {count : Nat} (hcount : count ≤ slots) :
    ∃ m', (List.range count).foldlM (fun m i => writePacket m
        (Dpram.ep0Buffer + Dpram.bufferSize * i) (List.replicate Dpram.bufferSize 0)) m = .ok m' ∧
      ClearBelow m' (Dpram.ep0Buffer + Dpram.bufferSize * count) := by
  induction count with
  | zero => exact ⟨m, rfl, h⟩
  | succ count ih =>
    obtain ⟨m', hm', h'⟩ := ih (Nat.le_of_succ_le hcount)
    have hroom : Dpram.ep0Buffer + Dpram.bufferSize * count +
        (List.replicate Dpram.bufferSize (0 : UInt8)).length ≤ Dpram.size := by
      have hcount : count + 1 ≤ 60 := hcount
      rw [List.length_replicate, Dpram.ep0Buffer, Dpram.bufferSize, Dpram.size]
      omega
    have hclear := h'.writeBytes (List.replicate Dpram.bufferSize 0)
      fun b hb => List.eq_of_mem_replicate hb
    refine ⟨_, ?_, hclear⟩
    rw [List.range_succ, List.foldlM_append, hm', ok_bind, List.foldlM_cons,
      writePacket_eq hroom]
    rfl

/-- Clearing the packet memory part by part leaves none of it out. -/
theorem clear_eq (m : Memory Dpram.size) : clear m = .ok .zero := by
  have hsetup : ClearBelow (clearWords m 0 2) 8 :=
    ClearBelow.clearWords (fun _ h => absurd h (Nat.not_lt_zero _)) 2
  have hendpoints := hsetup.clearWords Dpram.endpointControls
  have hbuffers := ClearBelow.clearWords (n := 0x80) hendpoints Dpram.bufferControls
  obtain ⟨m', hm', h'⟩ := ClearBelow.clearSlots hbuffers (Nat.le_refl slots)
  have hzero : m' = .zero := Memory.ext_byte fun i hi => by rw [h' i hi, Memory.byte_zero]
  rw [← hzero]
  exact hm'

/-! ### The scratch buffer -/

/-- The scratch buffer holds a descriptor, of the length that is told. -/
structure Staged (bytes : List UInt8) (staged : Scratch × Nat) : Prop where
  /-- The length. -/
  length : staged.2 = bytes.length
  /-- The bytes. -/
  content : staged.1.readBytes 0 bytes.length = bytes
  /-- There is room for them. -/
  room : bytes.length ≤ packetLimit

/-- As much of a descriptor as the host asks for is taken from the scratch buffer. -/
theorem Staged.view_eq {bytes : List UInt8} {staged : Scratch × Nat} (h : Staged bytes staged)
    (n : Nat) : view staged.1 0 (min staged.2 n) = .ok (bytes.take n) := by
  have hle : min bytes.length n ≤ bytes.length := Nat.min_le_left _ _
  rw [h.length, Guarded.view_eq (Nat.zero_le _) (Nat.le_trans hle h.room), Nat.sub_zero,
    ← Memory.take_readBytes _ hle, h.content, Nat.min_comm, ← List.take_eq_take_min]

theorem staged_writeBytes (scratch : Scratch) {bytes : List UInt8}
    (h : bytes.length ≤ packetLimit) :
    Staged bytes (scratch.writeBytes 0 bytes, bytes.length) where
  length := rfl
  content := scratch.readBytes_writeBytes 0 bytes (by rw [Nat.zero_add]; exact h)
  room := h

theorem stage_eq (scratch : Scratch) (bytes : List UInt8) (h : bytes.length ≤ packetLimit) :
    stage scratch bytes = .ok (scratch.writeBytes 0 bytes, bytes.length) := by
  unfold stage
  simp only [Nat.min_eq_left h]
  rw [slice_to (Nat.le_refl _), List.take_length, ok_bind, fill_front scratch _ h]
  rfl

theorem stageUnits_eq (scratch : Scratch) {n : Nat} {units : List UInt16}
    (h : n + 2 * units.length ≤ packetLimit) :
    stageUnits scratch n units =
      .ok (scratch.writeBytes n (Utf16.bytes units), n + 2 * units.length) := by
  induction units generalizing scratch n with
  | nil => rfl
  | cons unit units ih =>
    rw [List.length_cons] at h
    have hroom : n + (halfBytes unit).length ≤ packetLimit := by
      rw [length_halfBytes]
      omega
    have hlength : n + 2 + 2 * units.length = n + 2 * (unit :: units).length := by
      rw [List.length_cons]
      omega
    rw [stageUnits, sum_eq (Nat.lt_of_le_of_lt (show n + 2 ≤ packetLimit by omega) (by decide)),
      ok_bind, if_neg (by omega), show fill scratch n (n + 2) _ = _ from fill_eq _ _ _ hroom,
      ok_bind, ih _ (by omega), Utf16.bytes_cons, Memory.writeBytes_append, length_halfBytes,
      hlength]

/-- A text for which there is room is written as its descriptor, and nothing behind it changes. -/
theorem stageText_eq (scratch : Scratch) {s : String} (h : FitsPacket s) :
    stageText scratch s =
      .ok (scratch.writeBytes 0 (stringDescriptor s), stringDescriptorLength s) := by
  have hunits : stageUnits scratch 2 (Utf16.encode s) =
      .ok (scratch.writeBytes 2 (Utf16.bytes (Utf16.encode s)), stringDescriptorLength s) :=
    stageUnits_eq scratch h
  -- the length and the kind are written last, over the two bytes in front
  have hlength (m : Scratch) (b : UInt8) : fill m 0 1 [b] = .ok (m.writeBytes 0 [b]) :=
    fill_front m [b] (show 1 ≤ packetLimit by decide)
  have hkind (m : Scratch) (b : UInt8) : fill m 1 2 [b] = .ok (m.writeBytes 1 [b]) :=
    fill_eq m 1 [b] (show 1 + 1 ≤ packetLimit by decide)
  have hfront (m : Scratch) (b b' : UInt8) (bs : List UInt8) :
      ((m.writeBytes 2 bs).writeBytes 0 [b]).writeBytes 1 [b'] =
        m.writeBytes 0 (b :: b' :: bs) := by
    have hswap : (m.writeBytes 2 bs).writeBytes 0 [b, b'] =
        (m.writeBytes 0 [b, b']).writeBytes 2 bs := m.writeBytes_comm (.inr (Nat.le_refl 2))
    exact hswap.trans (m.writeBytes_append 0 [b, b'] bs).symm
  rw [stageText, hunits, ok_bind]
  show (fill _ 0 1 [UInt8.ofNat (stringDescriptorLength s)] >>= _) = _
  rw [hlength, ok_bind, hkind, ok_bind, hfront]
  rfl

theorem stageString_eq {d : DescriptorSet} (hd : d.Fits) (scratch : Scratch) (i : UInt8) :
    ∃ staged, stageString d scratch i = .ok staged ∧ Staged ((d.string? i).getD []) staged := by
  unfold stageString DescriptorSet.string?
  by_cases hi : i = 0
  · rw [if_pos hi, if_pos hi]
    have hroom : languageDescriptor.length ≤ packetLimit := show 4 ≤ packetLimit by decide
    have hfill := fill_front scratch languageDescriptor hroom
    refine ⟨_, ?_, staged_writeBytes scratch hroom⟩
    rw [show fill scratch 0 4 _ = _ from hfill]
    rfl
  · have hpos : 1 ≤ i.toNat := Nat.one_le_iff_ne_zero.2 fun h => hi (UInt8.toNat_inj.1 h)
    rw [if_neg hi, if_neg hi, difference_eq hpos, ok_bind]
    cases hs : d.strings[i.toNat - 1]? with
    | none => exact ⟨(scratch, 0), rfl, rfl, rfl, Nat.zero_le _⟩
    | some s =>
      have hfits := hd.strings s (List.mem_of_getElem? hs)
      have hroom : (stringDescriptor s).length ≤ packetLimit := length_stringDescriptor s ▸ hfits
      refine ⟨_, stageText_eq scratch hfits, ?_⟩
      rw [← length_stringDescriptor]
      exact staged_writeBytes scratch hroom

theorem stageRequested_eq {d : DescriptorSet} (hd : d.Fits) (scratch : Scratch) (p : SetupPacket) :
    (d.requested? p = none ∧ stageRequested d scratch p = .ok none) ∨
      ∃ bytes staged, d.requested? p = some bytes ∧
        stageRequested d scratch p = .ok (some staged) ∧ Staged bytes staged := by
  unfold stageRequested DescriptorSet.requested?
  cases hkind : DescriptorKind.ofCode? (p.value.toNat / 256) with
  | none => exact .inl ⟨rfl, rfl⟩
  | some kind =>
    cases kind with
    | interface | endpoint => exact .inl ⟨rfl, rfl⟩
    | device =>
      have hroom : d.device.bytes.length ≤ packetLimit := show 18 ≤ packetLimit by decide
      exact .inr ⟨_, _, rfl, by rw [stage_eq scratch _ hroom]; rfl,
        staged_writeBytes scratch hroom⟩
    | configuration =>
      -- the whole of the records, or the record of the configuration in front of them
      by_cases hall : d.totalLength ≤ p.length.toNat
      · refine .inr ⟨_, _, congrArg some (if_pos hall), ?_,
          staged_writeBytes scratch hd.records_le⟩
        simp only [if_pos hall]
        rw [DescriptorSet.totalLength, slice_to (Nat.le_refl _), List.take_length, ok_bind,
          stage_eq scratch _ hd.records_le]
        rfl
      · have hroom : d.header.length ≤ packetLimit :=
          Nat.le_trans (List.length_take_le _ _) (by decide)
        refine .inr ⟨_, _, congrArg some (if_neg hall), ?_, staged_writeBytes scratch hroom⟩
        simp only [if_neg hall]
        rw [slice_to hd.le_records, ok_bind]
        show some <$> stage scratch d.header = _
        rw [stage_eq scratch _ hroom]
        rfl
    | string =>
      obtain ⟨staged, hstage, h⟩ := stageString_eq hd scratch (UInt8.ofNat p.value.toNat)
      exact .inr ⟨_, staged, rfl, by rw [hstage]; rfl, h⟩

theorem getDescriptor_eq {d : DescriptorSet} (hd : d.Fits) (c : Control) (scratch : Scratch)
    (limit : Nat) (p : SetupPacket) :
    ∃ scratch', getDescriptor c d scratch limit p = .ok (c.getDescriptor d limit p, scratch') := by
  unfold getDescriptor Control.getDescriptor
  rcases stageRequested_eq hd scratch p with
    ⟨hrequested, hstage⟩ | ⟨bytes, staged, hrequested, hstage, hstaged⟩
  · exact ⟨scratch, by rw [hrequested, hstage]; rfl⟩
  · refine ⟨staged.1, ?_⟩
    rw [hrequested, hstage, ok_bind]
    simp only [hstaged.view_eq]
    rfl

/-- The control machine takes a SETUP packet as the plain one does. -/
theorem controlSetup_eq {d : DescriptorSet} (hd : d.Fits) (c : Control) (scratch : Scratch)
    (limit : Nat) (p : SetupPacket) :
    ∃ scratch', controlSetup c d scratch limit p = .ok (c.setup d limit p, scratch') := by
  unfold controlSetup
  split
  · next hinput hrequest =>
    obtain ⟨scratch', h⟩ := getDescriptor_eq hd { c with emptyPending := false } scratch limit p
    refine ⟨scratch', h.trans ?_⟩
    simp only [Control.setup, hinput, hrequest]
  · exact ⟨scratch, rfl⟩

/-! ### Transfers -/

theorem arm_eq (s : Session) (position : Nat) (data : List UInt8) :
    arm s position data = .ok (s.arm position data) := by
  unfold arm Session.arm
  cases s.endpoints[position]? with
  | none => rfl
  | some e =>
    simp only [slice_front]
    rfl

theorem submit_eq (s : Session) (interface address : UInt8) (data : List UInt8) :
    submit s interface address data = .ok (s.submit interface address data) := by
  unfold submit Session.submit
  cases s.position? interface address with
  | none => rfl
  | some position =>
    simp only [arm_eq]
    rfl

/-- Whatever a handler does, it does not make the session go wrong. -/
theorem runHandler_eq (s : Session) (p : Program) : runHandler s p = .ok (s.run p) := by
  induction p generalizing s with
  | done => rfl
  | askConfigured next ih =>
    rw [runHandler, ih]
    rfl
  | submit interface address data next ih =>
    rw [runHandler, submit_eq, ok_bind]
    simp only [ih]
    rfl

/-! ### Events -/

theorem proceed_eq (s : Session) (step : Control × Reply) :
    proceed s step = .ok (s.proceed step) := by
  unfold proceed Session.proceed
  cases step.2 with
  | silent | moveTo => rfl
  | send data => exact arm_eq _ _ _
  | receive => exact arm_eq _ _ _

theorem setup_eq {s : Session} (hs : s.descriptors.Fits) (scratch : Scratch) (p : SetupPacket) :
    ∃ scratch', setup s scratch p = .ok (s.setup p, scratch') := by
  unfold setup Session.setup
  have hfits : ((s.setPid Session.ep0In .data1).setPid Session.ep0Out .data1).descriptors.Fits := hs
  generalize (s.setPid Session.ep0In .data1).setPid Session.ep0Out .data1 = s' at hfits ⊢
  obtain ⟨scratch', h⟩ := controlSetup_eq hfits s'.control scratch s'.ep0Limit p
  refine ⟨scratch', ?_⟩
  simp only [h, ok_bind, proceed_eq]
  rfl

theorem completed_eq (s : Session) (e : Endpoint) (data : List UInt8) :
    completed s e data = .ok (s.completed e data) := by
  unfold completed Session.completed
  cases e.owner with
  | control =>
    cases e.direction with
    | input => exact proceed_eq _ _
    | output => exact proceed_eq _ _
  | caller handler =>
    cases handler with
    | none => rfl
    | some handler =>
      simp only [runHandler_eq]
      rfl

/-- A sound session takes any event as the plain one does, whatever is in the packet memory. -/
theorem react_eq {s : Session} (hs : s.Sound) (scratch : Scratch) (m : Memory Dpram.size)
    (event : Event) : ∃ scratch', react s scratch m event = .ok (s.react m event, scratch') := by
  unfold react Session.react
  cases event with
  | setup =>
    obtain ⟨scratch', h⟩ := setup_eq hs.fits scratch (.inMemory m)
    refine ⟨scratch', ?_⟩
    simp only [readSetup_eq, ok_bind, h]
    rfl
  | buffer i =>
    simp only
    cases he : s.endpoints.find? (·.address == Event.bufferAddress i) with
    | none => exact ⟨scratch, rfl⟩
    | some e =>
      have hplaced := hs.arranged.placed (List.mem_of_find?_eq_some he)
      refine ⟨scratch, ?_⟩
      simp only [completedData_eq hplaced, ok_bind, completed_eq]
      rfl
  | busReset =>
    refine ⟨scratch, ?_⟩
    simp only [proceed_eq, ok_bind]
    rfl

end Guarded

end UsbGadget
