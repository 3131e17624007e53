import UsbGadget.Guarded.Description
import UsbGadget.Proofs.Acceptance

/-!
# Configurations put together by hand

A configuration that no check has made may have any ranges: they may overlap, leave endpoints out,
or lie outside the list. How much room the records take is told beforehand from the lengths of the
lists, while the records themselves are added range by range. So the assembly may look for endpoints
that are not there, run over the end of its block, or end up with records that are shorter or longer
than announced.

* `Guarded.agree_assemble`: whatever the ranges are, the guarded assembly and the plain one come to
  the same, and where the plain one ends in `AssemblyError.rangesMismatch`, the guarded one goes
  wrong in one of these three ways (`Guarded.Mismatch`);
* `DescriptorSet.assemble_of_long_text` and `DescriptorSet.assemble_of_not_accounted` say what a
  text without room and ranges that do not account for the endpoints lead to;
* `DescriptorSet.assemble_by_hand` is the main statement: of the configurations that are small
  enough, those whose ranges account for the endpoints have descriptors.
-/

namespace UsbGadget

/-! ### Texts without room -/

theorem pushString_of_not_fits {strings : List String} {s : String} (h : ¬FitsPacket s) :
    pushString strings s = .error (.refused .stringTooLong) := if_pos (Nat.not_le.1 h)

theorem foldlM_pushString_of_not_fits {strings texts : List String}
    (h : ¬∀ s ∈ texts, FitsPacket s) :
    texts.foldlM pushString strings = .error (.refused .stringTooLong) := by
  induction texts generalizing strings with
  | nil => exact absurd (List.forall_mem_nil _) h
  | cons t ts ih =>
    rw [List.foldlM_cons]
    by_cases ht : FitsPacket t
    · rw [List.forall_mem_cons, and_iff_right ht] at h
      rw [pushString_eq_ok.2 ⟨ht, rfl⟩, Guarded.ok_bind]
      exact ih h
    · rw [pushString_of_not_fits ht]
      rfl

/-- Some text of a configuration takes more units than a descriptor has room for. -/
def Configuration.HasLongText (c : Configuration) : Prop :=
  31 < Utf16.length c.vendor ∨ 31 < Utf16.length c.product ∨
    (∃ s, c.serial = some s ∧ 31 < Utf16.length s) ∨ ∃ i ∈ c.interfaces, 31 < Utf16.length i.name

theorem Configuration.not_hasLongText_iff {c : Configuration} :
    ¬c.HasLongText ↔ (∀ t ∈ [c.vendor, c.product, c.serial.getD ""], FitsPacket t) ∧
      ∀ i ∈ c.interfaces, FitsPacket i.name := by
  have hserial : Utf16.length (c.serial.getD "") ≤ 31 ↔
      ∀ s, c.serial = some s → Utf16.length s ≤ 31 := by
    cases c.serial with
    | none => exact ⟨fun _ => nofun, fun _ => by decide⟩
    | some s => simp
  simp only [HasLongText, not_or, not_exists, not_and, Nat.not_lt, List.forall_mem_cons,
    List.not_mem_nil, false_implies, implies_true, and_true, fitsPacket_iff, hserial, and_assoc]

namespace Assembly

theorem addInterface_of_not_fits {c : Configuration} {a : Assembly} {i : Interface} {k : Nat}
    (hrange : c.InRange i) (h : ¬FitsPacket i.name) :
    addInterface c a (i, k) = .error (.refused .stringTooLong) := by
  have hendpoints := Configuration.endpointsOf?_eq_some.2 ⟨hrange, rfl⟩
  simp only [addInterface, hendpoints, pushString_of_not_fits h]
  rfl

/-- A name that does not fit is what stops the assembly if there is room for all records. -/
theorem foldlM_addInterface_of_not_fits {c : Configuration} {a : Assembly}
    {entries : List (Interface × Nat)} (hranges : ∀ entry ∈ entries, c.InRange entry.1)
    (hroom : a.bytes.length + (c.blocksOf entries).flatten.length ≤ packetLimit)
    (h : ¬∀ entry ∈ entries, FitsPacket entry.1.name) :
    entries.foldlM (addInterface c) a = .error (.refused .stringTooLong) := by
  induction entries generalizing a with
  | nil => exact absurd (List.forall_mem_nil _) h
  | cons entry entries ih =>
    obtain ⟨i, k⟩ := entry
    rw [List.forall_mem_cons] at hranges
    rw [Configuration.blocksOf, List.map_cons, List.flatten_cons, List.length_append,
      ← Nat.add_assoc] at hroom
    rw [List.foldlM_cons]
    by_cases hi : FitsPacket i.name
    · have hadd := addInterface_eq_ok_iff.2
        ⟨hranges.1, hi, Nat.le_trans (Nat.le_add_right _ _) hroom, rfl⟩
      rw [List.forall_mem_cons, and_iff_right hi] at h
      rw [hadd, Guarded.ok_bind]
      refine ih hranges.2 ?_ h
      rw [List.length_append]
      exact hroom
    · rw [addInterface_of_not_fits hranges.1 hi]
      rfl

end Assembly

/-! ### Ranges that do not account for the endpoints -/

namespace Assembly

theorem append_eq_error {a : Assembly} {record : List UInt8} {e : AssemblyError}
    (h : a.append record = .error e) : e = .rangesMismatch := by
  by_cases hfits : a.bytes.length + record.length ≤ packetLimit
  · rw [append, if_pos hfits] at h
    cases h
  · rw [append, if_neg hfits] at h
    exact (Except.error.inj h).symm

/-- An interface whose name fits is only ever refused for its range. -/
theorem addInterface_eq_error {c : Configuration} {a : Assembly} {i : Interface} {k : Nat}
    {e : AssemblyError} (hname : FitsPacket i.name) (h : addInterface c a (i, k) = .error e) :
    e = .rangesMismatch := by
  unfold addInterface at h
  cases hendpoints : c.endpointsOf? i with
  | none =>
    simp only [hendpoints] at h
    exact (Except.error.inj h).symm
  | some endpoints =>
    simp only [hendpoints, pushString_eq_ok.2 ⟨hname, rfl⟩, Guarded.ok_bind] at h
    rcases bind_eq_error.1 h with h | ⟨_, -, h⟩
    · exact append_eq_error h
    · exact foldlM_eq_error (P := (· = .rangesMismatch)) (fun _ _ _ _ h => append_eq_error h) h

end Assembly

namespace DescriptorSet

/-- A long text is refused once it is known that the records fit and are accounted for. -/
theorem assemble_of_long_text {c : Configuration} (hc : c.Accounted)
    (hlength : c.descriptorLength ≤ packetLimit) (h : c.HasLongText) :
    assemble c = .error (.refused .stringTooLong) := by
  have hrecords : 9 + c.blocks.flatten.length ≤ packetLimit := by
    rw [Configuration.length_flatten_blocks hc.inRange, hc.total, ← Nat.add_assoc]
    exact hlength
  rw [assemble, if_neg (Nat.not_lt.2 hlength)]
  show ([c.vendor, c.product, c.serial.getD ""].foldlM pushString [] >>= _) = _
  by_cases hdevice : ∀ s ∈ [c.vendor, c.product, c.serial.getD ""], FitsPacket s
  · -- the texts of the device itself fit, so it is a name
    have hnames : ¬∀ entry ∈ c.interfaces.zipIdx, FitsPacket entry.1.name := by
      rw [Configuration.forall_mem_zipIdx (P := fun i => FitsPacket i.name)]
      exact fun hnames => Configuration.not_hasLongText_iff.2 ⟨hdevice, hnames⟩ h
    rw [foldlM_pushString_eq_ok.2 ⟨hdevice, rfl⟩, Guarded.ok_bind,
      Assembly.foldlM_addInterface_of_not_fits (a := ⟨c.record.bytes, [], _⟩)
        (Configuration.forall_mem_zipIdx.2 hc.inRange) hrecords hnames]
    rfl
  · rw [foldlM_pushString_of_not_fits hdevice]
    rfl

theorem assemble_ne_rangesMismatch {c : Configuration} (hc : c.Accounted) :
    assemble c ≠ .error .rangesMismatch := by
  by_cases hlength : c.descriptorLength ≤ packetLimit
  · by_cases htext : c.HasLongText
    · rw [assemble_of_long_text hc hlength htext]
      exact nofun
    · obtain ⟨htexts, hnames⟩ := Configuration.not_hasLongText_iff.1 htext
      rw [assemble_eq_ok_iff.2 ⟨hlength, htexts, hnames, hc, rfl⟩]
      exact nofun
  · rw [assemble, if_pos (Nat.not_le.1 hlength)]
    exact nofun

/-- Ranges that do not account for the endpoints are found out if nothing is too large. -/
theorem assemble_of_not_accounted {c : Configuration} (hlength : c.descriptorLength ≤ packetLimit)
    (htext : ¬c.HasLongText) (hc : ¬c.Accounted) : assemble c = .error .rangesMismatch := by
  obtain ⟨htexts, hnames⟩ := Configuration.not_hasLongText_iff.1 htext
  cases h : assemble c with
  | ok set =>
    obtain ⟨-, -, -, haccounted, -⟩ := assemble_eq_ok_iff.1 h
    exact absurd haccounted hc
  | error e =>
    rw [assemble, if_neg (Nat.not_lt.2 hlength)] at h
    change ([c.vendor, c.product, c.serial.getD ""].foldlM pushString [] >>= _) = _ at h
    rw [foldlM_pushString_eq_ok.2 ⟨htexts, rfl⟩, Guarded.ok_bind] at h
    rcases bind_eq_error.1 h with h | ⟨a, -, h⟩
    · rw [foldlM_eq_error (fun _ entry _ hentry h => Assembly.addInterface_eq_error
        (Configuration.forall_mem_zipIdx (P := fun i => FitsPacket i.name) |>.2 hnames entry hentry)
        h) h]
    · by_cases htotal : a.bytes.length = c.descriptorLength
      · rw [if_pos htotal] at h
        cases h
      · rw [if_neg htotal] at h
        exact h.symm

end DescriptorSet

namespace Guarded

/-! ### Assemblies that agree -/

/-- What can go wrong in the assembly of a configuration. -/
inductive Mismatch (c : Configuration) : Fault → Prop
  /-- The range of an interface does not lie in the list of endpoints. -/
  | range {i : Interface} (hi : i ∈ c.interfaces) (h : ¬c.InRange i) :
      Mismatch c (.range i.start i.stop c.endpoints.length)
  /-- A record would end behind the block. -/
  | overrun {used stop : Nat} (h : packetLimit < stop) : Mismatch c (.range used stop packetLimit)
  /-- The records are together not as long as the lists say. -/
  | records {used : Nat} (h : used ≠ c.descriptorLength) :
      Mismatch c (.records used c.descriptorLength)

/-- A guarded step of the assembly and a plain one come to the same. What the plain one reports as a
mismatch goes wrong in the guarded one. -/
inductive Agree {α β : Type} (c : Configuration) (R : α → β → Prop) :
    Except Stop α → Except AssemblyError β → Prop
  /-- Both succeed. -/
  | ok {a : α} {b : β} (h : R a b) : Agree c R (.ok a) (.ok b)
  /-- Both refuse. -/
  | refused (reason : Refusal) : Agree c R (.error (.refused reason)) (.error (.refused reason))
  /-- The ranges do not account for the endpoints. -/
  | mismatch {f : Fault} (h : Mismatch c f) : Agree c R (.error (.fault f)) (.error .rangesMismatch)

theorem lift_foldlM {α β : Type} {f : β → α → Except Fault β} {l : List α} {b : β} :
    lift (l.foldlM f b) = l.foldlM (fun b a => lift (f b a)) b := by
  induction l generalizing b with
  | nil => rfl
  | cons a l ih =>
    rw [List.foldlM_cons, List.foldlM_cons]
    cases f b a with
    | error e => rfl
    | ok b' => exact ih

namespace Agree

variable {α β γ δ : Type} {c : Configuration} {R : α → β → Prop} {S : γ → δ → Prop}

theorem bind {x : Except Stop α} {y : Except AssemblyError β} {f : α → Except Stop γ}
    {g : β → Except AssemblyError δ} (h : Agree c R x y)
    (h' : ∀ a b, R a b → Agree c S (f a) (g b)) : Agree c S (x >>= f) (y >>= g) := by
  cases h with
  | ok hr => exact h' _ _ hr
  | refused reason => exact .refused reason
  | mismatch hf => exact .mismatch hf

theorem foldlM {f : α → γ → Except Stop α} {g : β → γ → Except AssemblyError β} {l : List γ}
    (hstep : ∀ x ∈ l, ∀ a b, R a b → Agree c R (f a x) (g b x)) {a : α} {b : β} (h : R a b) :
    Agree c R (l.foldlM f a) (l.foldlM g b) := by
  induction l generalizing a b with
  | nil => exact .ok h
  | cons x l ih =>
    rw [List.forall_mem_cons] at hstep
    rw [List.foldlM_cons, List.foldlM_cons]
    exact (hstep.1 a b h).bind fun _ _ h => ih hstep.2 h

theorem eq_ok_iff {x : Except Stop α} {y : Except AssemblyError α} (h : Agree c Eq x y) (a : α) :
    x = .ok a ↔ y = .ok a := by
  cases h with
  | ok h =>
    subst h
    rw [Except.ok.injEq, Except.ok.injEq]
  | refused reason => exact ⟨nofun, nofun⟩
  | mismatch hf => exact ⟨nofun, nofun⟩

theorem exists_fault {x : Except Stop α} {y : Except AssemblyError β} (h : Agree c R x y)
    (hy : y = .error .rangesMismatch) : ∃ f, Mismatch c f ∧ x = .error (.fault f) := by
  cases h with
  | ok h => cases hy
  | refused reason => cases hy
  | mismatch hf => exact ⟨_, hf, rfl⟩

end Agree

/-! ### The steps of the assembly -/

/-- The block of memory holds what the plain assembly has put together. -/
structure Block.Holds (b : Block) (a : Assembly) : Prop where
  /-- The records. -/
  bytes : a.bytes = b.memory.readBytes 0 b.used
  /-- They lie inside the block. -/
  room : b.used ≤ packetLimit
  /-- Where interfaces start. -/
  starts : a.starts = b.starts
  /-- The strings. -/
  strings : a.strings = b.strings

theorem Block.Holds.length_eq {b : Block} {a : Assembly} (h : b.Holds a) :
    a.bytes.length = b.used := by
  rw [h.bytes, Memory.length_readBytes]

variable {c : Configuration}

/-- A record is copied behind those before it, or runs over the end in both assemblies. -/
theorem agree_append {b : Block} {a : Assembly} (h : b.Holds a) {record : List UInt8}
    (hrecord : record.length ≤ packetLimit) :
    Agree c Block.Holds (lift (append b record)) (a.append record) := by
  have hsum : sum sizeWidth b.used record.length = .ok (b.used + record.length) :=
    sum_eq (Nat.lt_of_le_of_lt (Nat.add_le_add h.room hrecord) (by decide))
  rw [append, hsum, ok_bind, Assembly.append, h.length_eq]
  by_cases hroom : b.used + record.length ≤ packetLimit
  · rw [fill_eq _ _ _ hroom, if_pos hroom]
    refine .ok ⟨?_, hroom, h.starts, h.strings⟩
    show a.bytes ++ record = (b.memory.writeBytes b.used record).readBytes 0 _
    rw [b.memory.readBytes_writeBytes_behind _ _ hroom, h.bytes]
  · rw [fill_eq_error hroom, if_neg hroom]
    exact .mismatch (.overrun (Nat.not_le.1 hroom))

theorem agree_appendAll {b : Block} {a : Assembly} (h : b.Holds a)
    (endpoints : List EndpointDescription) :
    Agree c Block.Holds (lift (endpoints.foldlM (fun b e => append b e.record.bytes) b))
      (endpoints.foldlM (fun a e => a.append e.record.bytes) a) := by
  rw [lift_foldlM]
  refine Agree.foldlM ?_ h
  intro e _ b a h
  have hrecord : e.record.bytes.length ≤ packetLimit := by
    rw [EndpointRecord.length_bytes]
    decide
  exact agree_append h hrecord

/-- A text that takes less than half of what can be addressed is added in both, or in none. -/
theorem agree_pushString {s : String} (hs : Utf16.length s < 2 ^ 31 - 1) (strings : List String) :
    Agree c Eq (pushString strings s) (UsbGadget.pushString strings s) := by
  have hunits : product sizeWidth 2 (Utf16.length s) = .ok (2 * Utf16.length s) :=
    product_eq (by rw [sizeWidth]; omega)
  have hsum : sum sizeWidth 2 (2 * Utf16.length s) = .ok (2 + 2 * Utf16.length s) :=
    sum_eq (by rw [sizeWidth]; omega)
  unfold pushString
  rw [hunits]
  show Agree _ _ (lift (sum sizeWidth 2 (2 * Utf16.length s)) >>= _) _
  rw [hsum, UsbGadget.pushString]
  show Agree _ _ (if packetLimit < stringDescriptorLength s then _ else _) _
  by_cases hlong : packetLimit < stringDescriptorLength s
  · rw [if_pos hlong, if_pos hlong]
    exact .refused _
  · rw [if_neg hlong, if_neg hlong]
    exact .ok rfl

theorem nameString_eq (i : Interface) {position : Nat} (h : position < 252) :
    nameString i position = .ok (i.nameString position) := by
  unfold nameString Interface.nameString
  by_cases hname : i.name = ""
  · rw [if_pos hname, if_pos hname]
    rfl
  · have hposition : (UInt8.ofNat position).toNat = position :=
      UInt8.toNat_ofNat_of_lt' (show position < 256 by omega)
    rw [if_neg hname, if_neg hname, hposition,
      sum_eq (show 4 + position < 256 by omega), ok_bind]
    show Except.ok (UInt8.ofNat (4 + position)) = .ok (4 + UInt8.ofNat position)
    rw [UInt8.ofNat_add]
    rfl

theorem slice_endpoints {i : Interface} (hi : c.InRange i) :
    slice c.endpoints i.start i.stop = .ok (c.endpointsOf i) := by
  have hsome : c.endpointsOf? i = _ := if_pos hi
  rw [slice_eq hi.1 hi.2, Configuration.endpointsOf, hsome]
  rfl

/-- The block of an interface is added as the plain assembly adds it, whatever its range is. -/
theorem agree_addRecords {b : Block} {a : Assembly} {i : Interface} {k : Nat} (h : b.Holds a)
    (hi : i ∈ c.interfaces) (hk : k < 252) (hname : Utf16.length i.name < 2 ^ 31 - 1) :
    Agree c Block.Holds (addRecords c b (i, k)) (Assembly.addInterface c a (i, k)) := by
  unfold addRecords Assembly.addInterface
  by_cases hrange : c.InRange i
  · have hsome : c.endpointsOf? i = some (c.endpointsOf i) :=
      Configuration.endpointsOf?_eq_some.2 ⟨hrange, rfl⟩
    simp only [slice_endpoints hrange, hsome, nameString_eq i hk, ← h.strings]
    refine (agree_pushString hname a.strings).bind ?_
    rintro strings _ rfl
    have hstart : ({ b with strings := strings, starts := b.starts ++ [b.used] } : Block).Holds
        { a with strings := strings, starts := a.starts ++ [a.bytes.length] } :=
      ⟨h.bytes, h.room, by rw [h.starts, h.length_eq], rfl⟩
    refine (agree_append hstart (by rw [InterfaceRecord.length_bytes]; decide)).bind ?_
    exact fun _ _ h => agree_appendAll h _
  · have hnone : c.endpointsOf? i = none := if_neg hrange
    simp only [slice_eq_error hrange, hnone]
    exact .mismatch (.range hi hrange)

/-! ### The assembly as a whole -/

theorem descriptorLength_eq (hinterfaces : c.interfaces.length ≤ maxInterfaces)
    (hendpoints : c.endpoints.length ≤ maxEndpoints) :
    descriptorLength c = .ok c.descriptorLength := by
  rw [maxInterfaces] at hinterfaces
  rw [maxEndpoints] at hendpoints
  rw [descriptorLength, product_eq (by rw [sizeWidth]; omega), ok_bind,
    sum_eq (by rw [sizeWidth]; omega), ok_bind, product_eq (by rw [sizeWidth]; omega), ok_bind,
    sum_eq (by rw [sizeWidth]; omega), Configuration.descriptorLength]
  congr 1
  omega

/-- A configuration that is too large is refused before anything else is looked at. -/
theorem assemble_of_too_large (hinterfaces : c.interfaces.length ≤ maxInterfaces)
    (hendpoints : c.endpoints.length ≤ maxEndpoints) (h : packetLimit < c.descriptorLength) :
    assemble c = .error (.refused .descriptorTooLarge) := by
  rw [assemble, descriptorLength_eq hinterfaces hendpoints]
  exact if_pos h

/-- The guarded assembly of a configuration and the plain one agree, whatever its ranges are. -/
theorem agree_assemble (hinterfaces : c.interfaces.length ≤ maxInterfaces)
    (hendpoints : c.endpoints.length ≤ maxEndpoints)
    (htexts : ∀ t ∈ [c.vendor, c.product, c.serial.getD ""], Utf16.length t < 2 ^ 31 - 1)
    (hnames : ∀ i ∈ c.interfaces, Utf16.length i.name < 2 ^ 31 - 1) :
    Agree c Eq (assemble c) (DescriptorSet.assemble c) := by
  by_cases hlength : packetLimit < c.descriptorLength
  · rw [assemble_of_too_large hinterfaces hendpoints hlength, DescriptorSet.assemble,
      if_pos hlength]
    exact .refused _
  rw [assemble, descriptorLength_eq hinterfaces hendpoints, DescriptorSet.assemble]
  show Agree c Eq (if packetLimit < c.descriptorLength then _ else _) _
  rw [if_neg hlength, if_neg hlength]
  show Agree c Eq (List.foldlM pushString [] _ >>= _) (List.foldlM UsbGadget.pushString [] _ >>= _)
  refine (Agree.foldlM (fun s hs _ _ h => h ▸ agree_pushString (htexts s hs) _) rfl).bind ?_
  rintro strings _ rfl
  -- the block starts out empty, and the record of the configuration comes first
  have hempty : (⟨.zero, 0, [], strings⟩ : Block).Holds ⟨[], [], strings⟩ :=
    ⟨rfl, Nat.zero_le _, rfl, rfl⟩
  have hheader : Agree c Block.Holds (lift (append _ c.record.bytes)) (.ok _) :=
    agree_append hempty (show 9 ≤ packetLimit by decide)
  refine (hheader.bind fun b a h => Agree.foldlM ?_ h).bind ?_
  · rintro ⟨i, k⟩ hentry _ _ h
    have hi : i ∈ c.interfaces := List.fst_mem_of_mem_zipIdx hentry
    have hk : k < c.interfaces.length := by
      simpa using (List.mem_zipIdx hentry).2.1
    rw [maxInterfaces] at hinterfaces
    exact agree_addRecords h hi (by omega) (hnames i hi)
  · intro b a h
    rw [h.length_eq]
    by_cases htotal : b.used = c.descriptorLength
    · have hview : view b.memory 0 c.descriptorLength = .ok a.bytes := by
        rw [view_eq (Nat.zero_le _) (Nat.not_lt.1 hlength), h.bytes, htotal, Nat.sub_zero]
      rw [if_neg (not_not.2 htotal), if_pos htotal, hview, ← h.starts, ← h.strings]
      exact .ok rfl
    · rw [if_pos htotal, if_neg htotal]
      exact .mismatch (.records htotal)

end Guarded

namespace DescriptorSet

/-- A configuration that is small enough, with texts that are short enough, has descriptors exactly
when its ranges account for its endpoints; otherwise the assembly goes wrong. A configuration that
is too large is refused for that, whatever its texts and ranges are. -/
theorem assemble_by_hand (c : Configuration) :
    (9 + 9 * c.interfaces.length + 7 * c.endpoints.length ≤ 64 → ¬c.HasLongText →
      (∀ set, assemble c = .ok set ↔ c.Accounted ∧ set = c.descriptors) ∧
      (∀ set, Guarded.assemble c = .ok set ↔ c.Accounted ∧ set = c.descriptors) ∧
      (¬c.Accounted → assemble c = .error .rangesMismatch ∧
        ∃ f, Guarded.Mismatch c f ∧ Guarded.assemble c = .error (.fault f))) ∧
    (64 < 9 + 9 * c.interfaces.length + 7 * c.endpoints.length →
      assemble c = .error (.refused .descriptorTooLarge) ∧
      (c.interfaces.length ≤ maxInterfaces → c.endpoints.length ≤ maxEndpoints →
        Guarded.assemble c = .error (.refused .descriptorTooLarge))) := by
  refine ⟨fun hlength htext => ?_, fun hlength =>
    ⟨if_pos hlength, fun hinterfaces hendpoints =>
      Guarded.assemble_of_too_large hinterfaces hendpoints hlength⟩⟩
  obtain ⟨htexts, hnames⟩ := Configuration.not_hasLongText_iff.1 htext
  have hplain (set : DescriptorSet) : assemble c = .ok set ↔ c.Accounted ∧ set = c.descriptors := by
    rw [assemble_eq_ok_iff, and_iff_right (show c.descriptorLength ≤ packetLimit from hlength),
      and_iff_right htexts, and_iff_right hnames]
  -- what fits in a packet is far below every limit of the guarded assembly
  have hshort {s : String} (hs : FitsPacket s) : Utf16.length s < 2 ^ 31 - 1 :=
    Nat.lt_of_le_of_lt (fitsPacket_iff.1 hs) (by decide)
  have hagree : Guarded.Agree c Eq (Guarded.assemble c) (assemble c) :=
    Guarded.agree_assemble (by rw [maxInterfaces]; omega) (by rw [maxEndpoints]; omega)
      (fun t ht => hshort (htexts t ht)) fun i hi => hshort (hnames i hi)
  refine ⟨hplain, fun set => (hagree.eq_ok_iff set).trans (hplain set), fun hc => ?_⟩
  have hmismatch := assemble_of_not_accounted hlength htext hc
  exact ⟨hmismatch, hagree.exists_fault hmismatch⟩

end DescriptorSet

/-- Two endpoints, and interfaces with ranges chosen by hand. -/
def Configuration.byHand (ranges : List (Nat × Nat)) : Configuration where
  interfaces := ranges.map fun (start, stop) => ⟨⟨1, 0xFF, 0, 0, ""⟩, start, stop⟩
  endpoints := [.standard .input 1 .bulk 64 0, .standard .output 1 .bulk 64 1]

theorem Configuration.not_hasLongText_byHand (ranges : List (Nat × Nat)) :
    ¬(byHand ranges).HasLongText := by
  have hempty : FitsPacket "" := fitsPacket_iff.2 (by decide)
  refine not_hasLongText_iff.2 ⟨?_, fun i hi => ?_⟩
  · simp [byHand, hempty]
  · obtain ⟨_, -, rfl⟩ := List.mem_map.1 hi
    exact hempty

namespace DescriptorSet

/-- One endpoint used twice and the other not at all is accounted for. Ranges that are too long
together are found out at the end, or as soon as the records run over the block; so is a range that
goes on behind the list or runs backwards. -/
theorem assemble_by_hand_ranges :
    (∃ set, Guarded.assemble (.byHand [(0, 1), (0, 1)]) = .ok set) ∧
    (∀ ranges ∈ [[(0, 2), (0, 2)], [(0, 2), (0, 2), (0, 2)], [(1, 3)], [(2, 0), (0, 2)]],
      ∃ f, Guarded.assemble (.byHand ranges) = .error (.fault f)) ∧
    Guarded.assemble (.byHand [(3, 0), (3, 0), (3, 0), (3, 0), (3, 0)]) =
      .error (.refused .descriptorTooLarge) := by
  have htext := Configuration.not_hasLongText_byHand
  have hsmall (ranges : List (Nat × Nat)) (h : ranges.length ≤ 4) :=
    (assemble_by_hand (.byHand ranges)).1 (by simp [Configuration.byHand]; omega) (htext ranges)
  refine ⟨⟨_, ((hsmall _ (by decide)).2.1 _).2 ⟨by decide, rfl⟩⟩, ?_,
    ((assemble_by_hand _).2 (by decide)).2 (by decide) (by decide)⟩
  have hranges : ∀ ranges ∈ [[(0, 2), (0, 2)], [(0, 2), (0, 2), (0, 2)], [(1, 3)],
      [(2, 0), (0, 2)]], ranges.length ≤ 4 ∧ ¬(Configuration.byHand ranges).Accounted := by
    decide
  intro ranges h
  obtain ⟨hlength, hc⟩ := hranges ranges h
  obtain ⟨f, -, hf⟩ := ((hsmall ranges hlength).2.2 hc).2
  exact ⟨f, hf⟩

end DescriptorSet

end UsbGadget
