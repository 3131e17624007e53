import UsbGadget.Guarded.Session
import UsbGadget.Proofs.HandmadeConfigurations

/-!
# Opening never goes wrong

Whatever a description says, the guarded check, the guarded assembly and the guarded making of
endpoints come to what the plain ones come to: a session, or a refusal with the same reason
(`Alike`). In particular the ranges that the check makes are in order where the assembly uses them,
the records end where they have to, and no sum is too large for its width.

* `Guarded.alike_check`, `Guarded.alike_assemble` and `Guarded.alike_endpointsFor` are the three
  parts;
* `Guarded.settle_openSession` is the main statement.

The length of a text is the one number here that has no limit of its own. Twice that length and two
more fits in an address, since no object takes up half of what can be addressed
(`DeviceDescription.InMemory`).
-/

namespace UsbGadget

/-! ### Texts in memory -/

theorem Utf16.length_ofChar_le (c : Char) : (ofChar c).length ≤ c.utf8Size := by
  unfold ofChar
  by_cases h : c.toNat < 0x10000
  · rw [if_pos h]
    exact c.utf8Size_pos
  · rw [if_neg h]
    have hone : c.utf8Size ≠ 1 := by
      rw [Ne, Char.utf8Size_eq_one_iff, UInt32.le_iff_toNat_le]
      change ¬c.toNat ≤ 127
      omega
    have hpos := c.utf8Size_pos
    show 2 ≤ c.utf8Size
    omega

/-- A text takes no more units in UTF-16 than bytes in memory. -/
theorem Utf16.length_le_utf8ByteSize (s : String) : Utf16.length s ≤ s.utf8ByteSize := by
  rw [String.utf8ByteSize, ← String.utf8Encode_toList, List.utf8Encode, List.size_toByteArray,
    Utf16.length, encode, ofChars]
  induction s.toList with
  | nil => exact Nat.le_refl _
  | cons c cs ih =>
    rw [List.flatMap_cons, List.flatMap_cons, List.length_append, List.length_append,
      String.length_utf8EncodeChar]
    exact Nat.add_le_add (length_ofChar_le c) ih

/-- A text that lies in memory is smaller than the largest object there can be, which takes up half
of what can be addressed, less one byte. -/
def TextInMemory (text : String) : Prop := text.utf8ByteSize < 2 ^ 31 - 1

namespace DeviceDescription

/-- Every text of a description lies in memory. -/
structure InMemory (d : DeviceDescription) : Prop where
  /-- The vendor's name. -/
  vendor : TextInMemory d.vendor
  /-- The product's name. -/
  product : TextInMemory d.product
  /-- The serial number, if there is one. -/
  serial : ∀ s, d.serial = some s → TextInMemory s
  /-- The names of all interfaces. -/
  names : ∀ i ∈ d.interfaces, TextInMemory i.name

end DeviceDescription

/-! ### Checks that come to the same -/

/-- A guarded check and a plain one come to the same: both succeed, with results that belong
together, or both refuse for the same reason. The guarded one has no fault. -/
inductive Alike {ε α β : Type} (refuse : Refusal → ε) (R : α → β → Prop) :
    Except Stop α → Except ε β → Prop
  /-- Both succeed. -/
  | ok {a : α} {b : β} (h : R a b) : Alike refuse R (.ok a) (.ok b)
  /-- Both refuse. -/
  | refused (reason : Refusal) : Alike refuse R (.error (.refused reason)) (.error (refuse reason))

namespace Alike

variable {ε ε' α β γ δ : Type} {refuse : Refusal → ε} {R : α → β → Prop} {S : γ → δ → Prop}

theorem bind {x : Except Stop α} {y : Except ε β} {f : α → Except Stop γ} {g : β → Except ε δ}
    (h : Alike refuse R x y)
    (h' : ∀ a b, R a b → y = .ok b → Alike refuse S (f a) (g b)) :
    Alike refuse S (x >>= f) (y >>= g) := by
  cases h with
  | ok hr => exact h' _ _ hr rfl
  | refused reason => exact .refused reason

theorem mapError {x : Except Stop α} {y : Except ε β} {f : ε → ε'} (h : Alike refuse R x y)
    (refuse' : Refusal → ε') (hf : ∀ reason, f (refuse reason) = refuse' reason) :
    Alike refuse' R x (y.mapError f) := by
  cases h with
  | ok hr => exact .ok hr
  | refused reason =>
    rw [Except.mapError, hf]
    exact .refused reason

theorem ite {p : Prop} [Decidable p] {x : Except Stop α} {y : Except ε β} {reason : Refusal}
    (h : ¬p → Alike refuse R x y) :
    Alike refuse R (if p then .error (.refused reason) else x)
      (if p then .error (refuse reason) else y) := by
  by_cases hp : p
  · rw [if_pos hp, if_pos hp]
    exact .refused reason
  · rw [if_neg hp, if_neg hp]
    exact h hp

theorem map {x : Except Stop α} {y : Except ε β} {f : α → γ} {g : β → δ} (h : Alike refuse R x y)
    (h' : ∀ a b, R a b → S (f a) (g b)) :
    Alike refuse S (x >>= fun a => pure (f a)) (y.map g) := by
  cases h with
  | ok hr => exact .ok (h' _ _ hr)
  | refused reason => exact .refused reason

theorem foldlM {f : α → γ → Except Stop α} {g : α → γ → Except ε α} {l : List γ}
    (h : ∀ c ∈ l, ∀ a, Alike refuse Eq (f a c) (g a c)) (a : α) :
    Alike refuse Eq (l.foldlM f a) (l.foldlM g a) := by
  induction l generalizing a with
  | nil => exact .ok rfl
  | cons c l ih =>
    rw [List.forall_mem_cons] at h
    rw [List.foldlM_cons, List.foldlM_cons]
    refine (h.1 a).bind ?_
    rintro b _ rfl -
    exact ih h.2 b

theorem mapM {f : α → Except Stop β} {g : α → Except ε β} {l : List α}
    (h : ∀ a ∈ l, Alike refuse Eq (f a) (g a)) : Alike refuse Eq (l.mapM f) (l.mapM g) := by
  induction l with
  | nil => exact .ok rfl
  | cons a l ih =>
    rw [List.forall_mem_cons] at h
    rw [List.mapM_cons, List.mapM_cons]
    refine h.1.bind ?_
    rintro b _ rfl -
    refine (ih h.2).bind ?_
    rintro bs _ rfl -
    exact .ok rfl

end Alike

namespace Guarded

open InterfaceDescription

theorem settle_of_alike {α : Type} {x : Except Stop α} {y : Except OpenError α}
    (h : Alike .refused Eq x y) : settle x = .ok y := by
  cases h with
  | ok h =>
    subst h
    rfl
  | refused reason => rfl

/-! ### The check -/

theorem alike_bufferOffset (e : EndpointDescription) :
    Alike id Eq (bufferOffset e) e.bufferOffset := by
  unfold bufferOffset EndpointDescription.bufferOffset
  cases he : e.dataBuffer.offset Dpram.base with
  | none => exact .refused _
  | some o =>
    -- an offset and a packet size are far from the end of a word
    have ho : o < Dpram.size := ((BufferAddress.offset_eq_some (by decide)).1 he).2
    have hle := legalPacketSize_toNat_le e.maxPacketSize
    have hsum : sum 32 o (legalPacketSize e.maxPacketSize).toNat = .ok _ :=
      sum_eq (show _ < 4294967296 by simp only [Dpram.size] at ho; omega)
    simp only [hsum]
    exact .ite fun _ => .ite fun _ => .ok rfl

theorem alike_checkEndpoint (e : EndpointDescription) :
    Alike id Eq (checkEndpoint e) e.checked := by
  refine (alike_bufferOffset e).bind ?_
  rintro _ _ - -
  by_cases h : e.registersExist = true
  · rw [if_pos h, if_pos h]
    exact .ok rfl
  · rw [if_neg h, if_neg h]
    exact .refused _

theorem alike_addEndpoint (e : EndpointDescription) (t : Tables) :
    Alike id Eq (addEndpoint t e) (t.addEndpoint e) := by
  refine (alike_checkEndpoint e).bind ?_
  rintro e' _ rfl -
  by_cases h : t.endpoints.length < maxEndpoints
  · rw [if_pos h, if_pos h]
    exact .ok rfl
  · rw [if_neg h, if_neg h]
    exact .refused _

theorem alike_addInterface (i : InterfaceDescription) (t : Tables) :
    Alike id Eq (addInterface t i) (t.addInterface i) := by
  refine (Alike.foldlM (fun e _ t => alike_addEndpoint e t) t).bind ?_
  rintro t' _ rfl -
  by_cases h : t'.interfaces.length < maxInterfaces
  · rw [if_pos h, if_pos h]
    exact .ok rfl
  · rw [if_neg h, if_neg h]
    exact .refused _

/-- The check never goes wrong. -/
theorem alike_check (d : DeviceDescription) : Alike id Eq (check d) d.checked := by
  unfold check DeviceDescription.checked
  rw [slice_front]
  refine .ite fun _ => ?_
  refine (Alike.foldlM (fun i _ t => alike_addInterface i t) {}).bind ?_
  rintro t _ rfl -
  exact .ok rfl

/-! ### The assembly -/

/-- Assemblies that agree come to the same unless the ranges are at fault. -/
theorem Agree.alike {α β : Type} {c : Configuration} {R : α → β → Prop} {x : Except Stop α}
    {y : Except AssemblyError β} (h : Agree c R x y) (hy : y ≠ .error .rangesMismatch) :
    Alike .refused R x y := by
  cases h with
  | ok hr => exact .ok hr
  | refused reason => exact .refused reason
  | mismatch hf => exact absurd rfl hy

/-- The assembly never goes wrong if the ranges account for the endpoints and there are no more
interfaces and endpoints than the check lets through. -/
theorem alike_assemble {c : Configuration} (hc : c.Accounted)
    (hinterfaces : c.interfaces.length ≤ maxInterfaces)
    (hendpoints : c.endpoints.length ≤ maxEndpoints)
    (htexts : ∀ t ∈ [c.vendor, c.product, c.serial.getD ""], TextInMemory t)
    (hnames : ∀ i ∈ c.interfaces, TextInMemory i.name) :
    Alike .refused Eq (assemble c) (DescriptorSet.assemble c) := by
  have hlength {s : String} (hs : TextInMemory s) : Utf16.length s < 2 ^ 31 - 1 :=
    Nat.lt_of_le_of_lt (Utf16.length_le_utf8ByteSize s) hs
  exact (agree_assemble hinterfaces hendpoints (fun t ht => hlength (htexts t ht))
    fun i hi => hlength (hnames i hi)).alike (DescriptorSet.assemble_ne_rangesMismatch hc)

/-! ### Sessions -/

theorem alike_makeEndpoint (interface : UInt8) (e : EndpointDescription) :
    Alike id Eq (makeEndpoint interface e) (Endpoint.ofDescription interface e) := by
  refine (alike_bufferOffset e).map ?_
  rintro o _ rfl
  rfl

/-- The making of endpoints never goes wrong if the ranges are in order. -/
theorem alike_endpointsFor {c : Configuration} (hc : ∀ i ∈ c.interfaces, c.InRange i) :
    Alike id Eq (endpointsFor c) (Session.endpointsFor c) := by
  refine (Alike.mapM ?_).bind ?_
  · intro i hi
    rw [slice_endpoints (hc i hi)]
    exact .mapM fun e _ => alike_makeEndpoint i.id e
  · rintro groups _ rfl -
    exact .ok rfl

theorem textInMemory_serial {serial : Option String} (h : ∀ s, serial = some s → TextInMemory s) :
    TextInMemory ((serial.filter (· ≠ "")).getD "") := by
  cases hs : serial.filter (· ≠ "") with
  | none => exact show (0 : Nat) < 2 ^ 31 - 1 by decide
  | some s => exact h s (Option.eq_some_of_filter_eq_some hs)

/-- Opening never goes wrong: what comes of a description is a session, or a refusal, and the same
as if nothing were guarded. -/
theorem settle_openSession {d : DeviceDescription} (hd : d.InMemory) :
    settle (openSession d) = .ok (Session.ofDescription d) := by
  refine settle_of_alike (((alike_check d).mapError OpenError.refused fun _ => rfl).bind ?_)
  rintro c _ rfl hc
  obtain ⟨-, -, hinterfaces, hendpoints, rfl⟩ :=
    DeviceDescription.checked_eq_ok_iff.1 (mapError_eq_ok.1 hc)
  have haccounted := d.accounted_configuration
  have hassemble : Alike .refused Eq (assemble d.configuration)
      (DescriptorSet.assemble d.configuration) := by
    refine alike_assemble haccounted ?_ ?_ ?_ ?_
    · rw [DeviceDescription.configuration, Interface.length_row]
      exact hinterfaces
    · rw [DeviceDescription.configuration, length_tidiedEndpoints,
        InterfaceDescription.endpointCount_cons, Nat.add_comm]
      exact hendpoints
    · simp only [List.forall_mem_cons, List.not_mem_nil, false_implies, implies_true, and_true]
      exact ⟨hd.vendor, hd.product, textInMemory_serial hd.serial⟩
    · rw [← List.forall_mem_map (f := fun i : Interface => i.name) (P := TextInMemory),
        DeviceDescription.configuration, Interface.map_name_row, List.forall_mem_map,
        List.forall_mem_cons]
      exact ⟨by unfold TextInMemory; decide +kernel, hd.names⟩
  refine (hassemble.mapError OpenError.refused fun _ => rfl).bind ?_
  rintro set _ rfl -
  refine ((alike_endpointsFor haccounted.inRange).mapError OpenError.refused fun _ => rfl).bind ?_
  rintro endpoints _ rfl -
  exact .ok rfl

end Guarded

end UsbGadget
