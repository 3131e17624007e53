import UsbGadget.Proofs.Layout

/-!
# Which refusal is reported

The check of a description reports the first thing that is wrong with it. What it looks at, and in
which order, is a list (`DeviceDescription.sites`): every interface of the caller after its
endpoints. What is wrong with a site stands in a list too (`Site.violations`).

* `EndpointDescription.checked_eq_verdict`, `Tables.addInterface_eq_verdict` and
  `Tables.foldlM_addInterface_eq_verdict` take the loops of the check apart: each reports the first
  of the violations at the sites that it goes through;
* `DeviceDescription.checked_eq_error_iff` is the main statement.

The check looks at no more than `listLimit` interfaces, but it never comes to the last of them: the
eighth is one too many.
-/

namespace UsbGadget

/-! ### Verdicts -/

/-- A value, unless something is wrong with it; then the first thing that is. -/
def verdict {α : Type} (violations : List Refusal) (a : α) : Except Refusal α :=
  match violations with
  | [] => .ok a
  | r :: _ => .error r

/-- A refusal, if there is a reason for it. -/
def Refusal.when (r : Refusal) (p : Prop) [Decidable p] : List Refusal := if p then [r] else []

theorem Refusal.when_ne_nil {r : Refusal} {p : Prop} [Decidable p] : r.when p ≠ [] ↔ p := by
  unfold Refusal.when
  split_ifs with h <;> simp [h]

section Verdict

variable {α β : Type} {violations violations' : List Refusal} {a : α} {b : β} {r : Refusal}

theorem verdict_bind {f : α → Except Refusal β} (h : f a = verdict violations' b) :
    verdict violations a >>= f = verdict (violations ++ violations') b := by
  cases violations with
  | nil => exact h
  | cons r rs => rfl

theorem verdict_bind_ok {f : α → β} :
    (verdict violations a >>= fun a => .ok (f a)) = verdict violations (f a) := by
  cases violations <;> rfl

theorem verdict_when {p : Prop} [Decidable p] :
    verdict (r.when p) a = if p then .error r else .ok a := by
  unfold Refusal.when
  split_ifs <;> rfl

theorem verdict_when_append {p : Prop} [Decidable p] :
    verdict (r.when p ++ violations) a = if p then .error r else verdict violations a := by
  unfold Refusal.when
  split_ifs <;> rfl

theorem verdict_eq_error : verdict violations a = .error r ↔ violations.head? = some r := by
  cases violations with
  | nil => exact ⟨nofun, nofun⟩
  | cons r' rs => simp [verdict]

end Verdict

/-! ### What is wrong with an endpoint -/

/-- The address is one of the packet memory. -/
def BufferAddress.InMemory (a : BufferAddress) : Prop :=
  Dpram.base.toNat ≤ a.raw.toNat ∧ a.raw.toNat < Dpram.base.toNat + Dpram.size

instance (a : BufferAddress) : Decidable a.InMemory := inferInstanceAs (Decidable (_ ∧ _))

theorem BufferAddress.offset_base (a : BufferAddress) : a.offset Dpram.base =
    if a.InMemory then some (a.raw.toNat - Dpram.base.toNat) else none := by
  have hsome (o : Nat) : a.offset Dpram.base = some o ↔ a.InMemory ∧ _ :=
    offset_eq_some_iff_distance (by decide)
  split_ifs with h
  · exact (hsome _).2 ⟨h, rfl⟩
  · rw [Option.eq_none_iff_forall_ne_some]
    intro o ho
    exact h ((hsome o).1 ho).1

namespace EndpointDescription

/-- The endpoint's buffer is not in the packet memory, is on top of the control registers, or does
not hold a packet. -/
def BufferOutside (e : EndpointDescription) : Prop :=
  ¬e.dataBuffer.InMemory ∨
    e.dataBuffer.raw.toNat - Dpram.base.toNat < Dpram.ep0Buffer ∨
    Dpram.size < e.dataBuffer.raw.toNat - Dpram.base.toNat + (legalPacketSize e.maxPacketSize).toNat

/-- The endpoint's buffer does not start a slot. -/
def BufferMisaligned (e : EndpointDescription) : Prop :=
  (e.dataBuffer.raw.toNat - Dpram.base.toNat) % Dpram.bufferSize ≠ 0

/-- The endpoint names a control register that does not exist. -/
def LacksRegister (e : EndpointDescription) : Prop :=
  Dpram.bufferControls ≤ e.bufferControl ∨
    ∃ i, e.endpointControl = some i ∧ Dpram.endpointControls ≤ i

instance (e : EndpointDescription) : Decidable e.BufferOutside :=
  inferInstanceAs (Decidable (_ ∨ _))

instance (e : EndpointDescription) : Decidable e.BufferMisaligned :=
  inferInstanceAs (Decidable (_ ≠ _))

instance (e : EndpointDescription) : Decidable e.LacksRegister :=
  inferInstanceAs (Decidable (_ ∨ ∃ i ∈ e.endpointControl, Dpram.endpointControls ≤ i))

/-- What is wrong with an endpoint, in the order in which it is looked for. -/
def violations (e : EndpointDescription) : List Refusal :=
  Refusal.bufferOutsideDpram.when e.BufferOutside ++
    (Refusal.misalignedBuffer.when e.BufferMisaligned ++
      Refusal.noSuchRegister.when e.LacksRegister)

theorem bufferOffset_eq_verdict (e : EndpointDescription) :
    e.bufferOffset = verdict
      (Refusal.bufferOutsideDpram.when e.BufferOutside ++
        Refusal.misalignedBuffer.when e.BufferMisaligned)
      (e.dataBuffer.raw.toNat - Dpram.base.toNat) := by
  unfold bufferOffset
  rw [e.dataBuffer.offset_base, verdict_when_append, verdict_when]
  by_cases h : e.dataBuffer.InMemory
  · rw [if_pos h]
    exact (if_congr (or_iff_right (not_not.2 h)) rfl rfl).symm
  · rw [if_neg h, if_pos (show e.BufferOutside from .inl h)]

theorem registersExist_eq_false_iff {e : EndpointDescription} :
    e.registersExist = false ↔ e.LacksRegister := by
  rw [← Bool.not_eq_true, registersExist_iff, LacksRegister]
  grind

/-- The check of an endpoint reports the first thing that is wrong with it. -/
theorem checked_eq_verdict (e : EndpointDescription) :
    e.checked = verdict e.violations e.tidied := by
  unfold checked violations
  rw [bufferOffset_eq_verdict, ← List.append_assoc]
  refine verdict_bind ?_
  rw [verdict_when]
  by_cases h : e.LacksRegister
  · rw [if_pos h, registersExist_eq_false_iff.2 h]
    rfl
  · rw [if_neg h, Bool.eq_true_of_not_eq_false (mt registersExist_eq_false_iff.1 h)]
    rfl

/-- A buffer at the very end of the memory has room for a packet of 16 bytes, but not for one of
64; that comes before its being misaligned. -/
example :
    let e : EndpointDescription :=
      { standard .input 1 .bulk 64 0 with
        dataBuffer := ⟨Dpram.base + 0xFF0⟩
        bufferControl := 32 }
    e.violations = [.bufferOutsideDpram, .misalignedBuffer, .noSuchRegister] ∧
      { e with maxPacketSize := 16 }.violations = [.misalignedBuffer, .noSuchRegister] := by
  decide

end EndpointDescription

/-! ### What the check looks at -/

/-- Something that the check of a description looks at. -/
inductive Site where
  /-- An endpoint that has `rank` others of the caller before it. -/
  | endpoint (rank : Nat) (e : EndpointDescription)
  /-- An interface that has `rank` others of the caller before it. -/
  | interface (rank : Nat)

namespace Site

/-- What is wrong with a site, in the order in which it is looked for. There is room for 30
endpoints and for seven interfaces besides those of the control endpoint. -/
def violations : Site → List Refusal
  | endpoint rank e => e.violations ++ Refusal.tooManyEndpoints.when (30 ≤ rank)
  | interface rank => Refusal.tooManyInterfaces.when (7 ≤ rank)

/-- An interface with `m` others and `n` endpoints before it: its endpoints, as far as a list of
them counts, and then itself. -/
def ofInterface (m n : Nat) (i : InterfaceDescription) : List Site :=
  ((i.endpoints.take listLimit).zipIdx n).map (fun p => endpoint p.2 p.1) ++ [interface m]

/-- Interfaces in order, with `m` others and `n` endpoints before them. -/
def row (m n : Nat) : List InterfaceDescription → List Site
  | [] => []
  | i :: is => ofInterface m n i ++ row (m + 1) (n + (i.endpoints.take listLimit).length) is

end Site

namespace Tables

/-- The tables with the endpoints of an interface, as far as they count, and the interface. -/
def withInterface (t : Tables) (i : InterfaceDescription) : Tables where
  interfaces := t.interfaces ++ [⟨i.toInterfaceInfo, t.endpoints.length,
    t.endpoints.length + (i.endpoints.take listLimit).length⟩]
  endpoints := t.endpoints ++ (i.endpoints.take listLimit).map (·.tidied)

variable {t : Tables} {m n : Nat}

theorem addEndpoint_eq_verdict (hn : t.endpoints.length = n + 2) (e : EndpointDescription) :
    t.addEndpoint e = verdict (Site.endpoint n e).violations
      { t with endpoints := t.endpoints ++ [e.tidied] } := by
  unfold addEndpoint Site.violations
  rw [e.checked_eq_verdict]
  refine verdict_bind ?_
  rw [verdict_when, hn, maxEndpoints]
  by_cases h : 30 ≤ n
  · rw [if_pos h, if_neg (by omega)]
    rfl
  · rw [if_neg h, if_pos (by omega)]
    rfl

theorem foldlM_addEndpoint_eq_verdict (hn : t.endpoints.length = n + 2)
    (es : List EndpointDescription) :
    es.foldlM addEndpoint t =
      verdict (((es.zipIdx n).map fun p => Site.endpoint p.2 p.1).flatMap Site.violations)
        { t with endpoints := t.endpoints ++ es.map (·.tidied) } := by
  induction es generalizing t n with
  | nil =>
    rw [List.foldlM_nil, List.map_nil, List.append_nil]
    rfl
  | cons e es ih =>
    rw [List.foldlM_cons, addEndpoint_eq_verdict hn, List.zipIdx_cons, List.map_cons,
      List.flatMap_cons]
    refine verdict_bind ?_
    rw [ih (n := n + 1) (by simp; omega), List.map_cons, List.append_assoc, List.singleton_append]

/-- An interface is added with the verdict on the sites that it consists of. -/
theorem addInterface_eq_verdict (hm : t.interfaces.length = m + 1) (hn : t.endpoints.length = n + 2)
    (i : InterfaceDescription) :
    t.addInterface i =
      verdict ((Site.ofInterface m n i).flatMap Site.violations) (t.withInterface i) := by
  unfold addInterface Site.ofInterface
  rw [foldlM_addEndpoint_eq_verdict hn, List.flatMap_append, List.flatMap_singleton]
  refine verdict_bind ?_
  rw [Site.violations, verdict_when, hm, maxInterfaces]
  by_cases h : 7 ≤ m
  · rw [if_pos h, if_neg (by omega)]
    rfl
  · rw [if_neg h, if_pos (by omega), List.length_append, List.length_map]
    rfl

/-- Interfaces are added with the verdict on all sites. -/
theorem foldlM_addInterface_eq_verdict (hm : t.interfaces.length = m + 1)
    (hn : t.endpoints.length = n + 2) (is : List InterfaceDescription) :
    is.foldlM addInterface t =
      verdict ((Site.row m n is).flatMap Site.violations) (is.foldl withInterface t) := by
  induction is generalizing t m n with
  | nil => rfl
  | cons i is ih =>
    rw [List.foldlM_cons, addInterface_eq_verdict hm hn, Site.row, List.flatMap_append,
      List.foldl_cons]
    refine verdict_bind (ih ?_ ?_)
    · simp [withInterface, hm]
    · rw [withInterface, List.length_append, List.length_map, hn, Nat.add_right_comm]

end Tables

/-! ### Interfaces beyond the limit -/

namespace Site

theorem row_append (m n : Nat) (is js : List InterfaceDescription) :
    ∃ n', row m n (is ++ js) = row m n is ++ row (m + is.length) n' js := by
  induction is generalizing m n with
  | nil => exact ⟨n, rfl⟩
  | cons i is ih =>
    obtain ⟨n', hrow⟩ := ih (m + 1) (n + (i.endpoints.take listLimit).length)
    refine ⟨n', ?_⟩
    rw [List.cons_append, row, hrow, row, List.append_assoc, List.length_cons,
      Nat.add_right_comm, Nat.add_assoc m]

theorem interface_mem_row {k : Nat} {is : List InterfaceDescription} (hk : k < is.length)
    (m n : Nat) : interface (m + k) ∈ row m n is := by
  induction is generalizing k m n with
  | nil => cases hk
  | cons i is ih =>
    rw [row, List.mem_append, ofInterface]
    cases k with
    | zero => exact .inl (List.mem_append_right _ List.mem_cons_self)
    | succ k =>
      rw [Nat.add_comm k, ← Nat.add_assoc]
      exact .inr (ih (Nat.lt_of_succ_lt_succ hk) _ _)

/-- Interfaces beyond the limit make no difference to what is reported: with so many, there is
something wrong before. -/
theorem head?_row_take (is : List InterfaceDescription) :
    ((row 0 0 (is.take listLimit)).flatMap violations).head? =
      ((row 0 0 is).flatMap violations).head? := by
  by_cases hlength : is.length ≤ listLimit
  · rw [List.take_of_length_le hlength]
  · obtain ⟨n', hrow⟩ := row_append 0 0 (is.take listLimit) (is.drop listLimit)
    have hmem : interface 7 ∈ row 0 0 (is.take listLimit) := by
      refine interface_mem_row (k := 7) ?_ 0 0
      rw [List.length_take, listLimit] at *
      omega
    have hne : (row 0 0 (is.take listLimit)).flatMap violations ≠ [] :=
      List.ne_nil_of_mem (List.mem_flatMap.2 ⟨_, hmem, List.mem_cons_self⟩)
    rw [List.take_append_drop] at hrow
    rw [hrow, List.flatMap_append, List.head?_append_of_ne_nil _ hne]

end Site

/-! ### The check as a whole -/

namespace DeviceDescription

/-- An interface of the caller, among those that count, has the number of the control interface. -/
def TakesReserved (d : DeviceDescription) : Prop := ∃ i ∈ d.interfaces.take listLimit, i.id = 0

instance (d : DeviceDescription) : Decidable d.TakesReserved :=
  inferInstanceAs (Decidable (∃ i ∈ d.interfaces.take listLimit, i.id = 0))

/-- What the check looks at, in order. -/
def sites (d : DeviceDescription) : List Site := Site.row 0 0 d.interfaces

/-- The first thing that is wrong with a description. A reserved number comes before all others;
then the first site counts with which something is wrong, and of that what is looked for first. -/
def FirstViolation (d : DeviceDescription) (r : Refusal) : Prop :=
  if d.TakesReserved then r = .reservedInterface
  else ∃ before site after, d.sites = before ++ site :: after ∧
    (∀ s ∈ before, s.violations = []) ∧ site.violations.head? = some r

/-- The check as a verdict. -/
theorem checked_eq_verdict (d : DeviceDescription) : ∃ c, d.checked =
    verdict (Refusal.reservedInterface.when d.TakesReserved ++
      (Site.row 0 0 (d.interfaces.take listLimit)).flatMap Site.violations) c := by
  have hany : (d.interfaces.take listLimit).any (·.id == 0) = true ↔ d.TakesReserved := by
    simp [TakesReserved]
  obtain ⟨t, ht⟩ : ∃ t, (InterfaceDescription.control :: d.interfaces.take listLimit).foldlM
      Tables.addInterface {} = verdict
        ((Site.row 0 0 (d.interfaces.take listLimit)).flatMap Site.violations) t := by
    -- the control interface comes first, and nothing is wrong with it
    rw [List.foldlM_cons, Tables.addInterface_control]
    exact ⟨_, Tables.foldlM_addInterface_eq_verdict (m := 0) (n := 0) rfl rfl _⟩
  refine ⟨⟨d.toDeviceInfo.tidy, t.interfaces, t.endpoints⟩, ?_⟩
  rw [verdict_when_append]
  unfold checked
  refine if_congr hany rfl ?_
  rw [ht]
  exact verdict_bind_ok

theorem checked_eq_error {d : DeviceDescription} {r : Refusal} :
    d.checked = .error r ↔ (Refusal.reservedInterface.when d.TakesReserved ++
      d.sites.flatMap Site.violations).head? = some r := by
  obtain ⟨c, hc⟩ := d.checked_eq_verdict
  rw [hc, verdict_eq_error, List.head?_append, Site.head?_row_take, ← List.head?_append, sites]

/-- The check refuses a description with the first thing that is wrong with it, and refuses it only
if something is. -/
theorem checked_eq_error_iff (d : DeviceDescription) :
    (∀ r, d.checked = .error r ↔ d.FirstViolation r) ∧
      ((∃ r, d.checked = .error r) ↔ d.TakesReserved ∨ ∃ site ∈ d.sites, site.violations ≠ []) := by
  constructor
  · intro r
    rw [checked_eq_error, FirstViolation]
    by_cases h : d.TakesReserved
    · rw [if_pos h, Refusal.when, if_pos h]
      simp [eq_comm]
    · rw [if_neg h, Refusal.when, if_neg h, List.nil_append, List.head?_flatMap,
        List.findSome?_eq_some_iff]
      refine exists₃_congr fun before site after => and_congr_right fun _ => ?_
      simp only [List.head?_eq_none_iff]
      exact and_comm
  · simp only [checked_eq_error]
    rw [← Option.isSome_iff_exists, List.isSome_head?, ne_eq, List.append_eq_nil_iff,
      not_and_or, ← ne_eq, ← ne_eq]
    refine or_congr Refusal.when_ne_nil ?_
    rw [ne_eq, List.flatMap_eq_nil_iff]
    push Not
    exact Iff.rfl

end DeviceDescription

end UsbGadget
