import UsbGadget.Proofs.BufferSlots

/-!
# The configuration that a description stands for

A description that passes its check becomes a configuration that can be written down at once
(`DeviceDescription.configuration`): the control interface and the caller's interfaces in order,
each with a range of the one list of all their endpoints.

* `Tables.foldlM_addEndpoint_eq_ok` and `Tables.foldlM_addInterface_eq_ok` are the two loops of the
  check;
* `DeviceDescription.checked_eq_ok_iff` is the main statement: which descriptions pass, and what
  they become.

What a caller lists beyond `listLimit` is never looked at. That makes no difference to what passes,
since a list of that length finds no room anyway.
-/

namespace UsbGadget

/-- Interfaces one behind the other, when the endpoints before them take `start` places. -/
def Interface.row (start : Nat) : List InterfaceDescription → List Interface
  | [] => []
  | i :: is =>
    ⟨i.toInterfaceInfo, start, start + i.endpoints.length⟩ :: row (start + i.endpoints.length) is

namespace InterfaceDescription

/-- How many endpoints interfaces have together. -/
def endpointCount (is : List InterfaceDescription) : Nat := (is.map (·.endpoints.length)).sum

@[simp] theorem endpointCount_nil : endpointCount [] = 0 := rfl

@[simp] theorem endpointCount_cons (i : InterfaceDescription) (is : List InterfaceDescription) :
    endpointCount (i :: is) = i.endpoints.length + endpointCount is := by simp [endpointCount]

theorem length_endpoints_control : control.endpoints.length = 2 := rfl

/-- The endpoints of interfaces, with legal packet sizes. -/
def tidiedEndpoints (is : List InterfaceDescription) : List EndpointDescription :=
  is.flatMap fun i => i.endpoints.map (·.tidied)

@[simp] theorem tidiedEndpoints_nil : tidiedEndpoints [] = [] := rfl

@[simp] theorem tidiedEndpoints_cons (i : InterfaceDescription) (is : List InterfaceDescription) :
    tidiedEndpoints (i :: is) = i.endpoints.map (·.tidied) ++ tidiedEndpoints is := rfl

@[simp] theorem length_tidiedEndpoints (is : List InterfaceDescription) :
    (tidiedEndpoints is).length = endpointCount is := by
  induction is with
  | nil => rfl
  | cons i is ih => simp [ih]

end InterfaceDescription

theorem take_eq_self_of_length_lt {α : Type} {l : List α} {n : Nat} (h : (l.take n).length < n) :
    l.take n = l := by
  rw [List.length_take] at h
  exact List.take_of_length_le (by omega)

/-! ### The loops of the check -/

namespace Tables

open InterfaceDescription

/-- Endpoints are added as long as they are usable and there is room. -/
theorem foldlM_addEndpoint_eq_ok {t t' : Tables} {l : List EndpointDescription}
    (ht : t.endpoints.length ≤ maxEndpoints) :
    l.foldlM addEndpoint t = .ok t' ↔ (∀ e ∈ l, e.Usable) ∧
      t.endpoints.length + l.length ≤ maxEndpoints ∧
      t' = { t with endpoints := t.endpoints ++ l.map (·.tidied) } := by
  induction l generalizing t with
  | nil =>
    rw [List.foldlM_nil]
    simp only [List.not_mem_nil, false_implies, implies_true, List.length_nil, Nat.add_zero, ht,
      List.map_nil, List.append_nil, true_and]
    exact ⟨fun h => (Except.ok.inj h).symm, fun h => congrArg Except.ok h.symm⟩
  | cons e l ih =>
    rw [List.foldlM_cons, bind_eq_ok, List.forall_mem_cons]
    simp only [addEndpoint_eq_ok, EndpointDescription.checked_eq_ok_iff, List.length_cons,
      List.map_cons]
    constructor
    · rintro ⟨_, ⟨_, ⟨he, rfl⟩, hroom, rfl⟩, h⟩
      obtain ⟨hl, hlen, rfl⟩ := (ih (by simp; omega)).1 h
      simp only [List.length_append, List.length_cons, List.length_nil] at hlen
      exact ⟨⟨he, hl⟩, by omega, by simp⟩
    · rintro ⟨⟨he, hl⟩, hlen, rfl⟩
      refine ⟨_, ⟨_, ⟨he, rfl⟩, by omega, rfl⟩, (ih (by simp; omega)).2 ⟨hl, ?_, ?_⟩⟩
      · simp only [List.length_append, List.length_cons, List.length_nil]
        omega
      · simp

theorem addInterface_eq_ok_iff {t t' : Tables} {i : InterfaceDescription}
    (ht : t.endpoints.length ≤ maxEndpoints) :
    t.addInterface i = .ok t' ↔ (∀ e ∈ i.endpoints, e.Usable) ∧
      t.interfaces.length < maxInterfaces ∧
      t.endpoints.length + i.endpoints.length ≤ maxEndpoints ∧
      t' = ⟨t.interfaces ++
          [⟨i.toInterfaceInfo, t.endpoints.length, t.endpoints.length + i.endpoints.length⟩],
        t.endpoints ++ i.endpoints.map (·.tidied)⟩ := by
  rw [addInterface_eq_ok]
  simp only [foldlM_addEndpoint_eq_ok ht]
  constructor
  · rintro ⟨_, ⟨he, hlen, rfl⟩, hroom, rfl⟩
    -- the limit of a list is far above what there is room for
    have hwhole : i.endpoints.take listLimit = i.endpoints :=
      take_eq_self_of_length_lt (show _ < 255 by simp only [maxEndpoints] at hlen; omega)
    rw [hwhole] at he hlen ⊢
    exact ⟨he, hroom, hlen, by simp⟩
  · rintro ⟨he, hroom, hlen, rfl⟩
    have hwhole : i.endpoints.take listLimit = i.endpoints :=
      List.take_of_length_le (show _ ≤ 255 by simp only [maxEndpoints] at hlen; omega)
    rw [hwhole]
    exact ⟨_, ⟨he, hlen, rfl⟩, hroom, by simp⟩

/-- Interfaces are added as long as their endpoints are usable and there is room. -/
theorem foldlM_addInterface_eq_ok {t t' : Tables} {is : List InterfaceDescription}
    (ht : t.endpoints.length ≤ maxEndpoints) (ht' : t.interfaces.length ≤ maxInterfaces) :
    is.foldlM addInterface t = .ok t' ↔ (∀ i ∈ is, ∀ e ∈ i.endpoints, e.Usable) ∧
      t.interfaces.length + is.length ≤ maxInterfaces ∧
      t.endpoints.length + endpointCount is ≤ maxEndpoints ∧
      t' = ⟨t.interfaces ++ Interface.row t.endpoints.length is,
        t.endpoints ++ tidiedEndpoints is⟩ := by
  induction is generalizing t with
  | nil =>
    rw [List.foldlM_nil]
    simp only [List.not_mem_nil, false_implies, implies_true, List.length_nil, Nat.add_zero, ht,
      ht', endpointCount_nil, Interface.row, tidiedEndpoints_nil, List.append_nil, true_and]
    exact ⟨fun h => (Except.ok.inj h).symm, fun h => congrArg Except.ok h.symm⟩
  | cons i is ih =>
    rw [List.foldlM_cons, bind_eq_ok, List.forall_mem_cons]
    simp only [addInterface_eq_ok_iff ht, List.length_cons, endpointCount_cons, Interface.row,
      tidiedEndpoints_cons]
    constructor
    · rintro ⟨_, ⟨he, hroom, hlen, rfl⟩, h⟩
      obtain ⟨hes, hrooms, hlens, rfl⟩ := (ih (by simpa using hlen) (by simp; omega)).1 h
      simp only [List.length_append, List.length_cons, List.length_nil, List.length_map]
        at hrooms hlens
      exact ⟨⟨he, hes⟩, by omega, by omega, by simp⟩
    · rintro ⟨⟨he, hes⟩, hrooms, hlens, rfl⟩
      refine ⟨_, ⟨he, by omega, by omega, rfl⟩,
        (ih (by simp; omega) (by simp; omega)).2 ⟨hes, ?_, ?_, ?_⟩⟩
      · simp only [List.length_append, List.length_cons, List.length_nil]
        omega
      · simp only [List.length_append, List.length_map]
        omega
      · simp

end Tables

/-! ### The check as a whole -/

namespace DeviceDescription

open InterfaceDescription

/-- The configuration that a description stands for. -/
def configuration (d : DeviceDescription) : Configuration where
  toDeviceInfo := d.toDeviceInfo.tidy
  interfaces := Interface.row 0 (.control :: d.interfaces)
  endpoints := tidiedEndpoints (.control :: d.interfaces)

theorem usable_control {e : EndpointDescription}
    (he : e ∈ InterfaceDescription.control.endpoints) : e.Usable := by
  simp only [InterfaceDescription.control, List.mem_cons, List.not_mem_nil, or_false] at he
  rcases he with rfl | rfl <;> exact EndpointDescription.usable_control _

/-- A description passes exactly when number 0 is left alone, all endpoints are usable and there is
room. -/
theorem checked_eq_ok_iff {d : DeviceDescription} {c : Configuration} :
    d.checked = .ok c ↔ (∀ i ∈ d.interfaces, i.id ≠ 0) ∧
      (∀ i ∈ d.interfaces, ∀ e ∈ i.endpoints, e.Usable) ∧
      d.interfaces.length < maxInterfaces ∧ endpointCount d.interfaces + 2 ≤ maxEndpoints ∧
      c = d.configuration := by
  rw [DeviceDescription.checked_eq_ok]
  simp only [Tables.foldlM_addInterface_eq_ok (t := {}) (Nat.zero_le _) (Nat.zero_le _),
    List.forall_mem_cons, List.length_cons, endpointCount_cons, length_endpoints_control,
    List.length_nil, Nat.zero_add, List.nil_append]
  constructor
  · rintro ⟨hids, _, ⟨⟨-, he⟩, hroom, hlen, rfl⟩, rfl⟩
    have hwhole : d.interfaces.take listLimit = d.interfaces :=
      take_eq_self_of_length_lt (show _ < 255 by simp only [maxInterfaces] at hroom; omega)
    rw [hwhole] at hids he hroom hlen ⊢
    exact ⟨hids, he, hroom, by omega, rfl⟩
  · rintro ⟨hids, he, hroom, hlen, rfl⟩
    have hwhole : d.interfaces.take listLimit = d.interfaces :=
      List.take_of_length_le (show _ ≤ 255 by simp only [maxInterfaces] at hroom; omega)
    rw [hwhole]
    exact ⟨hids, _, ⟨⟨fun _ => usable_control, he⟩, hroom, by omega, rfl⟩, rfl⟩

end DeviceDescription

/-! ### Ranges -/

@[simp] theorem Interface.length_row (start : Nat) (is : List InterfaceDescription) :
    (row start is).length = is.length := by
  induction is generalizing start with
  | nil => rfl
  | cons i is ih => rw [row, List.length_cons, List.length_cons, ih]

theorem Interface.map_name_row (start : Nat) (is : List InterfaceDescription) :
    (row start is).map (·.name) = is.map (·.name) := by
  induction is generalizing start with
  | nil => rfl
  | cons i is ih => rw [row, List.map_cons, List.map_cons, ih]

end UsbGadget
