import UsbGadget.Proofs.InService

/-!
# Histories

The history of a device is everything that happened while it was driven, in order: the steps of the
host with what they told, the beginnings of interrupts and the effects of the engine
(`Device.history`). `Happening.split_unique` and `Happening.split_append` find the last SETUP packet
that was handled in a history.
-/

namespace UsbGadget

/-- One thing that happens to an open device. -/
inductive Happening where
  /-- A step of the host, and what it told. -/
  | host (step : HostStep) (outcome : Outcome)
  /-- An interrupt begins to be serviced. -/
  | interrupt
  /-- An effect of the engine. -/
  | effect (e : Effect)

namespace Device

variable {σ : Type} [Board σ]

/-- What happens in one step. -/
def happenings (d : Device σ) : DeviceStep → List Happening
  | .host step => [.host step (step.run d.hw.toController).1]
  | .interrupt => .interrupt :: d.interrupt.2.map .effect
  | .service => .interrupt :: d.interrupt.2.map .effect
  | step => (d.step step).2.2.map .effect

/-- What happens in a row of steps. -/
def history (d : Device σ) : List DeviceStep → List Happening
  | [] => []
  | step :: steps => d.happenings step ++ (d.step step).2.1.history steps

end Device

theorem eq_append_of_getElem? {α : Type} {l : List α} {k : Nat} {a : α} (h : l[k]? = some a) :
    l = l.take k ++ a :: l.drop (k + 1) := by
  obtain ⟨hlt, rfl⟩ := List.getElem?_eq_some_iff.1 h
  rw [← List.drop_eq_getElem_cons hlt, List.take_append_drop]

namespace Happening

/-- No SETUP packet is handled. -/
def NoSetup (h : List Happening) : Prop := ∀ p, .effect (.heed p) ∉ h

theorem noSetup_append {h h' : List Happening} : NoSetup (h ++ h') ↔ NoSetup h ∧ NoSetup h' := by
  simp only [NoSetup, List.mem_append, not_or, forall_and]

theorem noSetup_cons {x : Happening} {h : List Happening} :
    NoSetup (x :: h) ↔ (∀ p, x ≠ .effect (.heed p)) ∧ NoSetup h := by
  simp only [NoSetup, List.mem_cons, not_or, forall_and, ne_comm]

/-- There is only one last SETUP packet. -/
theorem split_unique {pre pre' since since' : List Happening} {p p' : SetupPacket}
    (h : pre ++ .effect (.heed p) :: since = pre' ++ .effect (.heed p') :: since')
    (hsince : NoSetup since) (hsince' : NoSetup since') : pre = pre' ∧ p = p' ∧ since = since' := by
  -- if one packet came before the other, then it would not be the last
  rcases List.append_eq_append_iff.1 h with ⟨mid, hpre, hmid⟩ | ⟨mid, hpre, hmid⟩
  · rcases mid with _ | ⟨x, mid⟩
    · rw [List.nil_append, List.cons.injEq, effect.injEq, Effect.heed.injEq] at hmid
      exact ⟨by rw [hpre, List.append_nil], hmid⟩
    · rw [List.cons_append, List.cons.injEq] at hmid
      rw [hmid.2, noSetup_append, noSetup_cons] at hsince
      exact absurd rfl (hsince.2.1 p')
  · rcases mid with _ | ⟨x, mid⟩
    · rw [List.nil_append, List.cons.injEq, effect.injEq, Effect.heed.injEq] at hmid
      exact ⟨by rw [hpre, List.append_nil], hmid.1.symm, hmid.2.symm⟩
    · rw [List.cons_append, List.cons.injEq] at hmid
      rw [hmid.2, noSetup_append, noSetup_cons] at hsince'
      exact absurd rfl (hsince'.2.1 p)

/-- What follows the last SETUP packet grows at its end. -/
theorem split_append {pre h since l : List Happening} {p : SetupPacket}
    (heq : h ++ l = pre ++ .effect (.heed p) :: since) (hl : NoSetup l) :
    ∃ since', h = pre ++ .effect (.heed p) :: since' ∧ since = since' ++ l := by
  rcases List.append_eq_append_iff.1 heq with ⟨mid, hpre, hmid⟩ | ⟨mid, hpre, hmid⟩
  · rw [hmid, noSetup_append, noSetup_cons] at hl
    exact absurd rfl (hl.2.1 p)
  · rcases mid with _ | ⟨x, mid⟩
    · rw [List.nil_append] at hmid
      rw [← hmid, noSetup_cons] at hl
      exact absurd rfl (hl.1 p)
    · rw [List.cons_append, List.cons.injEq] at hmid
      exact ⟨mid, by rw [hpre, hmid.1], hmid.2⟩

/-- The register that is written, and its word. -/
def written? : Happening → Option (Register × Word)
  | effect (.write r w) => some (r, w)
  | _ => none

theorem eq_write {e : Effect} {r : Register} {w : Word} (h : written? (effect e) = some (r, w)) :
    e = .write r w := by
  cases e with
  | write r' w' =>
    obtain ⟨rfl, rfl⟩ := Prod.mk.inj (Option.some.inj h)
    rfl
  | reset | clear | line | enable | arm | heed | collect | call => cases h

theorem eq_of_written? {h : List Happening} {k : Nat} {r : Register} {w : Word}
    (hk : h[k]?.bind written? = some (r, w)) :
    h = h.take k ++ .effect (.write r w) :: h.drop (k + 1) := by
  obtain ⟨x, hx, hwritten⟩ := Option.bind_eq_some_iff.1 hk
  cases x with
  | host | interrupt => cases hwritten
  | effect e =>
    obtain rfl := eq_write hwritten
    exact eq_append_of_getElem? hx

/-- The SETUP packet that is handled. -/
def heeded? : Happening → Option SetupPacket
  | effect (.heed p) => some p
  | _ => none

theorem eq_heed {e : Effect} {p : SetupPacket} (h : heeded? (effect e) = some p) : e = .heed p := by
  cases e with
  | heed packet => exact congrArg Effect.heed (Option.some.inj h)
  | reset | clear | write | line | enable | arm | collect | call => cases h

theorem filterMap_heeded? {h : List Happening} (hh : NoSetup h) : h.filterMap heeded? = [] := by
  rw [List.filterMap_eq_nil_iff]
  intro x hx
  cases x with
  | host | interrupt => rfl
  | effect e =>
    cases e with
    | heed p => exact absurd hx (hh p)
    | reset | clear | write | line | enable | arm | collect | call => rfl

end Happening

end UsbGadget
