import UsbGadget.Engine.Session

/-!
# The moves of a session

Whatever a session does comes down to a row of moves (`Session.Moves`): it hands a packet over, it
changes the control machine or the identifiers of endpoint 0, or it has an effect that is none of
its endpoints'. What every move preserves, everything preserves that a session does:

* `Session.moves_submit` for a packet that is submitted;
* `Session.moves_react` for an event that is handled, with all that a handler does.
-/

namespace UsbGadget

/-- An effect of a session that hands nothing over. -/
def Effect.Quiet : Effect → Prop
  | write r _ => r = .addrEndp
  | heed _ | collect _ _ | call _ _ _ => True
  | arm _ _ | reset | clear | line _ | enable _ => False

namespace Session

/-- What a session does, move by move. -/
inductive Moves : Session → Session × List Effect → Prop
  /-- It does nothing more. -/
  | still (s : Session) : Moves s (s, [])
  /-- It changes the control machine. -/
  | control {s : Session} {result : Session × List Effect} (c : Control)
      (h : Moves { s with control := c } result) : Moves s result
  /-- It sets the identifier of the next packet of a half of endpoint 0. -/
  | restart {s : Session} {result : Session × List Effect} {position : Nat}
      (hposition : position = ep0In ∨ position = ep0Out) (pid : Pid)
      (h : Moves (s.setPid position pid) result) : Moves s result
  /-- It has an effect that hands nothing over. -/
  | quiet {s s' : Session} {log : List Effect} {effect : Effect} (heffect : effect.Quiet)
      (h : Moves s (s', log)) : Moves s (s', effect :: log)
  /-- It hands a packet over, of endpoint 0 or of the first endpoint with its interface and address.
  -/
  | arm {s s' : Session} {log : List Effect} {position : Nat} {e : Endpoint}
      (he : s.endpoints[position]? = some e)
      (hposition : (position = ep0In ∨ position = ep0Out) ∨
        s.position? e.interface e.address = some position) (data : List UInt8)
      (h : Moves { s with endpoints := s.endpoints.set position e.advance } (s', log)) :
      Moves s (s', .arm e (e.clip data) :: log)

theorem Moves.append {s : Session} {result result' : Session × List Effect} (h : Moves s result)
    (h' : Moves result.1 result') : Moves s (result'.1, result.2 ++ result'.2) := by
  induction h with
  | still => exact h'
  | control c _ ih => exact .control c (ih h')
  | restart hposition pid _ ih => exact .restart hposition pid (ih h')
  | quiet heffect _ ih => exact .quiet heffect (ih h')
  | arm he hposition data _ ih => exact .arm he hposition data (ih h')

/-- A session has no other effects than those of its moves. -/
theorem Moves.quiet_or_arm {s : Session} {result : Session × List Effect} (h : Moves s result) :
    ∀ effect ∈ result.2, effect.Quiet ∨ ∃ e data, effect = .arm e data := by
  induction h with
  | still => nofun
  | control c _ ih => exact ih
  | restart _ _ _ ih => exact ih
  | quiet heffect _ ih => exact List.forall_mem_cons.2 ⟨.inl heffect, ih⟩
  | arm _ _ _ _ ih => exact List.forall_mem_cons.2 ⟨.inr ⟨_, _, rfl⟩, ih⟩

theorem of_position? {s : Session} {interface address : UInt8} {position : Nat}
    (h : s.position? interface address = some position) :
    ∃ e, s.endpoints[position]? = some e ∧ e.interface = interface ∧ e.address = address := by
  obtain ⟨hlt, he, -⟩ := List.findIdx?_eq_some_iff_getElem.1 h
  rw [Bool.and_eq_true, beq_iff_eq, beq_iff_eq] at he
  exact ⟨_, List.getElem?_eq_getElem hlt, he⟩

theorem position?_self {s : Session} {interface address : UInt8} {position : Nat} {e : Endpoint}
    (h : s.position? interface address = some position) (he : s.endpoints[position]? = some e) :
    s.position? e.interface e.address = some position := by
  obtain ⟨e', he', rfl, rfl⟩ := of_position? h
  obtain rfl : e' = e := Option.some.inj (he'.symm.trans he)
  exact h

theorem moves_arm {s : Session} {position : Nat}
    (hposition : ∀ e, s.endpoints[position]? = some e → (position = ep0In ∨ position = ep0Out) ∨
      s.position? e.interface e.address = some position) (data : List UInt8) :
    Moves s (s.arm position data) := by
  unfold arm
  cases he : s.endpoints[position]? with
  | none => exact .still s
  | some e => exact .arm he (hposition e he) data (.still _)

theorem moves_submit (s : Session) (interface address : UInt8) (data : List UInt8) :
    Moves s ((s.submit interface address data).1, (s.submit interface address data).2.1) := by
  unfold submit
  cases hposition : s.position? interface address with
  | none => exact .still s
  | some position => exact moves_arm (fun _ he => .inr (position?_self hposition he)) data

theorem moves_run (s : Session) (p : Program) : Moves s ((s.run p).1, (s.run p).2.1) := by
  induction p generalizing s with
  | done => exact .still s
  | askConfigured next ih => exact ih _ s
  | submit interface address data next ih =>
    exact (s.moves_submit interface address data).append (ih _ _)

theorem moves_proceed (s : Session) (step : Control × Reply) : Moves s (s.proceed step) := by
  refine .control step.1 ?_
  unfold proceed
  cases step.2 with
  | silent => exact .still _
  | send data => exact moves_arm (fun _ _ => .inl (.inl rfl)) data
  | receive => exact moves_arm (fun _ _ => .inl (.inr rfl)) []
  | moveTo address => exact .quiet rfl (.still _)

theorem moves_completed (s : Session) (e : Endpoint) (data : List UInt8) :
    Moves s (s.completed e data) := by
  unfold completed
  split
  -- the halves of endpoint 0 go on with the control machine, a caller's endpoint with its handler
  · split <;> exact s.moves_proceed _
  · exact .still s
  · exact .quiet trivial (s.moves_run _)

/-- Whatever event is handled. -/
theorem moves_react (s : Session) (dpram : Memory Dpram.size) (event : Event) :
    Moves s (s.react dpram event) := by
  cases event with
  | setup =>
    exact .quiet trivial (.restart (.inl rfl) .data1 (.restart (.inr rfl) .data1
      (moves_proceed _ _)))
  | buffer index =>
    simp only [react]
    split
    · exact .still s
    · exact .quiet trivial (s.moves_completed _ _)
  | busReset => exact s.moves_proceed s.control.busReset

end Session

end UsbGadget
