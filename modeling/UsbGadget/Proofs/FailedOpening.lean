import UsbGadget.Proofs.NoFault
import UsbGadget.Proofs.StringDescriptors

/-!
# Opening fails before anything is done

`Device.open` looks at the description first and brings the controller up afterwards, so a device
that cannot be opened is as it was. That the work can be parted like this is what is shown here. The
opening is gone through once more step by step (`Device.openInTurn`): the endpoints are put into a
table one by one, every effect reaches the hardware before the next step, and what was done when a
step fails is not taken back.

* `Device.openInTurn_eq`: step by step the same comes out;
* `Device.OpenFails` says why a device cannot be opened, and `Device.open_eq_error_iff` that there
  is no other reason;
* `Device.turn_follows` is the step lemma for the interrupt line, which is switched when the device
  opens and when it closes and at no other time; `Device.lineAfter_turns` is the run lemma;
* `Device.failed_open_changes_nothing` is the main statement.
-/

namespace UsbGadget

/-! ### Why opening fails -/

theorem Session.ofDescription_eq_error {d : DeviceDescription} {e : OpenError} :
    ofDescription d = .error e ↔ ∃ reason, e = .refused reason ∧ (d.checked = .error reason ∨
      ∃ c, d.checked = .ok c ∧ DescriptorSet.assemble c = .error (.refused reason)) := by
  unfold ofDescription
  simp only [bind_eq_error, mapError_eq_error, mapError_eq_ok]
  constructor
  · rintro (⟨reason, hc, rfl⟩ | ⟨c, hc, ⟨e', hset, rfl⟩ | ⟨set, -, ⟨reason, he, -⟩ | ⟨_, -, h⟩⟩⟩)
    · exact ⟨reason, rfl, .inl hc⟩
    · cases e' with
      | refused reason => exact ⟨reason, rfl, .inr ⟨c, hc, hset⟩⟩
      | rangesMismatch =>
        -- the check gives ranges that account for the endpoints
        obtain ⟨-, -, -, -, rfl⟩ := DeviceDescription.checked_eq_ok_iff.1 hc
        exact absurd hset (DescriptorSet.assemble_ne_rangesMismatch d.accounted_configuration)
    · obtain ⟨endpoints, hendpoints⟩ := endpointsFor_of_checked hc
      rw [hendpoints] at he
      cases he
    · cases h
  · rintro ⟨reason, rfl, hc | ⟨c, hc, hset⟩⟩
    · exact .inl ⟨reason, hc, rfl⟩
    · exact .inr ⟨c, hc, .inl ⟨_, hset, rfl⟩⟩

namespace Device

variable {σ : Type}

/-- Why a device cannot be opened with a description. -/
inductive OpenFails (d : Device σ) (description : DeviceDescription) : OpenError → Prop
  /-- It is open, whatever the description says. -/
  | alreadyOpen (h : d.isOpen = true) : OpenFails d description .alreadyOpen
  /-- The check refuses the description. -/
  | check {reason : Refusal} (h : d.isOpen = false) (hc : description.checked = .error reason) :
      OpenFails d description (.refused reason)
  /-- The assembly refuses what comes of the check. -/
  | assembly {reason : Refusal} {c : Configuration} (h : d.isOpen = false)
      (hc : description.checked = .ok c)
      (hset : DescriptorSet.assemble c = .error (.refused reason)) :
      OpenFails d description (.refused reason)

theorem isOpen_of_session {d : Device σ} {s : Session} (h : d.session = some s) :
    d.isOpen = true := by
  rw [isOpen, h]
  rfl

theorem isOpen_of_closed {d : Device σ} (h : d.session = none) : d.isOpen = false := by
  rw [isOpen, h]
  rfl

theorem isOpen_mapController (d : Device σ) (f : Controller → Controller) :
    (d.mapController f).isOpen = d.isOpen := rfl

variable [Board σ]

theorem open_eq_error_iff {d : Device σ} {description : DeviceDescription} {e : OpenError} :
    (d.open description).1 = .error e ↔ d.OpenFails description e := by
  cases hd : d.session with
  | some s =>
    have hopen := isOpen_of_session hd
    have halready : (d.open description).1 = .error .alreadyOpen := by rw [«open», hd]
    rw [halready]
    constructor
    · rintro ⟨⟩
      exact .alreadyOpen hopen
    · rintro (_ | ⟨h, -⟩ | ⟨h, -⟩)
      · rfl
      · exact absurd (hopen.symm.trans h) (by decide)
      · exact absurd (hopen.symm.trans h) (by decide)
  | none =>
    have hclosed := isOpen_of_closed hd
    rw [fst_open_of_closed hd, map_eq_error, Session.ofDescription_eq_error]
    constructor
    · rintro ⟨reason, rfl, hc | ⟨c, hc, hset⟩⟩
      · exact .check hclosed hc
      · exact .assembly hclosed hc hset
    · rintro (h | ⟨-, hc⟩ | ⟨-, hc, hset⟩)
      · exact absurd (hclosed.symm.trans h) (by decide)
      · exact ⟨_, rfl, .inl hc⟩
      · exact ⟨_, rfl, .inr ⟨_, hc, hset⟩⟩

theorem open_of_fails {d : Device σ} {description : DeviceDescription} {e : OpenError}
    (h : (d.open description).1 = .error e) : d.open description = (.error e, d, []) := by
  unfold «open» at h ⊢
  cases hd : d.session with
  | some s =>
    rw [hd] at h
    cases h
    rfl
  | none =>
    cases hs : Session.ofDescription description with
    | error e' =>
      simp only [hd, hs] at h
      cases h
      rfl
    | ok s =>
      simp only [hd, hs] at h
      cases h

end Device

/-! ### A table of endpoints -/

namespace Session

/-- Makes an endpoint and puts it behind the others, if there is room. -/
def addEndpoint (interface : UInt8) (table : List Endpoint) (e : EndpointDescription) :
    Except Refusal (List Endpoint) := do
  let made ← Endpoint.ofDescription interface e
  pure (if table.length < maxEndpoints then table ++ [made] else table)

/-- The endpoints of a configuration, made one by one. -/
def endpointsInTurn (c : Configuration) : Except Refusal (List Endpoint) :=
  c.interfaces.foldlM (fun table i => (c.endpointsOf i).foldlM (addEndpoint i.id) table) []

theorem foldlM_addEndpoint (interface : UInt8) {table : List Endpoint}
    {es : List EndpointDescription} (h : table.length + es.length ≤ maxEndpoints) :
    es.foldlM (addEndpoint interface) table =
      (es.mapM (Endpoint.ofDescription interface)).map (table ++ ·) := by
  induction es generalizing table with
  | nil => exact congrArg Except.ok (List.append_nil _).symm
  | cons e es ih =>
    rw [List.length_cons] at h
    rw [List.foldlM_cons, List.mapM_cons, addEndpoint]
    cases Endpoint.ofDescription interface e with
    | error reason => rfl
    | ok made =>
      have hroom : table.length < maxEndpoints := by omega
      rw [Guarded.ok_bind, Guarded.ok_bind, if_pos hroom]
      -- the bound goes over to the table with the endpoint that was just put in
      refine (ih (by rw [List.length_append, List.length_singleton]; omega)).trans ?_
      cases es.mapM (Endpoint.ofDescription interface) with
      | error reason => rfl
      | ok rest => exact congrArg Except.ok (List.append_assoc ..)

/-- The table is as good as a list without a limit if the ranges of all interfaces are together no
longer than it has room for. -/
theorem foldlM_addEndpoints {c : Configuration} {is : List Interface} {table : List Endpoint}
    (hranges : ∀ i ∈ is, c.InRange i)
    (h : table.length + (is.map fun i => i.stop - i.start).sum ≤ maxEndpoints) :
    is.foldlM (fun table i => (c.endpointsOf i).foldlM (addEndpoint i.id) table) table =
      (is.mapM fun i => (c.endpointsOf i).mapM (Endpoint.ofDescription i.id)).map
        (table ++ ·.flatten) := by
  induction is generalizing table with
  | nil => exact congrArg Except.ok (List.append_nil _).symm
  | cons i is ih =>
    rw [List.forall_mem_cons] at hranges
    have hlength := Configuration.length_endpointsOf hranges.1
    rw [List.map_cons, List.sum_cons] at h
    rw [List.foldlM_cons, List.mapM_cons, foldlM_addEndpoint _ (by omega)]
    cases hgroup : (c.endpointsOf i).mapM (Endpoint.ofDescription i.id) with
    | error reason => rfl
    | ok group =>
      have hgrouped := (mapM_eq_ok.1 hgroup).length_eq
      refine (ih hranges.2 (by rw [List.length_append]; omega)).trans ?_
      rw [Guarded.ok_bind]
      cases is.mapM fun i => (c.endpointsOf i).mapM (Endpoint.ofDescription i.id) with
      | error reason => rfl
      | ok groups => exact congrArg Except.ok (List.append_assoc ..)

/-- What passed the check has no more endpoints than the table has room for. -/
theorem endpointsInTurn_eq {d : DeviceDescription} {c : Configuration} (h : d.checked = .ok c) :
    endpointsInTurn c = endpointsFor c := by
  obtain ⟨-, -, -, hendpoints, rfl⟩ := DeviceDescription.checked_eq_ok_iff.1 h
  have hc := d.accounted_configuration
  have hroom : (d.configuration.interfaces.map fun i => i.stop - i.start).sum ≤ maxEndpoints := by
    rw [hc.total, DeviceDescription.configuration,
      InterfaceDescription.length_tidiedEndpoints, InterfaceDescription.endpointCount_cons,
      Nat.add_comm]
    exact hendpoints
  rw [endpointsInTurn, foldlM_addEndpoints hc.inRange (by rwa [List.length_nil, Nat.zero_add]),
    endpointsFor]
  cases List.mapM (m := Except Refusal) _ _ <;> rfl

end Session

/-! ### Opening step by step -/

/-- A part of the opening of a device. It works on the device and on the effects so far, and what it
has done stays done when a later part fails. -/
abbrev Opening (σ : Type) := ExceptT OpenError (StateM (Device σ × List Effect))

namespace Opening

variable {σ α β : Type} [Board σ]

/-- Goes on only if a check succeeds. -/
def require (x : Except OpenError α) : Opening σ α := ExceptT.mk (pure x)

/-- Has an effect. -/
def perform (effect : Effect) : Opening σ Unit :=
  modify fun (d, log) => ({ d with hw := effect.apply d.hw }, log ++ [effect])

/-- Reads a register. -/
def readRegister (r : Register) : Opening σ Word := return (← get).1.hw.read r

/-- Stores the session. -/
def store (s : Session) : Opening σ Unit :=
  modify fun (d, log) => ({ d with session := some s }, log)

/-- Brings the controller up for a session. The pull-up is added to what the control register
reads. -/
def bringUp (s : Session) : Opening σ Unit := do
  perform .reset
  perform .clear
  perform (.write .usbMuxing (Word.ofBits [Bit.toPhy, Bit.softCon]))
  perform (.write .usbPwr (Word.ofBits [Bit.vbusDetect, Bit.vbusOverride]))
  perform (.write .mainCtrl (Word.only Bit.controllerOn))
  perform (.write .sieCtrl (Word.only Bit.ep0Report))
  perform (.write .inte (Word.ofBits [Bit.bufferInterrupt, Bit.resetInterrupt, Bit.setupInterrupt]))
  s.endpoints.forM fun e => perform (.enable e)
  let control ← readRegister .sieCtrl
  perform (.write .sieCtrl (control.set Bit.pullUp))
  store s
  perform (.line true)

/-- Makes a session, and brings the controller up for it. -/
def start (description : DeviceDescription) : Opening σ Unit := do
  let c ← require (description.checked.mapError .refused)
  let set ← require ((DescriptorSet.assemble c).mapError .ofAssemblyError)
  let endpoints ← require ((Session.endpointsInTurn c).mapError .refused)
  bringUp ⟨c, set, endpoints, {}⟩

/-- The whole opening. -/
def all (description : DeviceDescription) : Opening σ Unit := do
  if (← get).1.isOpen then
    throw .alreadyOpen
  start description

/-- What comes of a part of an opening when a device has gone through the effects of a log. -/
def outcome (x : Opening σ α) (d : Device σ) (log : List Effect) (session : Option Session) :
    Except OpenError α × Device σ × List Effect := x.run (d.after log session, log)

variable {d : Device σ} {log : List Effect} {session : Option Session}

theorem outcome_perform_bind (effect : Effect) (f : Unit → Opening σ α) :
    outcome (perform effect >>= f) d log session =
      outcome (f ()) d (log ++ [effect]) session := by
  rw [outcome, outcome, Device.after, Device.after, replay_append]
  rfl

theorem outcome_require_bind (x : Except OpenError α) (f : α → Opening σ β) :
    outcome (require x >>= f) d log session = match x with
      | .ok a => outcome (f a) d log session
      | .error e => (.error e, d.after log session, log) := by
  cases x with
  | ok a => rfl
  | error e => rfl

theorem outcome_readRegister_bind (r : Register) (f : Word → Opening σ α) :
    outcome (readRegister r >>= f) d log session =
      outcome (f ((replay log d.hw).read r)) d log session := by
  rw [outcome, outcome]
  rfl

theorem outcome_enable_bind (endpoints : List Endpoint) (f : Unit → Opening σ α) :
    outcome (endpoints.forM (fun e => perform (.enable e)) >>= f) d log session =
      outcome (f ()) d (log ++ endpoints.map .enable) session := by
  induction endpoints generalizing log with
  | nil =>
    rw [List.map_nil, List.append_nil]
    rfl
  | cons e endpoints ih =>
    rw [List.forM, bind_assoc, outcome_perform_bind, ih, List.map_cons, List.append_assoc]
    rfl

theorem outcome_store_perform (s : Session) (effect : Effect) :
    outcome (do store s; perform effect) d log session =
      (.ok (), d.after (log ++ [effect]) (some s), log ++ [effect]) := by
  rw [outcome, Device.after, Device.after, replay_append]
  rfl

/-- The control register still reads what was written to it before the endpoints were switched on.
-/
theorem read_sieCtrl_replay (log : List Effect) (w w' : Word) (endpoints : List Endpoint)
    (h : Hardware σ) :
    (replay (log ++ [.write .sieCtrl w] ++ [.write .inte w'] ++ endpoints.map .enable) h).read
      .sieCtrl = w := by
  rw [replay_append, Controller.read_of_regs (Device.regs_enable endpoints _), replay_append,
    replay_append]
  exact (Effect.read_apply_write_of_ne _ w' (by decide)).trans (Effect.read_apply_write _ _ w)

theorem outcome_bringUp (s : Session) : outcome (bringUp s) d [] none =
    (.ok (), d.after (UsbGadget.bringUp s.endpoints) (some s), UsbGadget.bringUp s.endpoints) := by
  have hreport : (Word.only Bit.ep0Report).set Bit.pullUp =
      Word.ofBits [Bit.ep0Report, Bit.pullUp] := by decide
  unfold bringUp
  iterate 7 rw [outcome_perform_bind]
  -- what is read back has one bit, and the pull-up is set beside it
  rw [outcome_enable_bind, outcome_readRegister_bind, read_sieCtrl_replay, hreport,
    outcome_perform_bind, outcome_store_perform, List.append_assoc]
  rfl

theorem outcome_start (description : DeviceDescription) :
    outcome (start description) d log session = match Session.ofDescription description with
      | .ok s => outcome (bringUp s) d log session
      | .error e => (.error e, d.after log session, log) := by
  rw [start, outcome_require_bind, Session.ofDescription]
  cases hc : description.checked with
  | error reason => rfl
  | ok c =>
    simp only [Except.mapError, outcome_require_bind, Session.endpointsInTurn_eq hc,
      Guarded.ok_bind]
    cases DescriptorSet.assemble c with
    | error e => rfl
    | ok set =>
      cases Session.endpointsFor c with
      | error reason => rfl
      | ok endpoints => rfl

end Opening

namespace Device

variable {σ : Type} [Board σ]

/-- Opens the device step by step. -/
def openInTurn (d : Device σ) (description : DeviceDescription) :
    Except OpenError Unit × Device σ × List Effect := (Opening.all description).run (d, [])

/-- Step by step the same comes out as at once. -/
theorem openInTurn_eq (d : Device σ) (description : DeviceDescription) :
    d.openInTurn description = d.open description := by
  obtain ⟨hw, _ | s⟩ := d
  · show Opening.outcome (Opening.start description) ⟨hw, none⟩ [] none = _
    rw [Opening.outcome_start, «open»]
    cases Session.ofDescription description with
    | error e => rfl
    | ok s => exact Opening.outcome_bringUp s
  · rfl

end Device

/-! ### The interrupt line -/

/-- Where the interrupt line is switched to, in order. -/
def lines (log : List Effect) : List Bool :=
  log.filterMap fun
    | .line enabled => some enabled
    | _ => none

/-- Where the interrupt line is after a log. -/
def lineAfter (before : Bool) (log : List Effect) : Bool := (lines log).getLast?.getD before

theorem lines_append (log log' : List Effect) : lines (log ++ log') = lines log ++ lines log' :=
  List.filterMap_append

theorem lineAfter_append (before : Bool) (log log' : List Effect) :
    lineAfter before (log ++ log') = lineAfter (lineAfter before log) log' := by
  rw [lineAfter, lineAfter, lineAfter, lines_append, List.getLast?_append, Option.getD_or]

theorem lines_bringUp (endpoints : List Endpoint) : lines (bringUp endpoints) = [true] := by
  have henable : lines (endpoints.map .enable) = [] := by
    simp [lines]
  rw [bringUp, lines_append, lines_append, henable]
  rfl

theorem lines_shutDown : lines shutDown = [false] := rfl

theorem Session.Moves.lines_eq_nil {s : Session} {result : Session × List Effect}
    (h : s.Moves result) : lines result.2 = [] := by
  refine List.filterMap_eq_nil_iff.2 fun effect heffect => ?_
  rcases h.quiet_or_arm effect heffect with hquiet | ⟨e, data, rfl⟩
  · cases effect with
    | write | heed | collect | call => rfl
    | reset | clear | line | enable | arm => cases hquiet
  · rfl

namespace Device

variable {σ : Type} [Board σ]

/-- The line follows a device: it is switched if the device opens or closes, to where that takes
it. -/
def Follows (d : Device σ) (result : Device σ × List Effect) : Prop :=
  lines result.2 = if result.1.isOpen = d.isOpen then [] else [result.1.isOpen]

omit [Board σ] in
theorem Follows.of_steady {d : Device σ} {result : Device σ × List Effect}
    (h : result.1.isOpen = d.isOpen ∧ lines result.2 = []) : d.Follows result := by
  rw [Follows, if_pos h.1, h.2]

omit [Board σ] in
theorem Follows.lineAfter {d : Device σ} {result : Device σ × List Effect}
    (h : d.Follows result) : lineAfter d.isOpen result.2 = result.1.isOpen := by
  rw [UsbGadget.lineAfter, show lines result.2 = _ from h]
  split_ifs with hsame
  · exact hsame.symm
  · rfl

theorem handle_steady (d : Device σ) (event : Event) :
    (d.handle event).1.isOpen = d.isOpen ∧ lines (d.handle event).2 = [] := by
  cases hs : d.session with
  | none => simp [handle, hs, lines]
  | some s =>
    rw [handle_eq hs, isOpen_of_session hs]
    have hreact := (s.moves_react d.hw.dpram event).lines_eq_nil
    refine ⟨rfl, ?_⟩
    cases event <;> exact hreact

theorem handleAll_steady (d : Device σ) (events : List Event) :
    (d.handleAll events).1.isOpen = d.isOpen ∧ lines (d.handleAll events).2 = [] := by
  induction events generalizing d with
  | nil => exact ⟨rfl, rfl⟩
  | cons event events ih =>
    obtain ⟨hopen, hlines⟩ := d.handle_steady event
    obtain ⟨hopen', hlines'⟩ := ih (d.handle event).1
    rw [handleAll_cons]
    exact ⟨hopen'.trans hopen, by rw [lines_append, hlines, hlines']; rfl⟩

theorem submit_steady (d : Device σ) (interface address : UInt8) (data : List UInt8) :
    (d.submit interface address data).2.1.isOpen = d.isOpen ∧
      lines (d.submit interface address data).2.2 = [] := by
  cases hs : d.session with
  | none => simp [submit, hs, lines]
  | some s =>
    rw [submit_eq hs, isOpen_of_session hs]
    exact ⟨rfl, (s.moves_submit interface address data).lines_eq_nil⟩

theorem open_follows (d : Device σ) (description : DeviceDescription) :
    d.Follows (d.open description).2 := by
  unfold «open»
  cases hs : d.session with
  | some s => exact .of_steady ⟨rfl, rfl⟩
  | none =>
    cases Session.ofDescription description with
    | error e => exact .of_steady ⟨rfl, rfl⟩
    | ok s =>
      refine (lines_bringUp s.endpoints).trans ?_
      rw [isOpen_of_closed hs]
      rfl

theorem close_follows (d : Device σ) : d.Follows d.close := by
  unfold close
  cases hs : d.session with
  | none => exact .of_steady ⟨rfl, rfl⟩
  | some s =>
    refine lines_shutDown.trans ?_
    rw [isOpen_of_session hs]
    rfl

/-- The line is switched when a device opens or closes, and at no other time. -/
theorem turn_follows (d : Device σ) (t : Turn) : d.Follows (d.turn t).2 := by
  cases t with
  | overwrite c => exact .of_steady ⟨rfl, rfl⟩
  | step step =>
    cases step with
    | «open» description => exact d.open_follows description
    | close => exact d.close_follows
    | submit interface address data => exact .of_steady (d.submit_steady interface address data)
    | interrupt => exact .of_steady (d.handleAll_steady d.pending)
    | service =>
      obtain ⟨hopen, hlines⟩ := d.handleAll_steady d.pending
      rw [turn_service]
      exact .of_steady ⟨(isOpen_mapController _ _).trans hopen, hlines⟩
    | host step => exact .of_steady ⟨isOpen_mapController _ _, rfl⟩

/-- If the line is on exactly while a device is open, it stays so. -/
theorem lineAfter_turns (d : Device σ) (ts : List Turn) :
    lineAfter d.isOpen (d.turns ts).2.2 = (d.turns ts).2.1.isOpen := by
  induction ts generalizing d with
  | nil => rfl
  | cons t ts ih =>
    rw [turns, lineAfter_append, (d.turn_follows t).lineAfter]
    exact ih (d.turn t).2.1

end Device

/-- A view of a board that shows its interrupt line: a reset of the controller leaves the line as it
is. -/
structure Board.ShowsLine {σ : Type} [Board σ] (line : σ → Bool) : Prop where
  /-- The line after a reset. -/
  reset : ∀ board : σ, line (Board.reset board) = line board
  /-- The line after it was switched. -/
  setInterrupt : ∀ enabled (board : σ), line (Board.setInterrupt enabled board) = enabled

theorem Bench.showsLine : Board.ShowsLine Bench.irq := ⟨fun _ => rfl, fun _ _ => rfl⟩

namespace Board.ShowsLine

variable {σ : Type} [Board σ] {line : σ → Bool}

theorem line_apply (hline : ShowsLine line) (e : Effect) (h : Hardware σ) :
    line (e.apply h).board = lineAfter (line h.board) [e] := by
  cases e with
  | reset => exact hline.reset h.board
  | line enabled => exact hline.setInterrupt enabled h.board
  | clear => exact congrArg line (h.board_mapDpram _)
  | enable e => exact congrArg line (h.board_mapDpram _)
  | arm e data => exact congrArg line (h.board_mapDpram _)
  | write | heed | collect | call => rfl

theorem line_replay (hline : ShowsLine line) (log : List Effect) (h : Hardware σ) :
    line (replay log h).board = lineAfter (line h.board) log := by
  induction log generalizing h with
  | nil => rfl
  | cons e log ih =>
    rw [replay_cons, ih, hline.line_apply, ← lineAfter_append, List.singleton_append]

end Board.ShowsLine

namespace Device

variable {σ : Type} [Board σ]

omit [Board σ] in
theorem board_mapController (d : Device σ) (f : Controller → Controller) :
    (d.mapController f).hw.board = d.hw.board := rfl

theorem board_turn (d : Device σ) (t : Turn) :
    (d.turn t).2.1.hw.board = (replay (d.turn t).2.2 d.hw).board := by
  cases t with
  | overwrite c => rfl
  | step step =>
    cases step with
    | «open» description =>
      show (d.open description).2.1.hw.board = (replay (d.open description).2.2 d.hw).board
      unfold «open»
      cases d.session with
      | some s => rfl
      | none => cases Session.ofDescription description <;> rfl
    | close =>
      show d.close.1.hw.board = (replay d.close.2 d.hw).board
      unfold close
      cases d.session <;> rfl
    | submit interface address data =>
      show (d.submit interface address data).2.1.hw.board =
        (replay (d.submit interface address data).2.2 d.hw).board
      unfold submit
      cases d.session <;> rfl
    | interrupt => exact congrArg Hardware.board (d.hw_handleAll d.pending)
    | service =>
      rw [turn_service, board_mapController, hw_handleAll]
    | host step => exact board_mapController _ _

/-- If a board's line is on exactly while the device is open, so it is after any turns. -/
theorem line_turns {line : σ → Bool} (hline : Board.ShowsLine line) {d : Device σ}
    (h : line d.hw.board = d.isOpen) (ts : List Turn) :
    line (d.turns ts).2.1.hw.board = (d.turns ts).2.1.isOpen := by
  induction ts generalizing d with
  | nil => exact h
  | cons t ts ih =>
    have hturn : line (d.turn t).2.1.hw.board = (d.turn t).2.1.isOpen := by
      rw [board_turn, hline.line_replay, h, (d.turn_follows t).lineAfter]
    exact ih hturn

end Device

/-! ### Failed openings -/

theorem Guarded.open_of_fails {σ : Type} [Board σ] {m : Machine σ} {description : DeviceDescription}
    {e : OpenError} (hd : description.InMemory) (h : (m.toDevice.open description).1 = .error e) :
    «open» m description = .ok (.error e, m, []) := by
  unfold Device.open at h
  unfold «open»
  cases hs : m.session with
  | some s =>
    rw [hs] at h
    cases h
    rfl
  | none =>
    rw [settle_openSession hd, ok_bind]
    cases hsession : Session.ofDescription description with
    | error e' =>
      simp only [hs, hsession] at h
      cases h
      rfl
    | ok s =>
      simp only [hs, hsession] at h
      cases h

namespace Device

variable {σ : Type} [Board σ]

/-- A device is opened step by step as it is opened at once. It fails to open if it is open, or else
if the check or the assembly refuses the description, and for no other reason; then everything is as
it was, a guarded device's scratch buffer included. The interrupt line is on exactly while a device
is open, whatever happens to the device. -/
theorem failed_open_changes_nothing (d : Device σ) (description : DeviceDescription) :
    d.openInTurn description = d.open description ∧
    (∀ e, (d.open description).1 = .error e ↔ d.OpenFails description e) ∧
    (∀ e, (d.open description).1 = .error e →
      d.openInTurn description = (.error e, d, []) ∧
      ∀ scratch, description.InMemory →
        Guarded.open ⟨d, scratch⟩ description = .ok (.error e, ⟨d, scratch⟩, [])) ∧
    ∀ ts : List Turn, lineAfter d.isOpen (d.turns ts).2.2 = (d.turns ts).2.1.isOpen ∧
      ∀ line : σ → Bool, Board.ShowsLine line → line d.hw.board = d.isOpen →
        line (d.turns ts).2.1.hw.board = (d.turns ts).2.1.isOpen := by
  refine ⟨openInTurn_eq d description, fun e => open_eq_error_iff, fun e h => ⟨?_, ?_⟩,
    fun ts => ⟨lineAfter_turns d ts, fun line hline h => line_turns hline h ts⟩⟩
  · rw [openInTurn_eq, open_of_fails h]
  · exact fun scratch hd => Guarded.open_of_fails hd h

/-- The echo device in noise, in the middle of whatever its interrupt found there. -/
def busy : Device Bench :=
  (turns ⟨Guarded.noisyBench, none⟩
    [.step (.open Echo.device), .overwrite Guarded.noise, .step .interrupt]).2.1

/-- A description refused by the check, one refused by the assembly, and a device that is open
already; the line is on once the echo device is open. -/
theorem failed_open_changes_nothing_noisy :
    openInTurn ⟨Guarded.noisyBench, none⟩ { interfaces := [⟨⟨0, 0xFF, 0, 0, ""⟩, []⟩] } =
      (.error (.refused .reservedInterface), ⟨Guarded.noisyBench, none⟩, []) ∧
    openInTurn ⟨Guarded.noisyBench, none⟩ .wordy =
      (.error (.refused .stringTooLong), ⟨Guarded.noisyBench, none⟩, []) ∧
    busy.openInTurn Echo.device = (.error .alreadyOpen, busy, []) ∧
    busy.hw.board.irq = true := by
  have fails {d : Device Bench} {description : DeviceDescription} {e : OpenError}
      (h : d.OpenFails description e) : d.openInTurn description = (.error e, d, []) :=
    ((failed_open_changes_nothing d description).2.2.1 e
      (((failed_open_changes_nothing d description).2.1 e).2 h)).1
  have hlong : DescriptorSet.assemble DeviceDescription.wordy.configuration =
      .error (.refused .stringTooLong) :=
    DescriptorSet.assemble_of_long_text (DeviceDescription.accounted_configuration _) (by decide)
      (.inr (.inl (by decide +kernel)))
  have hbusy : busy.isOpen = true := by decide +kernel
  refine ⟨fails (.check rfl rfl), fails (.assembly rfl DeviceDescription.checked_wordy hlong),
    fails (.alreadyOpen hbusy), ?_⟩
  have hline := ((failed_open_changes_nothing (⟨Guarded.noisyBench, none⟩ : Device Bench) {}).2.2.2
    [.step (.open Echo.device), .overwrite Guarded.noise, .step .interrupt]).2 Bench.irq
    Bench.showsLine rfl
  exact hline.trans hbusy

end Device

end UsbGadget
