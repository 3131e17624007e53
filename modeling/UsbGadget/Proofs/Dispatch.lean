import UsbGadget.Proofs.Footprint

/-!
# The interrupt handles each event once and in order

An interrupt handles a SETUP packet first, then the buffers that came back in ascending order, and
last a reset of the bus. What it does for each of them follows from the description
(`Session.Deals`): the two buffers of endpoint 0 are the control machine's, and every other buffer
belongs to the first endpoint that is described with its address, whose handler, if there is one, is
called once with the packet as it is then.

* `Word.filter_bit_of_ne_zero` takes the lowest bit off a word, and `Device.interruptInTurn_eq`
  shows that doing so again and again until no bit is left handles the same events;
* `Session.deals_react` is the step lemma, for one event; `Device.Dispatches` lifts it to a row of
  events, each of which finds the device as the one before left it;
* `Device.InUse.dispatches` is the main statement.
-/

namespace UsbGadget

/-! ### Bits in ascending order -/

namespace Word

/-- The index of the lowest bit that is set; 32 if there is none. -/
def lowest (w : Word) : Nat := w.toBitVec.ctz.toNat

variable {w : Word} {i : Nat}

theorem toBitVec_ne_zero (h : w ≠ 0) : w.toBitVec ≠ 0#32 :=
  fun hzero => h (UInt32.toBitVec_inj.1 hzero)

theorem bit_lowest (h : w ≠ 0) : w.bit w.lowest = true := by
  rw [bit_eq_getLsbD]
  exact BitVec.getLsbD_true_ctz_of_ne_zero (toBitVec_ne_zero h)

theorem bit_of_lt_lowest (h : i < w.lowest) : w.bit i = false := by
  rw [bit_eq_getLsbD]
  exact BitVec.getLsbD_false_of_lt_ctz h

theorem lt_of_bit (h : w.bit i = true) : i < 32 := by
  rw [bit_eq_getLsbD] at h
  exact BitVec.lt_of_getLsbD h

theorem xor_only (h : w.bit i = true) : w ^^^ only i = w.clear i := by
  apply UInt32.toBitVec_inj.1
  apply BitVec.eq_of_getLsbD_eq
  intro j hj
  rw [UInt32.toBitVec_xor, BitVec.getLsbD_xor, ← bit_eq_getLsbD, ← bit_eq_getLsbD,
    ← bit_eq_getLsbD, bit_only, bit_clear, decide_eq_true hj, Bool.true_and]
  by_cases hij : i = j
  · rw [← hij, h]
    simp
  · simp [hij]

theorem toNat_xor_lowest_lt (h : w ≠ 0) : (w ^^^ only w.lowest).toNat < w.toNat := by
  have hsum := toNat_clear (bit_lowest h)
  have hpos : 0 < 1 <<< w.lowest := by
    rw [Nat.one_shiftLeft]
    exact Nat.two_pow_pos _
  rw [xor_only (bit_lowest h)]
  omega

/-- The bits that are set, in ascending order: the lowest, and those that are left without it. -/
theorem filter_bit_of_ne_zero (h : w ≠ 0) :
    (List.range 32).filter w.bit =
      w.lowest :: (List.range 32).filter (w ^^^ only w.lowest).bit := by
  have hlt := lt_of_bit (bit_lowest h)
  have hrange : List.range 32 =
      List.range' 0 w.lowest ++ w.lowest :: List.range' (w.lowest + 1) (31 - w.lowest) := by
    have happend : List.range' 0 w.lowest ++ List.range' (0 + w.lowest) (31 - w.lowest + 1) =
        List.range' 0 (w.lowest + (31 - w.lowest + 1)) := List.range'_append_1
    rw [Nat.zero_add, List.range'_succ] at happend
    rw [happend, List.range_eq_range']
    congr 1
    omega
  -- below the lowest bit there is none, and above it nothing changes
  have hbelow {v : Word} (hv : ∀ j, v.bit j = true → w.bit j = true) :
      (List.range' 0 w.lowest).filter v.bit = [] := by
    rw [List.filter_eq_nil_iff]
    intro j hj hbit
    have hj' := (List.mem_range'_1.1 hj).2
    have hfalse : w.bit j = false := bit_of_lt_lowest (by omega)
    rw [hv j hbit] at hfalse
    cases hfalse
  have habove : (List.range' (w.lowest + 1) (31 - w.lowest)).filter (w.clear w.lowest).bit =
      (List.range' (w.lowest + 1) (31 - w.lowest)).filter w.bit := by
    apply List.filter_congr
    intro j hj
    have hj' := (List.mem_range'_1.1 hj).1
    rw [bit_clear, decide_eq_false (by omega), Bool.not_false, Bool.and_true]
  have hcleared (j : Nat) (hj : (w.clear w.lowest).bit j = true) : w.bit j = true := by
    rw [bit_clear, Bool.and_eq_true] at hj
    exact hj.1
  rw [xor_only (bit_lowest h), hrange, List.filter_append, List.filter_append, List.filter_cons,
    List.filter_cons, if_pos (bit_lowest h), if_neg (by rw [bit_clear_self]; decide),
    hbelow fun _ => id, hbelow hcleared, habove]
  rfl

end Word

/-! ### The interrupt as a loop -/

namespace Device

variable {σ : Type} [Board σ]

/-- Handles the buffers whose bits are set, taking the lowest bit off again and again. -/
def serviceBits (d : Device σ) (bits : Word) : Device σ × List Effect :=
  if bits = 0 then (d, [])
  else
    let (d, log) := d.handle (.buffer bits.lowest)
    let (d, log') := d.serviceBits (bits ^^^ .only bits.lowest)
    (d, log ++ log')
termination_by bits.toNat
decreasing_by exact Word.toNat_xor_lowest_lt ‹¬bits = 0›

/-- Services the interrupt kind by kind. Which kinds there are is read first, and which buffers came
back only after the SETUP packet was handled. -/
def interruptInTurn (d : Device σ) : Device σ × List Effect :=
  let ints := d.hw.read .ints
  let (d, log) := if ints.bit Bit.setupInterrupt then d.handle .setup else (d, [])
  let (d, log') :=
    if ints.bit Bit.bufferInterrupt then d.serviceBits (d.hw.read .buffStatus) else (d, [])
  let (d, log'') := if ints.bit Bit.resetInterrupt then d.handle .busReset else (d, [])
  (d, log ++ log' ++ log'')

theorem serviceBits_eq (d : Device σ) (bits : Word) :
    d.serviceBits bits = d.handleAll (((List.range 32).filter bits.bit).map .buffer) := by
  fun_induction serviceBits d bits with
  | case1 d =>
    rw [show (List.range 32).filter (Word.bit 0) = [] by decide]
    rfl
  | case2 d bits hbits d' log hhandle d'' log' hrest ih =>
    rw [Word.filter_bit_of_ne_zero hbits, List.map_cons, handleAll_cons, hhandle, ← ih, hrest]

/-- Kind by kind the same events are handled. -/
theorem interruptInTurn_eq (d : Device σ) : d.interruptInTurn = d.interrupt := by
  have hone (d : Device σ) (b : Bool) (event : Event) :
      (if b then d.handle event else (d, [])) = d.handleAll (if b then [event] else []) := by
    cases b
    · rfl
    · exact (handleAll_singleton d event).symm
  have hstatus : (d.handleAll (if (d.hw.read .ints).bit Bit.setupInterrupt then [.setup]
      else [])).1.hw.read .buffStatus = d.hw.read .buffStatus := by
    -- a SETUP packet leaves the status of the buffers alone
    split_ifs
    · rw [handleAll_singleton, read_handle d (by decide) (by decide)]
    · rfl
  have hbuffers (d : Device σ) (b : Bool) (w : Word) :
      (if b then d.serviceBits w else (d, [])) = d.handleAll (if b then
        ((List.range Dpram.bufferControls).filter w.bit).map .buffer else []) := by
    cases b
    · rfl
    · exact serviceBits_eq d w
  simp only [interruptInTurn, hone, hbuffers, hstatus]
  rw [interrupt, pending, Event.reported, handleAll_append, handleAll_append]

end Device

/-! ### What becomes of an event -/

/-- The packet of an endpoint that came back: as many bytes of its buffer as its buffer control word
tells, but no more than its largest packet has. -/
def EndpointDescription.completedData (e : EndpointDescription) (m : Memory Dpram.size) :
    List UInt8 :=
  let back := BufferControl.ofWord (m.word (Dpram.bufferControlOffset e.bufferControl))
  m.readBytes (e.dataBuffer.raw.toNat - Dpram.base.toNat)
    (min back.length (legalPacketSize e.maxPacketSize).toNat)

theorem Endpoint.Serves.completedData_eq {id : UInt8} {e₀ : EndpointDescription} {e : Endpoint}
    (h : e.Serves id e₀) (m : Memory Dpram.size) : e.completedData m = e₀.completedData m := by
  have hoffset : e.bufferOffset = e₀.dataBuffer.raw.toNat - Dpram.base.toNat := by
    rw [h.bufferOffset.address, Nat.add_sub_cancel_left]
  have hlegal : (legalPacketSize e₀.maxPacketSize).toNat ≤ Dpram.bufferSize :=
    legalPacketSize_toNat_le _
  -- a legal packet fits in a slot
  rw [Endpoint.completedData, completedLength, EndpointDescription.completedData, hoffset,
    h.bufferControl, h.maxPacketSize, Nat.min_eq_left (Nat.le_trans (Nat.min_le_right _ _) hlegal)]

/-- The first endpoint that is described with the address of a buffer. -/
def DeviceDescription.behind? (d : DeviceDescription) (index : Nat) : Option EndpointDescription :=
  d.endpoints.find? (·.address == Event.bufferAddress index)

/-- What a session that comes of a description does with an event. -/
inductive Session.Deals (description : DeviceDescription) (m : Memory Dpram.size) (s : Session) :
    Event → Session × List Effect → Prop
  /-- The SETUP packet is the one at the start of the memory. -/
  | setup {p : SetupPacket} (hp : SetupPacket.ofBytes? (m.readBytes 0 8) = some p) :
    Deals description m s .setup ((s.setup p).1, .heed p :: (s.setup p).2)
  /-- A packet of endpoint 0 has gone out. -/
  | sent (e : Endpoint) (data : List UInt8) :
    Deals description m s (.buffer 0)
      ((s.proceed s.control.sent).1, .collect e data :: (s.proceed s.control.sent).2)
  /-- A packet of endpoint 0 has come in. -/
  | received (e : Endpoint) (data : List UInt8) :
    Deals description m s (.buffer 1)
      ({ s with control := s.control.received.1 }, [.collect e data])
  /-- The buffer belongs to no endpoint. -/
  | stray {index : Nat} (hindex : 2 ≤ index) (hnone : description.behind? index = none) :
    Deals description m s (.buffer index) (s, [])
  /-- The buffer belongs to an endpoint without a handler. -/
  | unheard {index : Nat} {e₀ : EndpointDescription} (hindex : 2 ≤ index)
      (hfind : description.behind? index = some e₀) (hhandler : e₀.handler = none)
      (e : Endpoint) (data : List UInt8) :
    Deals description m s (.buffer index) (s, [.collect e data])
  /-- The buffer belongs to an endpoint with a handler. -/
  | heard {index : Nat} {e₀ : EndpointDescription} {handler : Handler} {s' : Session}
      {log : List Effect} {answers : List Bool} (hindex : 2 ≤ index)
      (hfind : description.behind? index = some e₀) (hhandler : e₀.handler = some handler)
      (hrun : s.run (handler.onData (e₀.completedData m)) = (s', log, answers)) (e : Endpoint) :
    Deals description m s (.buffer index)
      (s', .collect e (e₀.completedData m) ::
        .call handler.name (e₀.completedData m) answers :: log)
  /-- The bus is reset. -/
  | busReset :
    Deals description m s .busReset ({ s with control := {} }, [.write .addrEndp 0])

namespace Session

variable {description : DeviceDescription} {s₀ s : Session}

theorem ownerOf_of_bufferAddress {e₀ : EndpointDescription} {index : Nat} (hindex : 2 ≤ index)
    (hlt : index < Dpram.bufferControls) (h : e₀.address = Event.bufferAddress index) (id : UInt8) :
    Endpoint.ownerOf id e₀ = .caller e₀.handler := by
  rw [Endpoint.ownerOf, if_neg]
  rintro ⟨-, hnumber⟩
  obtain ⟨hin, hout⟩ := Event.bufferAddress_ne hindex hlt
  rw [← h, EndpointDescription.address, hnumber] at hin hout
  cases hd : e₀.direction with
  | input => exact hin (by rw [hd]; rfl)
  | output => exact hout (by rw [hd]; rfl)

/-- Searching a session for the endpoint of a buffer finds the one that the description has. -/
theorem rel_behind? (h : ofDescription description = .ok s₀) (hsame : s₀.Same s) (index : Nat) :
    Option.Rel (fun e₀ e => ∃ id, Endpoint.Serves id e₀ e) (description.behind? index)
      (s.endpoints.find? (·.address == Event.bufferAddress index)) := by
  refine rel_find? (fun e₀ e hserves => ?_) ?_
  · obtain ⟨_, hserves⟩ := hserves
    rw [hserves.address]
  · rw [← description.map_numbered, List.forall₂_map_left_iff]
    exact (serves_of_same h hsame).imp fun p e hserves => ⟨p.1, hserves⟩

/-- Every event is dealt with as the description says, whatever is in the packet memory. -/
theorem deals_react (h : ofDescription description = .ok s₀) (hsame : s₀.Same s) {event : Event}
    (hevent : event.Reportable) (m : Memory Dpram.size) :
    s.Deals description m event (s.react m event) := by
  have harranged := ((sound_of_ofDescription h).of_same hsame).arranged
  cases event with
  | setup => exact .setup (SetupPacket.ofBytes?_readBytes m)
  | busReset => exact .busReset
  | buffer index =>
    obtain _ | _ | index := index
    · rw [react_sent harranged]
      exact .sent _ _
    · rw [react_received harranged]
      exact .received _ _
    · have hindex : 2 ≤ index + 2 := Nat.le_add_left 2 index
      have hrel := rel_behind? h hsame (index + 2)
      simp only [react]
      generalize hfind : description.behind? (index + 2) = found at hrel
      generalize s.endpoints.find? (·.address == Event.bufferAddress (index + 2)) = found' at hrel
      cases hrel with
      | none => exact .stray hindex hfind
      | @some e₀ e hserves =>
        obtain ⟨id, hserves⟩ := hserves
        have haddress : e₀.address = Event.bufferAddress (index + 2) := by
          simpa using List.find?_some hfind
        have howner : e.owner = .caller e₀.handler :=
          hserves.owner.trans (ownerOf_of_bufferAddress hindex hevent haddress id)
        cases hhandler : e₀.handler with
        | none =>
          simp only [completed, howner, hhandler]
          exact .unheard hindex hfind hhandler _ _
        | some handler =>
          simp only [completed, howner, hhandler, hserves.completedData_eq]
          exact .heard hindex hfind hhandler rfl _

end Session

/-! ### Rows of events -/

/-- The writes to the status registers, in order. -/
def statusWrites (log : List Effect) : List (Register × Word) :=
  log.filterMap fun
    | .write r w => if r = .sieStatus ∨ r = .buffStatus then some (r, w) else none
    | _ => none

/-- The one write to a status register that takes an event off the hardware's list. -/
def Event.statusWrite (event : Event) : Register × Word :=
  (event.status, match event with
    | setup => .only Bit.setupReceived
    | buffer index => .only index
    | busReset => .only Bit.busReset)

/-- The handler that is called upon an event. -/
def DeviceDescription.handler? (d : DeviceDescription) : Event → Option String
  | .buffer index =>
    if index < 2 then none
    else ((d.behind? index).bind (·.handler)).map Handler.name
  | .setup | .busReset => none

theorem statusWrites_append (log log' : List Effect) :
    statusWrites (log ++ log') = statusWrites log ++ statusWrites log' := List.filterMap_append

theorem calls_append (log log' : List Effect) : calls (log ++ log') = calls log ++ calls log' :=
  List.filterMap_append

theorem Session.Moves.statusWrites_eq_nil {s : Session} {result : Session × List Effect}
    (h : s.Moves result) : statusWrites result.2 = [] := by
  refine List.filterMap_eq_nil_iff.2 fun effect heffect => ?_
  rcases h.quiet_or_arm effect heffect with hquiet | ⟨e, data, rfl⟩
  · cases effect with
    | write r w =>
      obtain rfl : r = .addrEndp := hquiet
      rfl
    | heed | collect | call => rfl
    | reset | clear | line | enable | arm => cases hquiet
  · rfl

namespace Session

theorem calls_arm (s : Session) (position : Nat) (data : List UInt8) :
    calls (s.arm position data).2 = [] := by
  unfold arm
  cases s.endpoints[position]? <;> rfl

theorem calls_proceed (s : Session) (step : Control × Reply) : calls (s.proceed step).2 = [] := by
  unfold proceed
  cases step.2 with
  | silent | moveTo => rfl
  | send data => exact calls_arm _ _ _
  | receive => exact calls_arm _ _ _

theorem calls_run (s : Session) (p : Program) : calls (s.run p).2.1 = [] := by
  induction p generalizing s with
  | done => rfl
  | askConfigured next ih => exact ih _ s
  | submit interface address data next ih =>
    have hsubmit : calls (s.submit interface address data).2.1 = [] := by
      unfold submit
      cases s.position? interface address with
      | none => rfl
      | some position => exact s.calls_arm position data
    rw [run, calls_append, hsubmit]
    exact ih _ _

/-- An event calls the handler of its endpoint, and no other. -/
theorem Deals.calls {description : DeviceDescription} {m : Memory Dpram.size} {s : Session}
    {event : Event} {result : Session × List Effect} (h : s.Deals description m event result) :
    (UsbGadget.calls result.2).map Prod.fst = (description.handler? event).toList := by
  have hbehind {index : Nat} (hindex : 2 ≤ index) : description.handler? (.buffer index) =
      ((description.behind? index).bind (·.handler)).map Handler.name :=
    if_neg (Nat.not_lt.2 hindex)
  cases h with
  | setup | sent => exact congrArg (List.map Prod.fst) (calls_proceed _ _)
  | received | busReset => rfl
  | stray hindex hnone =>
    rw [hbehind hindex, hnone]
    rfl
  | unheard hindex hfind hhandler =>
    rw [hbehind hindex, hfind, Option.bind_some, hhandler]
    rfl
  | @heard index e₀ handler s' log answers hindex hfind hhandler hrun e =>
    have hnone : UsbGadget.calls log = [] := by
      rw [← s.calls_run (handler.onData (e₀.completedData m)), hrun]
    rw [hbehind hindex, hfind, Option.bind_some, hhandler]
    show List.map Prod.fst ((handler.name, _) :: UsbGadget.calls log) = _
    rw [hnone]
    rfl

end Session

namespace Device

variable {σ : Type} [Board σ] {description : DeviceDescription} {d : Device σ} {s₀ s : Session}

/-- Events are handled one after the other: each is acknowledged and then dealt with, by the device
that the events before it have left. -/
inductive Dispatches (description : DeviceDescription) :
    Device σ → List Event → Device σ × List Effect → Prop
  /-- There are no more events. -/
  | done (d : Device σ) : Dispatches description d [] (d, [])
  /-- An event, and those after it. -/
  | event {d d' : Device σ} {s s' : Session} {log log' : List Effect} {event : Event}
      {events : List Event} (hs : d.session = some s)
      (hdeals : s.Deals description d.hw.dpram event (s', log))
      (hrest : Dispatches description (d.after (event.acknowledge :: log) (some s')) events
        (d', log')) :
      Dispatches description d (event :: events) (d', event.acknowledge :: log ++ log')

theorem dispatches_handleAll (h : Session.ofDescription description = .ok s₀) (hsame : s₀.Same s)
    (hs : d.session = some s) {events : List Event}
    (hreport : ∀ event ∈ events, event.Reportable) :
    Dispatches description d events (d.handleAll events) := by
  induction events generalizing d s with
  | nil => exact .done d
  | cons event events ih =>
    rw [List.forall_mem_cons] at hreport
    have harranged := ((Session.sound_of_ofDescription h).of_same hsame).arranged
    have hkept := Session.kept_react harranged d.hw.dpram event
    have hdeals := Session.deals_react h hsame hreport.1 d.hw.dpram
    rw [handleAll_cons, handle_eq hs]
    exact .event hs hdeals (ih (hsame.trans hkept.same) rfl hreport.2)

/-- Each event has one write to a status register, in the order of the events. -/
theorem statusWrites_handleAll (hs : d.session = some s) (events : List Event) :
    statusWrites (d.handleAll events).2 = events.map Event.statusWrite := by
  induction events generalizing d s with
  | nil => rfl
  | cons event events ih =>
    have hfirst : statusWrites (d.handle event).2 = [event.statusWrite] := by
      rw [handle_eq hs]
      have hnone := (s.moves_react d.hw.dpram event).statusWrites_eq_nil
      cases event <;> exact congrArg (List.cons _) hnone
    have hrest := ih (d := (d.handle event).1) (by rw [handle_eq hs, session_after])
    rw [handleAll_cons, statusWrites_append, hfirst, hrest]
    rfl

theorem Dispatches.calls {events : List Event} {result : Device σ × List Effect}
    (h : Dispatches description d events result) :
    (UsbGadget.calls result.2).map Prod.fst = events.filterMap description.handler? := by
  induction h with
  | done => rfl
  | @event d d' s s' log log' event events hs hdeals hrest ih =>
    have hfirst := hdeals.calls
    have hacknowledge : UsbGadget.calls (event.acknowledge :: log) = UsbGadget.calls log := by
      cases event <;> rfl
    rw [calls_append, hacknowledge, List.map_append, hfirst, ih, List.filterMap_cons]
    cases description.handler? event <;> rfl

/-! ### The main statement -/

/-- An interrupt handles a SETUP packet first, if one is reported, then each buffer whose bit is
set in the status read, once and in ascending order, and last a reset of the bus. Each event is
acknowledged by one write to a status register and dealt with as the description says; going through
the bits one by one comes to the same. -/
theorem InUse.dispatches (hd : d.InUse description) :
    ∃ indices : List Nat, indices.Pairwise (· < ·) ∧
      (∀ i, i ∈ indices ↔ (d.hw.read .ints).bit Bit.bufferInterrupt = true ∧
        i < Dpram.bufferControls ∧ (d.hw.read .buffStatus).bit i = true) ∧
      Dispatches description d
        ((if (d.hw.read .ints).bit Bit.setupInterrupt then [.setup] else []) ++
          indices.map .buffer ++
          (if (d.hw.read .ints).bit Bit.resetInterrupt then [.busReset] else [])) d.interrupt ∧
      statusWrites d.interrupt.2 =
        (if (d.hw.read .ints).bit Bit.setupInterrupt then [(.sieStatus, .only 17)] else []) ++
          indices.map (fun i => (.buffStatus, .only i)) ++
          (if (d.hw.read .ints).bit Bit.resetInterrupt then [(.sieStatus, .only 19)] else []) ∧
      (calls d.interrupt.2).map Prod.fst =
        indices.filterMap (fun i => description.handler? (.buffer i)) ∧
      d.interruptInTurn = d.interrupt := by
  obtain ⟨s₀, s, hs₀, hsame, hs⟩ := hd.session
  let indices :=
    if (d.hw.read .ints).bit Bit.bufferInterrupt then d.hw.toController.returned else []
  have hmem (i : Nat) : i ∈ indices ↔ (d.hw.read .ints).bit Bit.bufferInterrupt = true ∧
      i < Dpram.bufferControls ∧ (d.hw.read .buffStatus).bit i = true := by
    rw [List.mem_ite_nil_right, Controller.mem_returned]
  have hpending : d.pending =
      (if (d.hw.read .ints).bit Bit.setupInterrupt then [.setup] else []) ++
        indices.map .buffer ++
        (if (d.hw.read .ints).bit Bit.resetInterrupt then [.busReset] else []) := by
    rw [pending, Event.reported, apply_ite (List.map Event.buffer), List.map_nil]
    rfl
  have hreport : ∀ event ∈ d.pending, event.Reportable := by
    intro event hevent
    cases event with
    | setup | busReset => trivial
    | buffer i => exact lt_of_mem_pending hevent
  have hdispatches := dispatches_handleAll hs₀ hsame hs hreport
  have hcalls := hdispatches.calls
  have hwrites := statusWrites_handleAll hs d.pending
  rw [interrupt]
  refine ⟨indices, ?_, hmem, hpending ▸ hdispatches, ?_, ?_, interruptInTurn_eq d⟩
  · show (if (d.hw.read .ints).bit Bit.bufferInterrupt then d.hw.toController.returned
      else []).Pairwise (· < ·)
    split_ifs
    · exact List.Pairwise.filter _ List.pairwise_lt_range
    · exact .nil
  · rw [hwrites, hpending, List.map_append, List.map_append, List.map_map,
      apply_ite (List.map Event.statusWrite), apply_ite (List.map Event.statusWrite)]
    rfl
  · -- neither a SETUP packet nor a reset calls a handler
    rw [hcalls, hpending, List.filterMap_append, List.filterMap_append, List.filterMap_map,
      apply_ite (List.filterMap description.handler?),
      apply_ite (List.filterMap description.handler?)]
    show (if _ then [] else []) ++ _ ++ (if _ then [] else []) = _
    rw [ite_self, ite_self, List.nil_append, List.append_nil]
    rfl

/-- In noise all kinds of events are reported, and every bit is set. -/
theorem dispatches_overwritten :
    overwritten.InUse Echo.device ∧ ∃ indices : List Nat, indices.Pairwise (· < ·) ∧
      (∀ i < Dpram.bufferControls, i ∈ indices) ∧
      Dispatches Echo.device overwritten ([.setup] ++ indices.map .buffer ++ [.busReset])
        overwritten.interrupt := by
  obtain ⟨indices, hsorted, hmem, hdispatches, -⟩ := inUse_overwritten.dispatches
  obtain ⟨hsetup, hbuffer, hreset, hbits⟩ :
      (overwritten.hw.read .ints).bit Bit.setupInterrupt = true ∧
        (overwritten.hw.read .ints).bit Bit.bufferInterrupt = true ∧
        (overwritten.hw.read .ints).bit Bit.resetInterrupt = true ∧
        ∀ i < Dpram.bufferControls, (overwritten.hw.read .buffStatus).bit i = true := by
    decide +kernel
  rw [if_pos hsetup, if_pos hreset] at hdispatches
  exact ⟨inUse_overwritten, indices, hsorted, fun i hi => (hmem i).2 ⟨hbuffer, hi, hbits i hi⟩,
    hdispatches⟩

end Device

end UsbGadget
