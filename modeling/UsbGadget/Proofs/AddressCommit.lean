import UsbGadget.Proofs.ControlEndpoint
import UsbGadget.Proofs.History

/-!
# When a new address is moved to

A device moves to an assigned address when a packet of endpoint 0 has gone out while the address is
pending. That packet ought to be the acknowledgement of the request that assigned the address
(`Earned`), but the machine does not ask which packet it was. It is the right one exactly where the
last SETUP packet assigned an address and was handled by an earlier interrupt (`Settled`):
`Device.commit_earned_iff`.

The invariant is `Accounted`: while an address is pending that the last SETUP packet assigned, its
acknowledgement was armed right then and no other IN packet since. `InProgress.handle` keeps it
along the events of an interrupt.
-/

namespace UsbGadget

/-- The IN half of endpoint 0. -/
def Endpoint.IsEp0In (e : Endpoint) : Prop := e.interface = 0 ∧ e.address = Ep0.inAddress

/-- A step of a run in which only endpoint 0 is in use: SETUP packets, completions of endpoint 0,
bus resets and interrupts. -/
def DeviceStep.OnEp0 : DeviceStep → Prop
  | service | host (.setup _) | host .busReset => True
  | host (.complete address data force) =>
    (address = Ep0.inAddress ∨ address = Ep0.outAddress) ∧ force = false ∧
      data.length ≤ Dpram.bufferSize
  | host (.poke _ _ _) | host (.peek _ _) | host .updateInterrupts => False
  | «open» _ | close | submit _ _ _ | interrupt => False

namespace Happening

/-- No packet of the IN half of endpoint 0 is armed. -/
def NoArm (h : List Happening) : Prop := ∀ e data, .effect (.arm e data) ∈ h → ¬e.IsEp0In

/-- The host completes a packet of the IN half of endpoint 0. -/
def Fetched (h : List Happening) : Prop :=
  ∃ data, .host (.complete Ep0.inAddress data false) (.answer true) ∈ h

/-- The host has completed the packet that acknowledges the request which assigned the address `w`,
and no SETUP packet was handled since that request. -/
def Earned (h : List Happening) (w : Word) : Prop :=
  ∃ pre p e armed data since,
    h = pre ++ .effect (.heed p) :: .effect (.arm e []) ::
      (armed ++ .host (.complete Ep0.inAddress data false) (.answer true) :: since) ∧
    p.SetsAddress ∧ w = UInt32.ofNat (p.value.toNat % 128) ∧ e.IsEp0In ∧
    NoSetup (armed ++ since) ∧ NoArm armed

/-- The last SETUP packet assigned an address, and an earlier interrupt handled it. -/
def Settled (h : List Happening) : Prop :=
  ∃ pre p since, h = pre ++ .effect (.heed p) :: since ∧ p.SetsAddress ∧ NoSetup since ∧
    .interrupt ∈ since

/-- While an address is pending that the last SETUP packet assigned, it is the one remembered, its
acknowledgement was armed right then, no other IN packet was armed since, and `P` holds of what
happened since. -/
def Accounted (h : List Happening) (c : Control) (P : List Happening → Prop) : Prop :=
  c.addressPending = true → ∀ pre p since, h = pre ++ .effect (.heed p) :: since → NoSetup since →
    p.SetsAddress → c.address = UInt8.ofNat p.value.toNat ∧
      ∃ e rest, since = .effect (.arm e []) :: rest ∧ e.IsEp0In ∧ NoArm rest ∧ P since

theorem Accounted.mono {h : List Happening} {c : Control} {P Q : List Happening → Prop}
    (hh : Accounted h c P) (hPQ : ∀ since, P since → Q since) : Accounted h c Q := by
  intro hp pre p since heq hsince hsets
  obtain ⟨haddress, e, rest, hrest, he, harm, hP⟩ := hh hp pre p since heq hsince hsets
  exact ⟨haddress, e, rest, hrest, he, harm, hPQ _ hP⟩

/-- An interrupt began, and since then there were effects of the engine only. -/
def Begun (h : List Happening) : Prop :=
  ∃ (h₀ : List Happening) (log : List Effect), h = h₀ ++ .interrupt :: log.map .effect

theorem Begun.append {h : List Happening} (hh : Begun h) (log : List Effect) :
    Begun (h ++ log.map .effect) := by
  obtain ⟨h₀, log₀, rfl⟩ := hh
  exact ⟨h₀, log₀ ++ log, by simp⟩

theorem noArm_nil : NoArm [] := fun _ _ h => absurd h List.not_mem_nil

theorem NoArm.append {h h' : List Happening} (hh : NoArm h) (hh' : NoArm h') : NoArm (h ++ h') :=
  fun e data hmem => (List.mem_append.1 hmem).elim (hh e data) (hh' e data)

theorem NoArm.of_append {h h' : List Happening} (hh : NoArm (h ++ h')) : NoArm h :=
  fun e data hmem => hh e data (List.mem_append_left _ hmem)

theorem accounted_of_not_pending {h : List Happening} {c : Control} {P : List Happening → Prop}
    (hc : c.addressPending = false) : Accounted h c P :=
  fun hpending => absurd (hc.symm.trans hpending) Bool.false_ne_true

/-- What handles no SETUP packet and arms no IN packet keeps the account. -/
theorem Accounted.append {h l : List Happening} {c c' : Control} {P Q : List Happening → Prop}
    (hh : Accounted h c P) (haddress : c'.address = c.address)
    (hpending : c'.addressPending = true → c.addressPending = true) (hsetup : NoSetup l)
    (harm : NoArm l) (hPQ : ∀ since, P since → Q (since ++ l)) : Accounted (h ++ l) c' Q := by
  intro hp pre p since heq hsince hsets
  obtain ⟨since', rfl, rfl⟩ := split_append heq hsetup
  obtain ⟨haddr, e, rest, rfl, he, hrest, hP⟩ :=
    hh (hpending hp) pre p since' rfl (noSetup_append.1 hsince).1 hsets
  exact ⟨haddress.trans haddr, e, rest ++ l, rfl, he, hrest.append harm, hPQ _ hP⟩

theorem interrupt_mem_since {h₀ pre since : List Happening} {log : List Effect} {step : HostStep}
    {outcome : Outcome}
    (h : h₀ ++ .interrupt :: log.map .effect = pre ++ .host step outcome :: since) :
    .interrupt ∈ since := by
  rcases List.append_eq_append_iff.1 h with ⟨mid, -, hmid⟩ | ⟨mid, -, hmid⟩
  · have hmem : Happening.host step outcome ∈ Happening.interrupt :: log.map .effect := by
      rw [hmid]
      simp
    simp at hmem
  · rcases mid with _ | ⟨x, mid⟩
    · cases hmid
    · rw [List.cons_append, List.cons.injEq] at hmid
      rw [hmid.2]
      simp

theorem noSetup_acknowledged {armed since : List Happening} (h : NoSetup (armed ++ since))
    (e : Endpoint) (data : List UInt8) :
    NoSetup (.effect (.arm e []) ::
      (armed ++ .host (.complete Ep0.inAddress data false) (.answer true) :: since)) := by
  rw [noSetup_append] at h
  rw [noSetup_cons, noSetup_append, noSetup_cons]
  exact ⟨nofun, h.1, nofun, h.2⟩

theorem settled_of_earned {h : List Happening} {w : Word} (hh : Begun h) (hearned : Earned h w) :
    Settled h := by
  obtain ⟨h₀, log, hh⟩ := hh
  obtain ⟨pre, p, e, armed, data, since, heq, hsets, -, -, hnone, -⟩ := hearned
  refine ⟨pre, p, _, heq, hsets, ?_, ?_⟩
  · exact noSetup_acknowledged hnone e data
  · rw [hh, ← List.cons_append, ← List.cons_append, ← List.append_assoc] at heq
    have hmem := interrupt_mem_since heq
    simp [hmem]

theorem earned_of_settled {h l : List Happening} {c : Control} {gone : Bool}
    (hh : Accounted h c fun since => gone = true → .interrupt ∈ since → Fetched since)
    (hpending : c.addressPending = true) (hgone : gone = true) (hl : NoSetup l)
    (hinterrupt : .interrupt ∉ l) (hsettled : Settled (h ++ l)) :
    Earned (h ++ l) (UInt32.ofNat (UInt8.ofNat (c.address.toNat % 128)).toNat) := by
  obtain ⟨pre, p, since, heq, hsets, hsince, hmem⟩ := hsettled
  obtain ⟨since, rfl, rfl⟩ := split_append heq hl
  have hnone := (noSetup_append.1 hsince).1
  have hbegun : .interrupt ∈ since := (List.mem_append.1 hmem).resolve_right hinterrupt
  obtain ⟨haddress, e, rest, rfl, he, hrest, hfetched⟩ := hh hpending pre p since rfl hnone hsets
  obtain ⟨data, hdata⟩ := hfetched hgone hbegun
  -- the acknowledgement was armed right after the request, so the host's completion comes later
  have hdata' : .host (.complete Ep0.inAddress data false) (.answer true) ∈ rest := by
    simpa using hdata
  obtain ⟨armed, since', rfl⟩ := List.append_of_mem hdata'
  refine ⟨pre, p, e, armed, data, since' ++ l, ?_, hsets, ?_, he, ?_, hrest.of_append⟩
  · simp
  · rw [haddress]
    have hlt : p.value.toNat % 128 < 256 := by omega
    congr 1
    simp only [UInt8.toNat_ofNat']
    omega
  · rw [noSetup_cons, noSetup_append, noSetup_cons] at hnone
    rw [noSetup_append, noSetup_append]
    exact ⟨hnone.2.1, hnone.2.2.2, hl⟩

end Happening

open Happening

/-- Every address that the events in a piece of history move to is earned exactly if it is settled;
the address 0 of a bus reset does not count. -/
def CommitsEarned (h piece : List Happening) : Prop :=
  ∀ before w after, piece = before ++ .effect (.write .addrEndp w) :: after →
    before.getLast? ≠ some (.effect Event.busReset.acknowledge) →
    (Earned (h ++ before) w ↔ Settled (h ++ before))

theorem CommitsEarned.append {h a b : List Happening} (ha : CommitsEarned h a)
    (hb : CommitsEarned (h ++ a) b) (hhead : ∀ w, b.head? ≠ some (.effect (.write .addrEndp w))) :
    CommitsEarned h (a ++ b) := by
  intro before w after heq hlast
  rcases List.append_eq_append_iff.1 heq with ⟨mid, rfl, hmid⟩ | ⟨mid, rfl, hmid⟩
  · -- the second piece does not begin with an address, so what comes before it is in that piece
    have hne : mid ≠ [] := by
      rintro rfl
      exact hhead w (by rw [hmid]; rfl)
    rw [List.getLast?_append_of_ne_nil _ hne] at hlast
    rw [← List.append_assoc]
    exact hb mid w after hmid hlast
  · rcases mid with _ | ⟨x, mid⟩
    · exact absurd (by rw [← List.nil_append b, ← hmid]; rfl) (hhead w)
    · rw [List.cons_append, List.cons.injEq] at hmid
      exact ha before w mid (by rw [hmid.1]) hlast

theorem commitsEarned_of_not_mem {h piece : List Happening}
    (hpiece : ∀ w, .effect (.write .addrEndp w) ∉ piece) : CommitsEarned h piece := by
  rintro before w after rfl -
  exact absurd (by simp) (hpiece w)

/-! ### Events -/

/-- An event of endpoint 0 of which the host may be the cause: of the IN half only if it has
completed a packet. -/
def Event.OnEp0 (gone : Bool) : Event → Prop
  | setup | busReset => True
  | buffer index => index = 1 ∨ (index = 0 ∧ gone = true)

namespace Device

variable {σ : Type} [Board σ]

/-- An interrupt that is being serviced after the history `h`; `gone` says whether a packet of the
IN half had gone out when it began. -/
structure InProgress (gone : Bool) (h : List Happening) (d : Device σ) (s : Session) : Prop where
  /-- The device is active. -/
  active : d.Active s
  /-- It is in the middle of the interrupt. -/
  begun : Begun h
  /-- The account is kept. -/
  accounted : Accounted h s.control fun since => gone = true → .interrupt ∈ since → Fetched since

/-- The history of handling an event. -/
def handled (d : Device σ) (event : Event) : List Happening := (d.handle event).2.map .effect

variable {d : Device σ} {s : Session} {gone : Bool} {h : List Happening}

theorem handled_eq (hd : d.session = some s) (event : Event) :
    d.handled event =
      (event.acknowledge :: (s.react d.hw.dpram event).2).map .effect := by
  rw [handled, handle_eq hd]

theorem accounted_setup (hs : Session.Arranged s.endpoints) (p : SetupPacket) :
    Accounted (h ++ .effect (.heed p) :: (s.setup p).2.map .effect) (s.setup p).1.control
      fun since => gone = true → .interrupt ∈ since → Fetched since := by
  have htail : NoSetup ((s.setup p).2.map .effect) ∧
      Happening.interrupt ∉ (s.setup p).2.map Happening.effect := by
    rcases Session.setup_log hs p with hlog | ⟨data, hlog⟩ <;> simp [hlog, NoSetup]
  intro hpending pre p' since heq hsince hsets
  -- the packet that is handled now is the last one
  obtain ⟨-, rfl, rfl⟩ := split_unique heq htail.1 hsince
  have hsetup := s.control.setup_of_setsAddress s.descriptors packetLimit hsets
  have hlog : (s.setup p).2 = [.arm (.ofControl .input .data1) []] := by
    rw [Session.setup_eq hs, hsetup, Session.proceed_send (hs.replace .data1 .data1)]
    rfl
  refine ⟨by rw [Session.control_setup hs, hsetup], .ofControl .input .data1, [], ?_, ?_, ?_, ?_⟩
  · rw [hlog]
    rfl
  · exact ⟨rfl, rfl⟩
  · exact noArm_nil
  · exact fun _ hmem => absurd hmem htail.2

/-- Handling an event keeps the account. -/
theorem InProgress.handle (hp : InProgress gone h d s) {event : Event} (hevent : event.OnEp0 gone) :
    InProgress gone (h ++ d.handled event) (d.handle event).1 (s.react d.hw.dpram event).1 := by
  have hs := hp.active.sound.arranged
  refine ⟨hp.active.handle event, hp.begun.append _, ?_⟩
  rw [handled_eq hp.active.session]
  cases event with
  | busReset => exact accounted_of_not_pending rfl
  | setup =>
    rw [List.map_cons, List.append_cons]
    exact accounted_setup hs _
  | buffer index =>
    rcases hevent with rfl | ⟨rfl, -⟩
    · rw [Session.react_received hs]
      refine hp.accounted.append rfl id ?_ ?_ ?_
      · simp [NoSetup, Event.acknowledge]
      · simp [NoArm, Event.acknowledge]
      · intro since hfetched hgone hmem
        have hmem' : .interrupt ∈ since := by simpa using hmem
        obtain ⟨data, hdata⟩ := hfetched hgone hmem'
        exact ⟨data, List.mem_append_left _ hdata⟩
    · rw [Session.react_sent hs]
      have hnone := s.control.sent_not_pending
      exact accounted_of_not_pending (by rwa [Session.control_proceed])

/-- A bus reset moves to the address 0, which does not count. -/
theorem commitsEarned_busReset (s : Session) (m : Memory Dpram.size) :
    CommitsEarned h ((Event.busReset.acknowledge :: (s.react m .busReset).2).map .effect) := by
  intro before w after heq hlast
  obtain _ | ⟨x, _ | ⟨y, before⟩⟩ := before
  · simp [Event.acknowledge] at heq
  · rw [List.map_cons, List.cons_append, List.cons.injEq] at heq
    exact absurd (by rw [← heq.1]; rfl) hlast
  · simp [Session.react, Session.busReset, Control.busReset, Session.proceed] at heq

omit [Board σ] in
theorem InProgress.commitsEarned_sent (hp : InProgress gone h d s) (hgone : gone = true)
    (m : Memory Dpram.size) :
    CommitsEarned h (((Event.buffer 0).acknowledge :: (s.react m (.buffer 0)).2).map .effect) := by
  rw [Session.react_sent hp.active.sound.arranged]
  cases hpending : s.control.addressPending with
  | false =>
    obtain ⟨e, data, hlog⟩ := Session.sent_log hp.active.sound.arranged hpending
    apply commitsEarned_of_not_mem
    intro w hmem
    simp [hlog, Event.acknowledge] at hmem
  | true =>
    rw [Session.proceed_sent_of_pending hpending]
    intro before w after heq hlast
    -- the address is written third, after the acknowledgement and the packet that is read
    obtain _ | ⟨x, _ | ⟨y, _ | ⟨z, before⟩⟩⟩ := before
    · simp [Event.acknowledge] at heq
    · simp at heq
    · simp only [List.map_cons, List.map_nil, List.cons_append, List.nil_append,
        List.cons.injEq, effect.injEq, Effect.write.injEq, true_and] at heq
      obtain ⟨rfl, rfl, rfl, -⟩ := heq
      refine ⟨settled_of_earned (hp.begun.append [_, _]), earned_of_settled hp.accounted hpending
        hgone ?_ ?_⟩
      · simp [NoSetup, Event.acknowledge]
      · simp
    · simp at heq

/-- What an event moves to is earned exactly if it is settled. -/
theorem InProgress.commitsEarned (hp : InProgress gone h d s) {event : Event}
    (hevent : event.OnEp0 gone) : CommitsEarned h (d.handled event) := by
  have hs := hp.active.sound.arranged
  rw [handled_eq hp.active.session]
  cases event with
  | setup =>
    apply commitsEarned_of_not_mem
    intro w hmem
    rcases Session.setup_log hs (SetupPacket.inMemory d.hw.dpram) with hlog | ⟨data, hlog⟩ <;>
      simp [Session.react, hlog, Event.acknowledge] at hmem
  | busReset => exact commitsEarned_busReset s _
  | buffer index =>
    rcases hevent with rfl | ⟨rfl, hgone⟩
    · rw [Session.react_received hs]
      exact commitsEarned_of_not_mem fun w hmem => by simp [Event.acknowledge] at hmem
    · exact hp.commitsEarned_sent hgone _

theorem head_handleAll (hd : d.Active s) (events : List Event) (w : Word) :
    ((d.handleAll events).2.map Happening.effect).head? ≠ some (.effect (.write .addrEndp w)) := by
  cases events with
  | nil => exact nofun
  | cons event events =>
    simp only [handleAll, handle_eq hd.session]
    cases event <;> simp [Event.acknowledge]

theorem InProgress.handleAll (hp : InProgress gone h d s) {events : List Event}
    (hevents : ∀ event ∈ events, event.OnEp0 gone) :
    (∃ s', InProgress gone (h ++ (d.handleAll events).2.map .effect) (d.handleAll events).1 s') ∧
      CommitsEarned h ((d.handleAll events).2.map .effect) := by
  induction events generalizing h d s with
  | nil => exact ⟨⟨s, by simpa [Device.handleAll] using hp⟩, commitsEarned_of_not_mem nofun⟩
  | cons event events ih =>
    rw [List.forall_mem_cons] at hevents
    have hp' := hp.handle hevents.1
    obtain ⟨hkept, hearned⟩ := ih hp' hevents.2
    have hlog : (d.handleAll (event :: events)).2.map Happening.effect =
        d.handled event ++ ((d.handle event).1.handleAll events).2.map .effect := by
      simp only [Device.handleAll, List.map_append, handled]
    rw [hlog, ← List.append_assoc]
    exact ⟨hkept, (hp.commitsEarned hevents.1).append hearned (head_handleAll hp'.active events)⟩

/-- A device between two steps after the history `h`: the account is kept, and if a packet of the
IN half has gone out, then the host has fetched it since the request of the account. -/
structure OnAccount (h : List Happening) (d : Device σ) (s : Session) : Prop where
  /-- The device is in service. -/
  inService : d.InService s
  /-- Only buffers of endpoint 0 have come back. -/
  callers : ∀ i ∈ d.hw.toController.returned, i < 2
  /-- The account is kept. -/
  accounted : Accounted h s.control fun since => d.hw.toController.ep0Gone = true → Fetched since

omit [Board σ] in
theorem OnAccount.events (ho : OnAccount h d s) :
    ∀ event ∈ d.pending, event.OnEp0 d.hw.toController.ep0Gone := by
  intro event hmem
  rw [pending_eq ho.inService.ready] at hmem
  cases event with
  | setup | busReset => trivial
  | buffer index =>
    have hreturned := Controller.mem_returned_of_mem_events hmem
    have hlt := ho.callers index hreturned
    obtain rfl | rfl : index = 0 ∨ index = 1 := by omega
    · exact .inr ⟨rfl, (Controller.mem_returned.1 hreturned).2⟩
    · exact .inl rfl

theorem OnAccount.service (ho : OnAccount h d s) :
    (∃ s', OnAccount (h ++ d.happenings .service) (d.step .service).2.1 s') ∧
      CommitsEarned h (d.happenings .service) := by
  have hp : InProgress d.hw.toController.ep0Gone (h ++ [.interrupt]) d s :=
    { active := ho.inService.active
      begun := ⟨h, [], rfl⟩
      accounted := by
        -- the interrupt begins: what had gone out by then was fetched before
        refine ho.accounted.append rfl id (by simp [NoSetup]) (by simp [NoArm]) ?_
        intro since hfetched hgone _
        obtain ⟨data, hdata⟩ := hfetched hgone
        exact ⟨data, List.mem_append_left _ hdata⟩ }
  obtain ⟨⟨s', hp'⟩, hearned⟩ := hp.handleAll ho.events
  rw [List.append_assoc] at hp'
  refine ⟨⟨s', ?_⟩, ?_⟩
  · rw [step_service]
    refine ⟨hp'.active.retire, ?_, ?_⟩
    · rw [toController_mapController, Controller.returned_retire]
      exact List.forall_mem_nil _
    · refine hp'.accounted.mono ?_
      intro since _ hgone
      rw [toController_mapController, Controller.ep0Gone, Controller.buffStatus_retire,
        Word.bit_zero] at hgone
      cases hgone
  · exact CommitsEarned.append (commitsEarned_of_not_mem (by simp)) hearned
      (head_handleAll ho.inService.active _)

/-- A step of the host that has no packet of the IN half go out. -/
theorem OnAccount.host (ho : OnAccount h d s) {step : HostStep} (hstep : step.Lawful)
    (hcallers : ∀ i ∈ (step.run d.hw.toController).2.returned, i < 2)
    (hgone : (step.run d.hw.toController).2.ep0Gone = true → d.hw.toController.ep0Gone = true ∨
      Fetched [.host step (step.run d.hw.toController).1]) :
    OnAccount (h ++ d.happenings (.host step)) (d.step (.host step)).2.1 s := by
  rw [step_host]
  refine ⟨inService_mapController ho.inService.session ho.inService.sound
    (HostStep.ready_run ho.inService.ready hstep), hcallers, ?_⟩
  refine ho.accounted.append rfl id ?_ ?_ ?_
  · simp [NoSetup, happenings]
  · simp [NoArm, happenings]
  · intro since hfetched hgone'
    rcases hgone hgone' with hgone' | ⟨data, hdata⟩
    · obtain ⟨data, hdata⟩ := hfetched hgone'
      exact ⟨data, List.mem_append_left _ hdata⟩
    · exact ⟨data, List.mem_append_right _ hdata⟩

theorem OnAccount.complete (ho : OnAccount h d s) {address : UInt8} {data : List UInt8}
    (haddress : address = Ep0.inAddress ∨ address = Ep0.outAddress)
    (hdata : data.length ≤ Dpram.bufferSize) :
    OnAccount (h ++ d.happenings (.host (.complete address data false)))
      (d.step (.host (.complete address data false))).2.1 s := by
  have hbuffers := d.hw.toController.buffStatus_complete address data false
  have hindex : Dpram.bufferControlIndex address (.ofByte address) < 2 := by
    rcases haddress with rfl | rfl <;> decide
  apply ho.host (show HostStep.Lawful (.complete address data false) from ⟨rfl, hdata⟩)
  · intro i hi
    rw [Controller.mem_returned, HostStep.run, hbuffers] at hi
    by_cases hself : i = Dpram.bufferControlIndex address (.ofByte address)
    · rwa [hself]
    · refine ho.callers i (Controller.mem_returned.2 ⟨hi.1, ?_⟩)
      split_ifs at hi with hdone
      · simpa [Ne.symm hself] using hi.2
      · exact hi.2
  · intro hgone
    rw [Controller.ep0Gone, HostStep.run, hbuffers] at hgone
    split_ifs at hgone with hdone
    · rcases haddress with rfl | rfl
      · right
        exact ⟨data, by simp [HostStep.run, hdone]⟩
      · left
        have hne : ¬Dpram.bufferControlIndex Ep0.outAddress (.ofByte Ep0.outAddress) = 0 := by
          decide
        simpa [hne, Controller.ep0Gone] using hgone
    · exact .inl hgone

theorem OnAccount.step (ho : OnAccount h d s) {step : DeviceStep} (hstep : step.OnEp0) :
    (∃ s', OnAccount (h ++ d.happenings step) (d.step step).2.1 s') ∧
      CommitsEarned h (d.happenings step) := by
  cases step with
  | «open» | close | submit | interrupt => cases hstep
  | service => exact ho.service
  | host step =>
    refine ⟨⟨s, ?_⟩, commitsEarned_of_not_mem (by simp [happenings])⟩
    cases step with
    | poke | peek | updateInterrupts => cases hstep
    | setup p =>
      refine ho.host trivial ?_ ?_
      · exact fun i hi => ho.callers i ((Controller.returned_deliverSetup _ p) ▸ hi)
      · exact fun hgone => .inl (by simpa [HostStep.run, Controller.ep0Gone] using hgone)
    | busReset =>
      refine ho.host trivial ?_ ?_
      · exact fun i hi => ho.callers i ((Controller.returned_deliverReset _) ▸ hi)
      · exact fun hgone => .inl (by simpa [HostStep.run, Controller.ep0Gone] using hgone)
    | complete address data force =>
      obtain ⟨haddress, rfl, hdata⟩ := hstep
      exact ho.complete haddress hdata

theorem head_history {steps : List DeviceStep} (hsteps : ∀ step ∈ steps, step.OnEp0) (w : Word) :
    (d.history steps).head? ≠ some (.effect (.write .addrEndp w)) := by
  cases steps with
  | nil => exact nofun
  | cons step steps =>
    cases step with
    | «open» | close | submit | interrupt => cases hsteps _ List.mem_cons_self
    | service | host => simp [history, happenings]

/-- What a run in which only endpoint 0 is in use moves to is earned exactly if it is settled. -/
theorem OnAccount.run (ho : OnAccount h d s) {steps : List DeviceStep}
    (hsteps : ∀ step ∈ steps, step.OnEp0) : CommitsEarned h (d.history steps) := by
  -- along the steps the account goes from one history to the next
  induction steps generalizing h d s with
  | nil => exact commitsEarned_of_not_mem (by simp [history])
  | cons step steps ih =>
    rw [List.forall_mem_cons] at hsteps
    obtain ⟨⟨s', ho'⟩, hearned⟩ := ho.step hsteps.1
    exact hearned.append (ih ho' hsteps.2) (head_history hsteps.2)

theorem ne_of_not_written {o : Option Happening} (h : o.bind Happening.written? = none) :
    o ≠ some (.effect Event.busReset.acknowledge) := by
  rintro rfl
  cases h

/-- The last SETUP packet before what is earned assigned an address. -/
theorem setsAddress_of_earned {h : List Happening} {w : Word} (hh : Earned h w) :
    ∃ p, (h.filterMap Happening.heeded?).getLast? = some p ∧ p.SetsAddress := by
  obtain ⟨pre, p, e, armed, data, since, rfl, hsets, -, -, hnone, -⟩ := hh
  refine ⟨p, ?_, hsets⟩
  rw [List.filterMap_append, List.filterMap_cons_some (show Happening.heeded? _ = some p from rfl),
    filterMap_heeded? (noSetup_acknowledged hnone e data), List.getLast?_concat]

/-- A device in use on endpoint 0 only, with no address pending at first, moves to an address. The
packet that has gone out is the acknowledgement of the request which assigned the address, and no
SETUP packet was handled since that request, exactly if the last SETUP packet assigned an address
and was handled by an earlier interrupt. -/
theorem commit_earned_iff {description : DeviceDescription} (hd : d.Reached description)
    (hs : d.session = some s) (hpending : s.control.addressPending = false)
    (hcallers : ∀ i ∈ d.hw.toController.returned, i < 2) {steps : List DeviceStep}
    (hsteps : ∀ step ∈ steps, step.OnEp0) {before after : List Happening} {w : Word}
    (hcommit : d.history steps = before ++ .effect (.write .addrEndp w) :: after)
    (hreset : before.getLast? ≠ some (.effect Event.busReset.acknowledge)) :
    Earned before w ↔ Settled before := by
  obtain ⟨-, s', -, -, hservice⟩ := hd.inService
  obtain rfl : s' = s := Option.some.inj (hservice.session.symm.trans hs)
  have ho : OnAccount [] d s' := ⟨hservice, hcallers, accounted_of_not_pending hpending⟩
  exact ho.run hsteps before w after hcommit hreset

/-- An address is assigned, acknowledged and moved to. -/
def assigned : List DeviceStep :=
  [.host (.setup ⟨0, 5, 42, 0, 0⟩), .service, .host (.complete Ep0.inAddress [] false), .service]

theorem assigned_earned_iff :
    ∃ before after,
      (opened {}).history assigned = before ++ .effect (.write .addrEndp 42) :: after ∧
      (Earned before 42 ↔ Settled before) := by
  obtain ⟨-, s, -, -, hservice⟩ := reached_default.inService
  obtain ⟨hpending, hreturned, hcommit, hreset⟩ :
      (opened {}).session.map (·.control.addressPending) = some false ∧
        (opened {}).hw.toController.returned = [] ∧
        ((opened {}).history assigned)[9]?.bind Happening.written? = some (.addrEndp, 42) ∧
        (((opened {}).history assigned).take 9).getLast?.bind Happening.written? = none := by
    decide +kernel
  have hcommit := Happening.eq_of_written? hcommit
  rw [hservice.session] at hpending
  exact ⟨_, _, hcommit, commit_earned_iff reached_default hservice.session
    (Option.some.inj hpending) (by rw [hreturned]; exact List.forall_mem_nil _)
    (by simp [assigned, DeviceStep.OnEp0])
    hcommit (ne_of_not_written hreset)⟩

/-- An address is assigned, but the host does not fetch the acknowledgement: it asks for a
descriptor, and fetches that. -/
def abandoned : List DeviceStep :=
  [.host (.setup ⟨0, 5, 42, 0, 0⟩), .service, .host (.setup ⟨0x80, 6, 0x0100, 0, 18⟩), .service,
    .host (.complete Ep0.inAddress [] false), .service]

/-- The device moves to an address that it did not earn. -/
theorem abandoned_not_earned :
    Reached {} (opened {}) ∧ (∀ step ∈ abandoned, step.OnEp0) ∧ ∃ before after,
      (opened {}).history abandoned = before ++ .effect (.write .addrEndp 42) :: after ∧
      before.getLast? ≠ some (.effect Event.busReset.acknowledge) ∧ ¬Earned before 42 := by
  obtain ⟨hcommit, hreset, hlast⟩ :
      ((opened {}).history abandoned)[14]?.bind Happening.written? = some (.addrEndp, 42) ∧
        (((opened {}).history abandoned).take 14).getLast?.bind Happening.written? = none ∧
        ((((opened {}).history abandoned).take 14).filterMap Happening.heeded?).getLast? =
          some ⟨0x80, 6, 0x0100, 0, 18⟩ := by
    decide +kernel
  refine ⟨reached_default, by simp [abandoned, DeviceStep.OnEp0], _, _,
    Happening.eq_of_written? hcommit, ne_of_not_written hreset, ?_⟩
  intro hearned
  obtain ⟨p, hp, hsets⟩ := setsAddress_of_earned hearned
  rw [← Option.some.inj (hlast.symm.trans hp)] at hsets
  exact absurd hsets.request (by decide)

end Device

end UsbGadget
