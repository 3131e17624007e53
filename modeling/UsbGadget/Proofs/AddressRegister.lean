import UsbGadget.Proofs.Occasions

/-!
# The address register and the device's own record

The address is kept twice: the control machine takes it from the SETUP packet that assigns it, and
the register gets it when the acknowledgement has gone out. The two agree whenever no address is
pending, and while one is, the register holds what it held when the first of the assignments that
are still open was handled (`Device.addrEndp_agrees`).

`Occasion.assignments` are the assignments that are still open: those since a packet of endpoint 0
last went out, which commits the address, or the bus was reset, which drops it.
-/

namespace UsbGadget

namespace Occasion

/-- A SETUP packet that assigns an address was handled. -/
def Assigns (o : Occasion) : Prop := o.event = .setup ∧ o.packet.SetsAddress

instance : DecidablePred Assigns := fun _ => instDecidableAnd

/-- An event that leaves no address pending. -/
def settles (event : Event) : Bool := event == .buffer 0 || event == .busReset

/-- The assignments of an address that were not committed yet, the newest first. -/
def assignments (history : List Occasion) : List Occasion :=
  (since settles history).filter fun o => o.Assigns

theorem assignments_concat_of_settles {history : List Occasion} {o : Occasion}
    (h : settles o.event = true) : assignments (history ++ [o]) = [] := by
  rw [assignments, since_concat, if_pos h, List.filter_nil]

theorem assignments_concat {history : List Occasion} {o : Occasion}
    (h : settles o.event = false) :
    assignments (history ++ [o]) =
      if o.Assigns then o :: assignments history else assignments history := by
  rw [assignments, since_concat, h, if_neg Bool.false_ne_true, List.filter_cons]
  simp only [decide_eq_true_eq, assignments]

end Occasion

open Occasion

/-- The control machine and the address register agree, but for assignments that are open. -/
structure Control.Agrees (history : List Occasion) (c : Control) (w : Word) : Prop where
  /-- An address is pending while an assignment is open. -/
  pending : c.addressPending = true ↔ assignments history ≠ []
  /-- If none is, the register has the address. -/
  settled : c.addressPending = false → w = UInt32.ofNat (c.address.toNat % 128)
  /-- Otherwise it has what it had before. -/
  held : ∀ first, (assignments history).getLast? = some first →
    w = first.controller.read .addrEndp

namespace Control.Agrees

variable {c : Control} {history : List Occasion} {w : Word}

theorem of_nil (hnil : assignments history = []) (hpending : c.addressPending = false)
    (hw : w = UInt32.ofNat (c.address.toNat % 128)) : Agrees history c w where
  pending := by simp [hnil, hpending]
  settled _ := hw
  held first hfirst := by simp [hnil] at hfirst

theorem of_same {history' : List Occasion} {c' : Control} (h : Agrees history c w)
    (hsame : assignments history' = assignments history)
    (hpending : c'.addressPending = c.addressPending) (haddress : c'.address = c.address) :
    Agrees history' c' w where
  pending := by rw [hpending, hsame, h.pending]
  settled hc := by rw [haddress, h.settled (hpending ▸ hc)]
  held first hfirst := h.held first (hsame ▸ hfirst)

theorem assign {o : Occasion} {c' : Control} (h : Agrees history c (o.controller.read .addrEndp))
    (ho : o.Assigns) (hpending : c'.addressPending = true) :
    Agrees (history ++ [o]) c' (o.controller.read .addrEndp) := by
  have hopen : assignments (history ++ [o]) = o :: assignments history := by
    rw [assignments_concat (by rw [ho.1]; rfl), if_pos ho]
  refine ⟨?_, fun hc => absurd (hpending.symm.trans hc) (by decide), ?_⟩
  · rw [hopen]
    exact iff_of_true hpending (List.cons_ne_nil _ _)
  · intro first hfirst
    rw [hopen, List.getLast?_cons] at hfirst
    -- the first one is that of before, if there was one
    cases hlast : (assignments history).getLast? with
    | none =>
      rw [hlast] at hfirst
      rw [← Option.some.inj hfirst]
      rfl
    | some earlier =>
      rw [hlast] at hfirst
      rw [← Option.some.inj hfirst]
      exact h.held earlier hlast

theorem sent (h : Agrees history c w) {o : Occasion} (ho : o.event = .buffer 0) :
    Agrees (history ++ [o]) c.sent.1 (c.sent.2.addrEndp w) := by
  have hnil : assignments (history ++ [o]) = [] :=
    assignments_concat_of_settles (by rw [ho]; rfl)
  refine .of_nil hnil (sent_not_pending c) ?_
  cases hpending : c.addressPending with
  | true =>
    have hlt : c.address.toNat % 128 < UInt8.size :=
      Nat.lt_trans (Nat.mod_lt _ (by decide)) (by decide)
    simp only [Control.sent, hpending, if_true, Reply.addrEndp]
    rw [UInt8.toNat_ofNat_of_lt' hlt]
  | false =>
    rw [h.settled hpending]
    simp only [Control.sent, hpending, Bool.false_eq_true, if_false]
    split <;> rfl

theorem setup {o : Occasion} (h : Agrees history c (o.controller.read .addrEndp))
    (ho : o.event = .setup) (set : DescriptorSet) (limit : Nat) :
    Agrees (history ++ [o]) (c.setup set limit o.packet).1
      ((c.setup set limit o.packet).2.addrEndp (o.controller.read .addrEndp)) := by
  obtain ⟨haddress, hpending, -⟩ := c.memory_setup set limit o.packet
  have hregister : (c.setup set limit o.packet).2.addrEndp (o.controller.read .addrEndp) =
      o.controller.read .addrEndp := by
    rcases c.setup_reply set limit o.packet with hreply | ⟨data, hreply⟩ <;> rw [hreply] <;> rfl
  rw [hregister]
  by_cases hsets : o.packet.SetsAddress
  · exact h.assign ⟨ho, hsets⟩ (by rw [hpending, decide_eq_true hsets, Bool.true_or])
  · refine h.of_same ?_ ?_ ?_
    · rw [assignments_concat (by rw [ho]; rfl), if_neg fun hassigns => hsets hassigns.2]
    · rw [hpending, decide_eq_false hsets, Bool.false_or]
    · rw [haddress, if_neg hsets]

theorem buffer {o : Occasion} {c' : Control} (h : Agrees history c w) {index : Nat}
    (ho : o.event = .buffer (index + 1)) (hpending : c'.addressPending = c.addressPending)
    (haddress : c'.address = c.address) : Agrees (history ++ [o]) c' w := by
  refine h.of_same ?_ hpending haddress
  rw [assignments_concat (by rw [ho]; rfl), if_neg]
  rintro ⟨hsetup, -⟩
  cases ho.symm.trans hsetup

end Control.Agrees

theorem lasts_agrees : Lasts Control.Agrees := by
  intro history c set o _ h
  cases hevent : o.event with
  | busReset => exact .of_nil (assignments_concat_of_settles (by rw [hevent]; rfl)) rfl rfl
  | setup => exact h.setup hevent set packetLimit
  | buffer index =>
    obtain _ | _ | index := index
    · exact h.sent hevent
    · exact h.buffer hevent rfl rfl
    · exact h.buffer hevent rfl rfl

/-! ### From opening on -/

namespace Device

variable {σ : Type} [Board σ]

omit [Board σ] in
/-- The host has assigned an address that does not count yet. -/
def addressPending (d : Device σ) : Bool := (d.session.map (·.control.addressPending)).getD false

/-- Where a reset clears the registers, a device begins at address 0. -/
theorem addrEndp_bringUp (hclears : Board.clearsRegisters σ = true) (endpoints : List Endpoint)
    (h : Hardware σ) : (replay (bringUp endpoints) h).read .addrEndp = 0 := by
  have hclean : (Effect.clear.apply (Effect.reset.apply h)).read .addrEndp = 0 := by
    show (Hardware.reset h).regs.word Register.addrEndp.offset = 0
    simp only [Hardware.reset, if_pos hclears, Memory.word_zero]
  have hlast (h : Hardware σ) (w : Word) :
      (replay [.write .sieCtrl w, .line true] h).read .addrEndp = h.read .addrEndp :=
    Effect.read_apply_write_of_ne h w (by decide)
  rw [bringUp, replay_append, replay_append, hlast, Controller.read_of_regs (regs_enable _ _)]
  -- none of the other registers that are written is the address
  simp only [replay_cons, replay_nil]
  iterate 5 rw [Effect.read_apply_write_of_ne _ _ (by decide)]
  exact hclean

/-- At every moment since a device was opened, on a board whose reset clears the registers: while no
address is pending the address register has the device's address, and while one is it has what it
had when the first of the open assignments was handled. The moment is after the first events of an
interrupt that follows on some steps. -/
theorem addrEndp_agrees (hclears : Board.clearsRegisters σ = true) {closed d : Device σ}
    {description : DeviceDescription} {log : List Effect}
    (hopen : closed.open description = (.ok (), d, log)) {steps : List DeviceStep}
    (hsteps : ∀ step ∈ steps, step.SparesAddress) {events : List Event}
    (hevents : events <+: (d.run steps).1.pending) :
    let d' := ((d.run steps).1.handleAll events).1
    let still := assignments (d.occasions steps ++ (d.run steps).1.occasionsOf events)
    (d'.addressPending = true ↔ still ≠ []) ∧
      (d'.addressPending = false →
        d'.hw.read .addrEndp = UInt32.ofNat (d'.address.toNat % 128)) ∧
      (d'.addressPending = true → ∃ first, still.getLast? = some first ∧
        d'.hw.read .addrEndp = first.controller.read .addrEndp) := by
  intro d' still
  have hzero : d.hw.read .addrEndp = 0 := by
    obtain ⟨-, s, -, hlog, hd⟩ := open_eq_ok.1 hopen
    rw [hd, hw_after, hlog, addrEndp_bringUp hclears]
  have hd : d.Bears (Control.Agrees []) := bears_of_open hopen (.of_nil rfl rfl hzero)
  have hd' : d'.Bears (Control.Agrees (d.occasions steps ++ (d.run steps).1.occasionsOf events)) :=
    (hd.run_of_spares lasts_agrees hsteps).during lasts_agrees hevents
  obtain ⟨c, hc, hsession, -, haddress, -⟩ := hd'.exists_control
  have hpending : d'.addressPending = c.addressPending := by
    obtain ⟨s, hs, rfl⟩ := Option.map_eq_some_iff.1 hsession
    rw [addressPending, hs]
    rfl
  rw [hpending, haddress]
  refine ⟨hc.pending, hc.settled, fun hp => ?_⟩
  have hfirst := List.getLast?_eq_some_getLast (hc.pending.1 hp)
  exact ⟨_, hfirst, hc.held _ hfirst⟩

/-- An address is assigned and acknowledged; then another one is assigned twice, with no packet of
endpoint 0 going out. -/
def reassigned : List DeviceStep :=
  [.host (.setup ⟨0, 5, 42, 0, 0⟩), .service, .host (.complete Ep0.inAddress [] false), .service,
    .host (.setup ⟨0, 5, 7, 0, 0⟩), .service, .host (.setup ⟨0, 5, 300, 0, 0⟩), .service]

/-- The register still has the address of before. -/
theorem addrEndp_reassigned :
    let d := ((blank ({} : Bench)).open {}).2.1
    (d.run reassigned).1.addressPending = true ∧ (d.run reassigned).1.hw.read .addrEndp = 42 := by
  intro d
  have hopen : ((blank ({} : Bench)).open {}).1 = .ok () := by decide +kernel
  have hsteps : ∀ step ∈ reassigned, step.SparesAddress := by
    simp [reassigned, DeviceStep.SparesAddress, HostStep.SparesAddress]
  have hstill : (assignments (d.occasions reassigned)).map
      (fun o => (o.packet.value, o.controller.read .addrEndp)) = [(300, 42), (7, 42)] := by
    decide +kernel
  obtain ⟨hpending, -, hheld⟩ := addrEndp_agrees (by decide)
    (Prod.ext hopen rfl : (blank ({} : Bench)).open {} = (.ok (), d, _)) hsteps List.nil_prefix
  simp only [handleAll, occasionsOf, List.append_nil] at hpending hheld
  have hp : (d.run reassigned).1.addressPending = true := by
    refine hpending.2 fun hnil => ?_
    rw [hnil] at hstill
    cases hstill
  obtain ⟨first, hfirst, hread⟩ := hheld hp
  have hlast := congrArg List.getLast? hstill
  rw [List.getLast?_map, hfirst] at hlast
  exact ⟨hp, hread.trans (congrArg Prod.snd (Option.some.inj hlast))⟩

end Device

end UsbGadget
