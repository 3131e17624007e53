import UsbGadget.Proofs.CallerEndpoints
import UsbGadget.Proofs.Coalescing
import UsbGadget.Proofs.Packets
import UsbGadget.Proofs.Waiting

/-!
# Requests that are ignored

A request that the control machine ignores ends the transfer before it, but it hands nothing over
and takes nothing back: of the packet memory only the SETUP packet itself changes
(`Device.InService.served_ignored`). So the host fetches upon such a request exactly the packet that
it could have fetched without it (`Device.Reached.packet_of_ignored`), and an answer that it did not
fetch before is still there (`Device.Undisturbed.armed_of_ignored`).
-/

namespace UsbGadget

theorem Session.setup_of_ignored {s : Session} (hs : Arranged s.endpoints) {p : SetupPacket}
    (hin : p.direction = .input) (h : ¬p.AsksForDescriptor) :
    s.setup p =
      ({ s with
          endpoints := .ofControl .input .data1 :: .ofControl .output .data1 :: s.callers
          control := { s.control with phase := .idle, emptyPending := false } }, []) := by
  rw [setup_eq hs, Control.setup_of_ignored _ _ _ hin h]
  rfl

namespace Controller

variable {c c' : Controller} (h : ∀ i, 8 ≤ i → c'.dpram.byte i = c.dpram.byte i)

include h

/-- What the SETUP packet is makes no difference to the buffer control words. -/
theorem bufferControl_congr (i : Nat) : c'.bufferControl i = c.bufferControl i := by
  apply Memory.word_congr
  intro j hj _
  simp only [Dpram.bufferControlOffset] at hj
  exact h j (by omega)

theorem armed_congr (i : Nat) : c'.armed i = c.armed i := by
  rw [armed, armed, bufferControl_congr h]

/-- Nor does it to the packet of endpoint 0 that the host fetches next. -/
theorem inPacket_congr : c'.inPacket Ep0.inAddress = c.inPacket Ep0.inAddress := by
  have hoffset : c.packetOffset Ep0.inAddress .input = Dpram.ep0Buffer := rfl
  simp only [inPacket, bufferControl_congr h,
    packetOffset_congr (fun i hi _ => h i hi) Ep0.inAddress .input]
  congr 1
  apply Memory.readBytes_congr
  intro j hj _
  rw [hoffset, Dpram.ep0Buffer] at hj
  exact h j (by omega)

end Controller

namespace Device

variable {σ : Type} [Board σ] {d : Device σ} {s : Session} {description : DeviceDescription}
  {p : SetupPacket}

/-- The device after a SETUP packet that came in and was serviced. -/
def served (d : Device σ) (p : SetupPacket) : Device σ :=
  (d.run [.host (.setup p), .service]).1

theorem InService.served_eq (hd : d.InService s) (hreturned : d.hw.toController.returned = [])
    (hreset : (d.hw.read .sieStatus).bit Bit.busReset = false) (p : SetupPacket) :
    d.served p =
      ((d.step (.host (.setup p))).2.1.handle .setup).1.mapController Controller.retire := by
  have hpending : (d.step (.host (.setup p))).2.1.pending = [.setup] := by
    rw [pending_eq (hd.hostSetup p).ready, events_hostSetup p hreset, hreturned, List.map_nil]
  rw [served, fst_run_cons, fst_run_cons, step_service, hpending, handleAll_singleton]
  rfl

/-- A request that is ignored ends the transfer before it. Of the packet memory only the SETUP
packet changes. -/
theorem InService.served_ignored (hd : d.InService s)
    (hreturned : d.hw.toController.returned = [])
    (hreset : (d.hw.read .sieStatus).bit Bit.busReset = false) (hin : p.direction = .input)
    (hignored : ¬p.AsksForDescriptor) :
    (d.served p).phase = .idle ∧ (d.served p).hw.dpram = d.hw.dpram.writeBytes 0 p.bytes := by
  have hhost := hd.hostSetup p
  have hdpram : (d.step (.host (.setup p))).2.1.hw.dpram = d.hw.dpram.writeBytes 0 p.bytes := by
    rw [step_host]
    exact d.hw.toController.dpram_deliverSetup p
  have hreact : s.react (d.step (.host (.setup p))).2.1.hw.dpram .setup =
      ((s.setup p).1, .heed p :: (s.setup p).2) := by
    rw [Session.react, hdpram, SetupPacket.inMemory_writeBytes]
  have hlog (h : Hardware σ) : (replay [Event.setup.acknowledge, .heed p] h).dpram = h.dpram := rfl
  rw [hd.served_eq hreturned hreset, handle_eq hhost.session, hreact,
    Session.setup_of_ignored hd.sound.arranged hin hignored]
  refine ⟨rfl, ?_⟩
  rw [toController_mapController, Controller.dpram_retire, hw_after, hlog, hdpram]

theorem Reached.served_ignored (hd : d.Reached description)
    (hreturned : d.hw.toController.returned = [])
    (hreset : (d.hw.read .sieStatus).bit Bit.busReset = false) (hin : p.direction = .input)
    (hignored : ¬p.AsksForDescriptor) :
    (d.served p).phase = .idle ∧
      ∀ i, 8 ≤ i → (d.served p).hw.dpram.byte i = d.hw.dpram.byte i := by
  obtain ⟨-, s, -, -, hservice⟩ := hd.inService
  obtain ⟨hphase, hdpram⟩ := hservice.served_ignored hreturned hreset hin hignored
  refine ⟨hphase, fun i hi => ?_⟩
  have hlength : p.bytes.length = 8 := rfl
  rw [hdpram, Memory.byte_writeBytes, if_neg (by omega)]

/-- Upon a request that is ignored, serviced by itself, the device is idle, and the IN half of
endpoint 0 is as it was before: the controller has a packet if it had one, and it is the same one.
-/
theorem Reached.packet_of_ignored (hd : d.Reached description)
    (hreturned : d.hw.toController.returned = [])
    (hreset : (d.hw.read .sieStatus).bit Bit.busReset = false) (hin : p.direction = .input)
    (hignored : ¬p.AsksForDescriptor) :
    (d.served p).phase = .idle ∧
      (d.served p).hw.toController.armed 0 = d.hw.toController.armed 0 ∧
      (d.served p).hw.toController.inPacket Ep0.inAddress =
        d.hw.toController.inPacket Ep0.inAddress := by
  obtain ⟨hphase, hbytes⟩ := hd.served_ignored hreturned hreset hin hignored
  exact ⟨hphase, Controller.armed_congr hbytes 0, Controller.inPacket_congr hbytes⟩

/-- An answer that the host did not fetch stays for it to fetch upon a request that is ignored. -/
theorem Undisturbed.armed_of_ignored (hd : Undisturbed description d)
    (hanswer : d.phase.awaited? = some 0) (hreturned : d.hw.toController.returned = [])
    (hreset : (d.hw.read .sieStatus).bit Bit.busReset = false) (hin : p.direction = .input)
    (hignored : ¬p.AsksForDescriptor) : (d.served p).hw.toController.armed 0 = true := by
  obtain ⟨-, hbytes⟩ := hd.reached.served_ignored hreturned hreset hin hignored
  have hsame : (d.served p).hw.toController.armed 0 = d.hw.toController.armed 0 :=
    Controller.armed_congr hbytes 0
  rw [hsame]
  -- what is waited for is with the controller or has come back, and nothing has
  refine (hd.attended 0 hanswer).resolve_right ?_
  intro hback
  have hmem : 0 ∈ d.hw.toController.returned := Controller.mem_returned.2 ⟨by decide, hback⟩
  rw [hreturned] at hmem
  cases hmem

/-- The host has asked for the descriptor of the device, but has not fetched it. -/
def unfetched : Device Bench := (opened {}).served getDevice

theorem reached_unfetched : Reached {} unfetched :=
  reached_default.run (by simp [DeviceStep.Lawful, HostStep.Lawful])

theorem not_asksForDescriptor_getStatus : ¬getStatus.AsksForDescriptor :=
  fun h => absurd h.request (by decide)

theorem packet_of_getStatus :
    (unfetched.served getStatus).phase = .idle ∧
      (unfetched.served getStatus).hw.toController.armed 0 = unfetched.hw.toController.armed 0 ∧
      (unfetched.served getStatus).hw.toController.inPacket Ep0.inAddress =
        unfetched.hw.toController.inPacket Ep0.inAddress := by
  obtain ⟨hreturned, hsie⟩ : unfetched.hw.toController.returned = [] ∧
      unfetched.hw.read .sieStatus = 0 := by decide +kernel
  exact reached_unfetched.packet_of_ignored hreturned (by rw [hsie, Word.bit_zero]) (by decide)
    not_asksForDescriptor_getStatus

/-- The descriptor goes out in reply to a request that is ignored. -/
theorem descriptor_answers_getStatus :
    Reached {} unfetched ∧ unfetched.hw.toController.returned = [] ∧
      (unfetched.hw.read .sieStatus).bit Bit.busReset = false ∧ getStatus.direction = .input ∧
      ¬getStatus.AsksForDescriptor ∧ (unfetched.served getStatus).phase = .idle ∧
      (unfetched.served getStatus).hw.toController.armed 0 = true ∧
      ∃ set, unfetched.descriptors = some set ∧
        (unfetched.served getStatus).hw.toController.inPacket Ep0.inAddress =
          ⟨.data1, set.device.bytes⟩ := by
  obtain ⟨hreturned, hreset, hdirection, hphase, harmed, hpacket⟩ :
      unfetched.hw.toController.returned = [] ∧
        (unfetched.hw.read .sieStatus).bit Bit.busReset = false ∧ getStatus.direction = .input ∧
        (unfetched.served getStatus).phase = .idle ∧
        (unfetched.served getStatus).hw.toController.armed 0 = true ∧
        unfetched.descriptors.map (fun set => (⟨.data1, set.device.bytes⟩ : Packet)) =
          some ((unfetched.served getStatus).hw.toController.inPacket Ep0.inAddress) := by
    decide +kernel
  obtain ⟨set, hset, hdevice⟩ := Option.map_eq_some_iff.1 hpacket
  exact ⟨reached_unfetched, hreturned, hreset, hdirection, not_asksForDescriptor_getStatus, hphase,
    harmed, set, hset, hdevice.symm⟩

end Device

end UsbGadget
