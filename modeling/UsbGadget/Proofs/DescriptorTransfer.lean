import UsbGadget.Proofs.ControlEndpoint
import UsbGadget.Proofs.Packets

/-!
# Descriptors from request to status

A host that asks for a descriptor fetches packets of endpoint 0 for as long as there are any
(`Device.fetch`), and completes the transfer with an empty packet of its own.

* `Device.Stands` describes a device between two interrupts as endpoint 0 sees it, and
  `Device.Stands.collect` and `Device.Stands.deliver` are one packet each way;
* `descriptorPackets` are the packets of an answer, and `Device.Delivers` says what it means for a
  device to have them fetched;
* `Device.getDescriptor_delivers` is the main statement.
-/

namespace UsbGadget

namespace Device

variable {σ : Type} [Board σ]

/-- The host fetches packets of endpoint 0 for as long as there are any, but at most `n`, and the
interrupt is serviced after each: the packets, the device afterwards and the effects of the engine.
-/
def fetch (d : Device σ) : Nat → List Packet × Device σ × List Effect
  | 0 => ([], d, [])
  | n + 1 =>
    if d.hw.toController.armed 0 then
      let packet := d.hw.toController.inPacket Ep0.inAddress
      let (d, log) := d.run [.host (.complete Ep0.inAddress [] false), .service]
      let (packets, d, log') := d.fetch n
      (packet :: packets, d, log ++ log')
    else ([], d, [])

/-- A device from which the host fetches the given packets, after the effects of `log`: when it has
the last of them, and not before, the device makes ready for an empty `data1` packet and awaits it;
that packet ends the transfer. -/
structure Delivers (d : Device σ) (log : List Effect) (packets : List Packet) : Prop where
  /-- The packets. -/
  fetched : ∀ n, (d.fetch n).1 = packets.take n
  /-- The phases. -/
  phase : ∀ n, (d.fetch n).2.1.phase = if n < packets.length then .sending else .awaiting
  /-- What was handed over on the OUT half. -/
  made : ∀ n, handedOver 0 Ep0.outAddress (log ++ (d.fetch n).2.2) =
    if n < packets.length then [] else [⟨.data1, []⟩]
  /-- The controller has it. -/
  ready : ∀ n, packets.length ≤ n → (d.fetch n).2.1.hw.toController.bufferControl 1 =
    BufferControl.word ⟨false, .data1, true, 0⟩
  /-- The host's packet. -/
  completed : ∀ n, packets.length ≤ n → ∀ data : List UInt8, data.length ≤ Dpram.bufferSize →
    ((d.fetch n).2.1.run [.host (.complete Ep0.outAddress data false), .service]).1.phase = .idle

end Device

/-- The packets of an answer: the answer clipped to what the host has room for, and an empty packet
behind it where a full one is shorter than that. -/
def descriptorPackets (p : SetupPacket) (bytes : List UInt8) : List Packet :=
  let data := bytes.take p.length.toNat
  ⟨.data1, data⟩ ::
    if data.length = packetLimit ∧ packetLimit < p.length.toNat then [⟨.data0, []⟩] else []

/-- Together they are the answer, clipped. -/
theorem flatten_descriptorPackets (p : SetupPacket) (bytes : List UInt8) :
    ((descriptorPackets p bytes).map Packet.data).flatten = bytes.take p.length.toNat := by
  simp only [descriptorPackets]
  split_ifs <;> simp

/-- Every answer fits in a packet. -/
theorem DescriptorSet.Answers.length_le {set : DescriptorSet} (hset : set.Fits) {p : SetupPacket}
    {bytes : List UInt8} (h : set.Answers p bytes) : bytes.length ≤ packetLimit := by
  cases h with
  | device => exact Nat.le_of_ble_eq_true rfl
  | configuration => exact hset.records_le
  | header =>
    rw [DescriptorSet.header, List.length_take]
    exact Nat.le_trans (Nat.min_le_left _ _) (by decide)
  | noString => exact Nat.zero_le _
  | string hkind hstring =>
    unfold string? at hstring
    split_ifs at hstring with hzero
    · rw [← Option.some.inj hstring]
      exact Nat.le_of_ble_eq_true rfl
    · obtain ⟨text, htext, rfl⟩ := Option.map_eq_some_iff.1 hstring
      rw [length_stringDescriptor]
      exact hset.strings text (List.mem_of_getElem? htext)

/-! ### One packet -/

namespace Session

theorem handedOver_proceed {s : Session} (hs : Arranged s.endpoints) (step : Control × Reply) :
    handedOver 0 Ep0.outAddress (s.proceed step).2 =
      if step.2 = .receive then [⟨s.pidOut, []⟩] else [] := by
  obtain ⟨c, reply⟩ := step
  cases reply with
  | silent => rfl
  | send data =>
    rw [proceed_send hs]
    rfl
  | receive =>
    rw [proceed_receive hs]
    rfl
  | moveTo address => rfl

theorem Aside.handedOver {s : Session} {result : Session × List Effect} (h : s.Aside result)
    (address : UInt8) : handedOver 0 address result.2 = [] := by
  rw [UsbGadget.handedOver, List.filterMap_eq_nil_iff]
  intro e he
  cases e with
  | arm e data =>
    exact if_neg fun hself => (h.effects _ he).2.2.2 hself.1
  | write | heed | collect | call | reset | clear | line | enable => rfl

end Session

namespace Device

variable {σ : Type} [Board σ]

/-- A device between two interrupts, with nothing waiting, as endpoint 0 sees it. -/
def Stands (d : Device σ) (v : Ep0) : Prop :=
  ∃ s, d.InService s ∧ Ep0.of s d.hw.toController = v ∧ d.hw.read .sieStatus = 0 ∧
    d.hw.read .buffStatus = 0

variable {d : Device σ} {v : Ep0}

omit [Board σ] in
theorem Stands.phase_eq (hd : d.Stands v) : d.phase = v.control.phase := by
  obtain ⟨s, hs, rfl, -⟩ := hd
  rw [phase, hs.session]
  rfl

theorem snd_run_host_service (d : Device σ) (step : HostStep) :
    (d.run [.host step, .service]).2 =
      ((d.step (.host step)).2.1.handleAll (d.step (.host step)).2.1.pending).2 := by
  simp [run, Device.step, interrupt]

theorem InService.stands_service {s : Session} (hd : d.InService s)
    (hspares : ∀ event ∈ d.hw.toController.events, s.SparesEvent event) :
    (d.step .service).2.1.Stands (d.hw.toController.events.foldl
      (Ep0.react s.descriptors (SetupPacket.inMemory d.hw.dpram))
      (Ep0.of s d.hw.toController)) := by
  obtain ⟨s', -, hd', hv⟩ := hd.ep0_service hspares
  exact ⟨s', hd', hv, Controller.sieStatus_retire _, Controller.buffStatus_retire _⟩

theorem events_one {c : Controller} {i : Nat} (hi : i < 2) (hsie : c.read .sieStatus = 0)
    (hbuff : c.read .buffStatus = Word.set 0 i) : c.events = [.buffer i] := by
  have hreturned : c.returned = [i] := by
    rw [Controller.returned, hbuff]
    obtain rfl | rfl : i = 0 ∨ i = 1 := by omega
    · decide
    · decide
  rw [Controller.events, hreturned, hsie, Word.bit_zero, Word.bit_zero]
  rfl

theorem InService.complete {s : Session} (hd : d.InService s) {address : UInt8}
    {data : List UInt8} {i : Nat} (hi : i < 2)
    (hindex : Dpram.bufferControlIndex address (.ofByte address) = i)
    (hsie : d.hw.read .sieStatus = 0) (hbuff : d.hw.read .buffStatus = 0)
    (hdone : (d.hw.toController.complete address data false).1 = true) :
    (d.step (.host (.complete address data false))).2.1.InService s ∧
      (d.step (.host (.complete address data false))).2.1.hw.toController.events = [.buffer i] := by
  rw [step_host]
  refine ⟨inService_mapController hd.session hd.sound (hd.ready.complete _ _ _), ?_⟩
  exact events_one hi
    ((d.hw.toController.read_complete address data false (by decide) (by decide)).trans hsie)
    ((d.hw.toController.buffStatus_complete address data false).trans
      (by rw [if_pos hdone, hindex, hbuff]))

/-- The host fetches a packet of endpoint 0. -/
theorem Stands.collect (hd : d.Stands v) (harmed : d.hw.toController.armed 0 = true) :
    (d.run [.host (.complete Ep0.inAddress [] false), .service]).1.Stands
        ({ v with inWord := Controller.fetchedWord v.inWord }.sent) ∧
      handedOver 0 Ep0.outAddress
          (d.run [.host (.complete Ep0.inAddress [] false), .service]).2 =
        if v.control.sent.2 = .receive then [⟨v.pidOut, []⟩] else [] := by
  obtain ⟨s, hs, rfl, hsie, hbuff⟩ := hd
  have hdone : (d.hw.toController.complete Ep0.inAddress [] false).1 = true := by
    rw [Controller.complete_input _ Ep0.inAddress [] 0 rfl rfl, if_pos harmed]
  obtain ⟨hs', hevents⟩ := hs.complete (i := 0) (by decide) rfl hsie hbuff hdone
  constructor
  · have hstands := hs'.stands_service (by
      rw [hevents]
      exact List.forall_mem_singleton.2 fun h => absurd h (by decide))
    rw [hevents] at hstands
    have hview : Ep0.of s (d.step (.host (.complete Ep0.inAddress [] false))).2.1.hw.toController =
        { Ep0.of s d.hw.toController with
          inWord := Controller.fetchedWord (d.hw.toController.bufferControl 0) } := by
      rw [step_host]
      exact Ep0.of_complete_in s harmed []
    rw [hview] at hstands
    exact hstands
  · rw [snd_run_host_service, pending_eq hs'.ready, hevents]
    simp only [handleAll, handle_eq hs'.session, List.append_nil]
    rw [handedOver_acknowledge, Session.react_sent hs'.sound.arranged]
    exact Session.handedOver_proceed hs'.sound.arranged _

/-- The host's packet on endpoint 0 comes in. -/
theorem Stands.deliver (hd : d.Stands v) (harmed : d.hw.toController.armed 1 = true)
    {data : List UInt8} (hdata : data.length ≤ Dpram.bufferSize) :
    (d.run [.host (.complete Ep0.outAddress data false), .service]).1.phase = .idle := by
  obtain ⟨s, hs, rfl, hsie, hbuff⟩ := hd
  have hfit : d.hw.toController.packetOffset Ep0.outAddress .output + data.length ≤ Dpram.size :=
    Nat.le_trans (Nat.add_le_add_left hdata _) (show 0x100 + 64 ≤ 4096 by decide)
  have hdone : (d.hw.toController.complete Ep0.outAddress data false).1 = true := by
    rw [Controller.complete_output _ Ep0.outAddress data 1 rfl rfl hfit, if_pos harmed]
  obtain ⟨hs', hevents⟩ := hs.complete (i := 1) (by decide) rfl hsie hbuff hdone
  have hstands := hs'.stands_service (by
    rw [hevents]
    exact List.forall_mem_singleton.2 fun h => absurd h (by decide))
  rw [hevents] at hstands
  exact hstands.phase_eq

/-- A SETUP packet has nothing handed over on the OUT half, and no more have the packets of callers
that leave endpoint 0 alone. -/
theorem Active.handedOver_handleAll {s : Session} (hd : d.Active s) {events : List Event}
    (hevents : ∀ event ∈ events, event.Reportable ∧ s.SparesEvent event ∧
      (event = .setup ∨ ∃ i, 2 ≤ i ∧ event = .buffer i)) :
    handedOver 0 Ep0.outAddress (d.handleAll events).2 = [] := by
  induction events generalizing d s with
  | nil => rfl
  | cons event events ih =>
    rw [List.forall_mem_cons] at hevents
    obtain ⟨⟨hreport, hspares, hkind⟩, hrest⟩ := hevents
    have hs := hd.sound.arranged
    have hsame := (Session.kept_react hs d.hw.dpram event).same
    have hhandled : handedOver 0 Ep0.outAddress (d.handle event).2 = [] := by
      rw [handle_eq hd.session, handedOver_acknowledge]
      rcases hkind with rfl | ⟨i, hi, rfl⟩
      · show handedOver 0 Ep0.outAddress
            (.heed (SetupPacket.inMemory d.hw.dpram) ::
              (s.setup (SetupPacket.inMemory d.hw.dpram)).2) = []
        rcases Session.setup_log hs (SetupPacket.inMemory d.hw.dpram) with hlog | ⟨data, hlog⟩
        · rw [hlog]
          rfl
        · rw [hlog]
          rfl
      · exact (Session.aside_buffer hs d.hw.dpram hi hreport hspares).handedOver _
    have hlater := ih (hd.handle event) fun event' he =>
      ⟨(hrest event' he).1, (hrest event' he).2.1.of_same hsame, (hrest event' he).2.2⟩
    rw [handleAll_cons, handedOver_append, hhandled, hlater, List.append_nil]

theorem InService.hear {s : Session} (hd : d.InService s) (p : SetupPacket)
    (hspares : ∀ i ∈ d.hw.toController.returned, s.SparesEvent (.buffer i))
    (hreset : (d.hw.read .sieStatus).bit Bit.busReset = false)
    (hgone : d.hw.toController.ep0Gone = false) (hcome : d.hw.toController.ep0Come = false) :
    (d.run [.host (.setup p), .service]).1.Stands
        ((Ep0.of s d.hw.toController).setup s.descriptors p) ∧
      handedOver 0 Ep0.outAddress (d.run [.host (.setup p), .service]).2 = [] := by
  constructor
  · obtain ⟨s', -, hd', hv⟩ := hd.ep0_setup p hspares hreset
    rw [hgone, hcome] at hv
    exact ⟨s', hd', hv, Controller.sieStatus_retire _, Controller.buffStatus_retire _⟩
  · rw [snd_run_host_service, pending_eq (hd.hostSetup p).ready, events_hostSetup p hreset]
    refine (hd.hostSetup p).active.handedOver_handleAll ?_
    rw [List.forall_mem_cons, List.forall_mem_map]
    refine ⟨⟨trivial, trivial, .inl rfl⟩, ?_⟩
    intro i hi
    obtain ⟨hlt, hbit⟩ := Controller.mem_returned.1 hi
    have hcallers : 2 ≤ i := by
      obtain _ | _ | i := i
      · exact absurd hbit (by rw [← Controller.ep0Gone, hgone]; exact Bool.false_ne_true)
      · exact absurd hbit (by rw [← Controller.ep0Come, hcome]; exact Bool.false_ne_true)
      · exact Nat.le_add_left 2 i
    exact ⟨hlt, hspares i hi, .inr ⟨i, hcallers, rfl⟩⟩

/-! ### All packets of an answer -/

theorem delivers_nil {log : List Effect} (hd : d.Stands v)
    (harmed : v.inWord.bit BufferControl.availableBit = false)
    (hphase : v.control.phase = .awaiting)
    (hword : v.outWord = BufferControl.word ⟨false, .data1, true, 0⟩)
    (hlog : handedOver 0 Ep0.outAddress log = [⟨.data1, []⟩]) : d.Delivers log [] := by
  have hv : d.hw.toController.armed 0 = false ∧ d.hw.toController.bufferControl 1 = v.outWord := by
    obtain ⟨s, -, rfl, -⟩ := hd
    exact ⟨harmed, rfl⟩
  -- nothing is armed, so the host's tries end here
  have hfetch : ∀ n, d.fetch n = ([], d, []) := fun n => by
    cases n with
    | zero => rfl
    | succ n => rw [fetch, if_neg (by rw [hv.1]; exact Bool.false_ne_true)]
  have hout : d.hw.toController.armed 1 = true := by
    rw [Controller.armed, hv.2, hword]
    decide
  refine ⟨?_, ?_, ?_, ?_, ?_⟩
  · intro n
    rw [hfetch, List.take_nil]
  · intro n
    rw [hfetch, hd.phase_eq, hphase]
    rfl
  · intro n
    rw [hfetch, List.append_nil, hlog]
    rfl
  · intro n _
    rw [hfetch, hv.2, hword]
  · intro n _ data hdata
    rw [hfetch]
    exact hd.deliver hout hdata

theorem delivers_cons {log : List Effect} {packets : List Packet}
    (harmed : d.hw.toController.armed 0 = true) (hphase : d.phase = .sending)
    (hlog : handedOver 0 Ep0.outAddress log = [])
    (hnext : (d.run [.host (.complete Ep0.inAddress [] false), .service]).1.Delivers
      (log ++ (d.run [.host (.complete Ep0.inAddress [] false), .service]).2) packets) :
    d.Delivers log (d.hw.toController.inPacket Ep0.inAddress :: packets) := by
  have hfetch : ∀ n, d.fetch (n + 1) =
      (d.hw.toController.inPacket Ep0.inAddress ::
          ((d.run [.host (.complete Ep0.inAddress [] false), .service]).1.fetch n).1,
        ((d.run [.host (.complete Ep0.inAddress [] false), .service]).1.fetch n).2.1,
        (d.run [.host (.complete Ep0.inAddress [] false), .service]).2 ++
          ((d.run [.host (.complete Ep0.inAddress [] false), .service]).1.fetch n).2.2) := by
    intro n
    rw [fetch, if_pos harmed]
  refine ⟨fun n => ?fetched, fun n => ?phase, fun n => ?made, fun n hn => ?ready,
    fun n hn data hdata => ?completed⟩
  case fetched =>
    cases n with
    | zero => rfl
    | succ n => rw [hfetch, hnext.fetched n, List.take_succ_cons]
  case phase =>
    cases n with
    | zero => exact hphase
    | succ n =>
      rw [hfetch, hnext.phase n]
      simp only [List.length_cons, Nat.add_lt_add_iff_right]
  case made =>
    cases n with
    | zero =>
      rw [fetch, List.append_nil, hlog]
      exact (if_pos (Nat.succ_pos _)).symm
    | succ n =>
      rw [hfetch, ← List.append_assoc, hnext.made n]
      simp only [List.length_cons, Nat.add_lt_add_iff_right]
  case ready =>
    obtain ⟨m, rfl⟩ := Nat.exists_eq_add_of_le' (Nat.le_trans (Nat.succ_pos _) hn)
    rw [hfetch]
    exact hnext.ready m (Nat.le_of_succ_le_succ hn)
  case completed =>
    obtain ⟨m, rfl⟩ := Nat.exists_eq_add_of_le' (Nat.le_trans (Nat.succ_pos _) hn)
    rw [hfetch]
    exact hnext.completed m (Nat.le_of_succ_le_succ hn) data hdata

omit [Board σ] in
/-- A packet that was handed over on the IN half is the one that the host fetches. -/
theorem Stands.inPacket_eq (hd : d.Stands v) {pid : Pid} {data : List UInt8}
    (hdata : data.length ≤ packetLimit)
    (hword : v.inWord = BufferControl.word ⟨true, pid, true, data.length⟩)
    (hbuffer : v.buffer.take data.length = data) :
    d.hw.toController.armed 0 = true ∧ d.hw.toController.inPacket Ep0.inAddress = ⟨pid, data⟩ := by
  obtain ⟨s, -, rfl, -⟩ := hd
  have hback : BufferControl.ofWord (d.hw.toController.bufferControl 0) =
      ⟨true, pid, true, data.length⟩ := by
    rw [show d.hw.toController.bufferControl 0 = _ from hword, BufferControl.ofWord_word,
      Nat.mod_eq_of_lt (Nat.lt_of_le_of_lt hdata (by decide))]
  have hbytes : d.hw.dpram.readBytes Dpram.ep0Buffer data.length = data := by
    rw [← d.hw.dpram.take_readBytes (show data.length ≤ Dpram.bufferSize from hdata)]
    exact hbuffer
  refine ⟨congrArg BufferControl.available hback, ?_⟩
  rw [Controller.inPacket, show Dpram.bufferControlIndex Ep0.inAddress .input = 0 from rfl, hback]
  exact congrArg (Packet.mk pid) hbytes

theorem delivers_last {log : List Effect} (hd : d.Stands v) (hphase : v.control.phase = .sending)
    (hpending : v.control.addressPending = false) (hempty : v.control.emptyPending = false)
    (hpid : v.pidOut = .data1) {pid : Pid} {data : List UInt8} (hdata : data.length ≤ packetLimit)
    (hword : v.inWord = BufferControl.word ⟨true, pid, true, data.length⟩)
    (hbuffer : v.buffer.take data.length = data) (hlog : handedOver 0 Ep0.outAddress log = []) :
    d.Delivers log [⟨pid, data⟩] := by
  obtain ⟨harmed, hpacket⟩ := hd.inPacket_eq hdata hword hbuffer
  obtain ⟨hnext, hmade⟩ := hd.collect harmed
  have hsent : v.control.sent = ({ v.control with phase := .awaiting }, .receive) := by
    simp [Control.sent, hpending, hempty, hphase]
  rw [hsent, if_pos rfl, hpid] at hmade
  rw [Ep0.sent, hsent] at hnext
  rw [← hpacket]
  refine delivers_cons harmed (hd.phase_eq.trans hphase) hlog (delivers_nil hnext ?_ rfl ?_ ?_)
  · exact (Controller.bit_fetchedWord _ _).trans (by simp)
  · exact congrArg (fun pid => BufferControl.word ⟨false, pid, true, 0⟩) hpid
  · rw [handedOver_append, hlog, hmade, List.nil_append]

theorem delivers_full {log : List Effect} (hd : d.Stands v) (hphase : v.control.phase = .sending)
    (hpending : v.control.addressPending = false) (hempty : v.control.emptyPending = true)
    (hpid : v.pidOut = .data1) {pid : Pid} {data : List UInt8} (hdata : data.length ≤ packetLimit)
    (hword : v.inWord = BufferControl.word ⟨true, pid, true, data.length⟩)
    (hbuffer : v.buffer.take data.length = data) (hlog : handedOver 0 Ep0.outAddress log = []) :
    d.Delivers log [⟨pid, data⟩, ⟨v.pidIn, []⟩] := by
  obtain ⟨harmed, hpacket⟩ := hd.inPacket_eq hdata hword hbuffer
  obtain ⟨hnext, hmade⟩ := hd.collect harmed
  have hsent : v.control.sent = ({ v.control with emptyPending := false }, .send []) := by
    simp [Control.sent, hpending, hempty]
  rw [hsent, if_neg (by simp)] at hmade
  rw [Ep0.sent, hsent] at hnext
  rw [← hpacket]
  refine delivers_cons harmed (hd.phase_eq.trans hphase) hlog
    (delivers_last hnext hphase hpending rfl hpid (Nat.zero_le _) rfl rfl ?_)
  rw [handedOver_append, hlog, hmade, List.nil_append]

/-- A request for a descriptor, from a host that has the interrupt serviced for every event: the
packets that it fetches are those of the answer, whose data is the answer clipped to what the host
has room for; once it has the last one, and not before, the device awaits an empty packet that ends
the transfer. Buffers of callers may wait along with the request, if their handlers leave endpoint 0
alone; where every event has an interrupt of its own there are none. -/
theorem getDescriptor_delivers {description : DeviceDescription} {s : Session}
    (hd : d.Reached description) (hs : d.session = some s)
    (hpending : s.control.addressPending = false) (hgone : d.hw.toController.ep0Gone = false)
    (hcome : d.hw.toController.ep0Come = false)
    (hreset : (d.hw.read .sieStatus).bit Bit.busReset = false)
    (hspares : ∀ i ∈ d.hw.toController.returned, s.SparesEvent (.buffer i)) {p : SetupPacket}
    (hp : p.AsksForDescriptor) :
    ∃ bytes, s.descriptors.Answers p bytes ∧
      (d.run [.host (.setup p), .service]).1.Delivers (d.run [.host (.setup p), .service]).2
        (descriptorPackets p bytes) ∧
      ((descriptorPackets p bytes).map Packet.data).flatten = bytes.take p.length.toNat := by
  obtain ⟨bytes, hbytes⟩ := DescriptorSet.exists_answers s.descriptors hp.kind
  refine ⟨bytes, hbytes, ?_, flatten_descriptorPackets p bytes⟩
  obtain ⟨-, s', -, -, hservice⟩ := hd.inService
  obtain rfl : s' = s := Option.some.inj (hservice.session.symm.trans hs)
  obtain ⟨hstands, hlog⟩ := hservice.hear p hspares hreset hgone hcome
  have hfits : (bytes.take p.length.toNat).length ≤ packetLimit :=
    Nat.le_trans (List.length_take_le' _ _) (hbytes.length_le hservice.sound.fits)
  -- an answer is never cut off by the engine, so the packet is full where the answer is
  have hempty : decide (min (bytes.take p.length.toNat).length packetLimit = packetLimit ∧
      packetLimit < p.length.toNat) =
        decide ((bytes.take p.length.toNat).length = packetLimit ∧
          packetLimit < p.length.toNat) := by
    rw [Nat.min_eq_left hfits]
  rw [Ep0.setup, Control.setup_of_asks _ _ _ hp hbytes, hempty, Ep0.proceed_send,
    Ep0.armIn_of_le _ hfits] at hstands
  rw [descriptorPackets]
  split_ifs with hfull
  · exact delivers_full hstands rfl hpending (decide_eq_true hfull) rfl hfits rfl
      List.take_left hlog
  · exact delivers_last hstands rfl hpending (decide_eq_false hfull) rfl hfits rfl
      List.take_left hlog

/-- A name whose descriptor fills a packet. -/
def longName : String := "a name of thirty-one characters"

/-- The host asks for the name of the product, and has room for more. -/
def getName : SetupPacket := ⟨0x80, 6, 0x0302, 0, 255⟩

theorem getName_delivers :
    ∃ s bytes, (opened { product := longName }).session = some s ∧
      s.descriptors.Answers getName bytes ∧
      ((opened { product := longName }).run [.host (.setup getName), .service]).1.Delivers
        ((opened { product := longName }).run [.host (.setup getName), .service]).2
        (descriptorPackets getName bytes) ∧
      ((descriptorPackets getName bytes).map Packet.data).flatten = bytes.take 255 := by
  have hreached : Reached { product := longName } (opened { product := longName }) :=
    reached_opened (by decide +kernel)
  obtain ⟨-, s, -, -, hservice⟩ := hreached.inService
  have hpending : (opened { product := longName }).session.map (·.control.addressPending) =
      some false := by decide +kernel
  have hnone : (opened { product := longName }).hw.toController.returned = [] := by decide +kernel
  rw [hservice.session] at hpending
  obtain ⟨bytes, hbytes, hdelivers⟩ := getDescriptor_delivers hreached hservice.session
    (Option.some.inj hpending) (by decide +kernel) (by decide +kernel) (by decide +kernel)
    (by rw [hnone]; exact List.forall_mem_nil _)
    (p := getName) ⟨by decide, by decide, by decide, by decide⟩
  exact ⟨s, bytes, hservice.session, hbytes, hdelivers⟩

end Device

end UsbGadget
