import UsbGadget.Firmware.Echo
import UsbGadget.Proofs.CallerEndpoints

/-!
# The packet that goes round

The echo device has at most one packet on its way, and hands its two buffers over in turn.
`Echo.Token` says where that packet is; `Echo.Token.Agrees` says that a controller's packet memory
is as the token has it. The lemmas are the moves of the token: the device listens, a packet comes in
(`Agrees.arrive`), the device hands it to the other endpoint (`Agrees.answer`), and the host fetches
it (`Agrees.leave`).
-/

namespace UsbGadget

/-- A slot and its buffer control register have a packet with the given data. -/
structure Controller.Holds (c : Controller) (index offset : Nat) (data : List UInt8) : Prop where
  /-- The data fits in a packet. -/
  fits : data.length ≤ Dpram.bufferSize
  /-- The length in the register. -/
  length : (BufferControl.ofWord (c.bufferControl index)).length = data.length
  /-- The bytes in the slot. -/
  bytes : c.dpram.readBytes offset data.length = data

namespace Echo

/-- The endpoint that receives, in an open session. -/
def receiver (pid : Pid) : Endpoint where
  interface := interface
  address := outAddress
  maxPacketSize := Dpram.bufferSize
  owner := .caller (some sendBack)
  nextPid := pid
  transfer := .bulk
  bufferOffset := 0x180
  bufferControl := 3
  endpointControl := some 1

/-- The endpoint that sends, in an open session. -/
def sender (pid : Pid) : Endpoint where
  interface := interface
  address := inAddress
  maxPacketSize := Dpram.bufferSize
  owner := .caller (some listen)
  nextPid := pid
  transfer := .bulk
  bufferOffset := 0x1C0
  bufferControl := 4
  endpointControl := some 2

theorem callers_ofDescription : (Session.ofDescription device).map Session.callers =
    .ok [receiver .data0, sender .data0] := rfl

theorem placed_receiver (pid : Pid) : (receiver pid).Placed :=
  ⟨show 3 < 32 by decide, show 0x100 ≤ 0x180 by decide, show 0x180 + 64 ≤ 4096 by decide,
    show 0x180 % 64 = 0 by decide, Nat.le_refl _⟩

theorem placed_sender (pid : Pid) : (sender pid).Placed :=
  ⟨show 4 < 32 by decide, show 0x100 ≤ 0x1C0 by decide, show 0x1C0 + 64 ≤ 4096 by decide,
    show 0x1C0 % 64 = 0 by decide, Nat.le_refl _⟩

/-- Index of the buffer control register of the endpoint that receives. -/
def outIndex : Nat := Dpram.bufferControlIndex outAddress .output

/-- Index of the buffer control register of the endpoint that sends. -/
def inIndex : Nat := Dpram.bufferControlIndex inAddress .input

/-- Where the packet is that goes round. -/
inductive Token where
  /-- Nowhere yet: the device was not made ready. -/
  | waiting
  /-- With the host: the device is ready for it. -/
  | listening
  /-- It has come in. -/
  | arrived (data : List UInt8)
  /-- It is ready to go back. -/
  | answering (data : List UInt8)
  /-- The host has fetched it. -/
  | answered

namespace Token

/-- The buffers of callers that the controller has. -/
def arms : Token → Nat → Bool
  | listening, index => index == outIndex
  | answering _, index => index == inIndex
  | waiting, _ | arrived _, _ | answered, _ => false

/-- The buffers of callers that have come back. -/
def owes : Token → Nat → Bool
  | arrived _, index => index == outIndex
  | answered, index => index == inIndex
  | waiting, _ | listening, _ | answering _, _ => false

/-- The device was made ready. -/
def started : Token → Bool
  | waiting => false
  | listening | arrived _ | answering _ | answered => true

/-- The packets that the host has delivered but not fetched yet. -/
def inFlight : Token → List (List UInt8)
  | arrived data | answering data => [data]
  | waiting | listening | answered => []

theorem length_inFlight_le (token : Token) : token.inFlight.length ≤ 1 := by
  cases token with
  | waiting | listening | answered => exact Nat.zero_le _
  | arrived | answering => exact Nat.le_refl _

/-- There is one buffer at most that the controller has or gave back. -/
theorem count_le (token : Token) :
    [token.arms outIndex, token.arms inIndex, token.owes outIndex, token.owes inIndex].count true
      ≤ 1 := by
  cases token <;> exact Nat.le_of_ble_eq_true rfl

/-- The packet is in the buffer that it has got to. -/
def Carried (c : Controller) : Token → Prop
  | arrived data => c.Holds outIndex 0x180 data
  | answering data => c.Holds inIndex 0x1C0 data
  | waiting | listening | answered => True

/-- The packet memory is as the token has it. -/
structure Agrees (token : Token) (c : Controller) : Prop where
  /-- Where received packets lie. -/
  outOffset : c.packetOffset outAddress .output = 0x180
  /-- Where sent packets lie. -/
  inOffset : c.packetOffset inAddress .input = 0x1C0
  /-- The buffers that the controller has. -/
  armed : ∀ i, 2 ≤ i → i < Dpram.bufferControls → c.armed i = token.arms i
  /-- The packet. -/
  carried : token.Carried c

variable {token : Token} {c c' : Controller} {data : List UInt8}

theorem Agrees.of_same (h : token.Agrees c) (hsame : c.SameCallers c') : token.Agrees c' := by
  -- a packet in a slot of a caller stays there
  have hholds : ∀ {index offset : Nat} {data : List UInt8}, 2 ≤ index →
      index < Dpram.bufferControls → Dpram.ep0Buffer < offset →
      offset % Dpram.bufferSize = 0 → c.Holds index offset data → c'.Holds index offset data := by
    intro index offset data hle hlt hoff halign hc
    refine ⟨hc.fits, ?_, ?_⟩
    · rw [hsame.word index hle hlt, hc.length]
    · rw [hsame.slot offset _ hoff halign hc.fits, hc.bytes]
  refine ⟨(hsame.packetOffset_eq _ _).trans h.outOffset,
    (hsame.packetOffset_eq _ _).trans h.inOffset,
    fun i hi hi' => (hsame.armed_eq hi hi').trans (h.armed i hi hi'), ?_⟩
  have hcarried := h.carried
  cases token with
  | arrived data => exact hholds (by decide) (by decide) (by decide) (by decide) hcarried
  | answering data => exact hholds (by decide) (by decide) (by decide) (by decide) hcarried
  | waiting | listening | answered => trivial

/-! ### Packets that the device hands over -/

section

variable {σ : Type} [Board σ] {h : Hardware σ}

theorem packetOffset_arm {e : Endpoint} (he : e.Placed) (h : Hardware σ) (data : List UInt8)
    (number : UInt8) (d : Direction) :
    ((Effect.arm e data).apply h).toController.packetOffset number d =
      h.toController.packetOffset number d := by
  apply Controller.packetOffset_congr
  intro i _ hi
  rw [Effect.dpram_apply_arm]
  exact he.byte_arm_low data h.dpram hi

theorem holds_arm {e : Endpoint} (he : e.Placed) (hin : e.direction = .input) (h : Hardware σ)
    (hdata : data.length ≤ Dpram.bufferSize) :
    ((Effect.arm e data).apply h).toController.Holds e.bufferControl e.bufferOffset data := by
  have hword : ((Effect.arm e data).apply h).toController.bufferControl e.bufferControl =
      e.armWord data.length := (he.word_arm data h.dpram he.bufferControl_lt).trans (if_pos rfl)
  refine ⟨hdata, ?_, ?_⟩
  · rw [hword, Endpoint.armWord, BufferControl.ofWord_word]
    exact Nat.mod_eq_of_lt (Nat.lt_of_le_of_lt hdata (by decide))
  · rw [← Memory.take_readBytes _ hdata, Effect.dpram_apply_arm, he.readBytes_arm data _ hin hdata,
      List.take_left]

theorem Agrees.listen (hh : token.Agrees h.toController) (hnone : ∀ i, token.arms i = false)
    (pid : Pid) (data : List UInt8) :
    listening.Agrees ((Effect.arm (receiver pid) data).apply h).toController := by
  have hplaced := placed_receiver pid
  refine ⟨(packetOffset_arm hplaced h data _ _).trans hh.outOffset,
    (packetOffset_arm hplaced h data _ _).trans hh.inOffset, ?_, trivial⟩
  intro i hi hi'
  rw [Effect.armed_apply_arm hplaced h data hi', hh.armed i hi hi', hnone]
  exact (Bool.if_true_left ..).trans (Bool.or_false _)

/-- The device hands over the packet that has come in. -/
theorem Agrees.answer (hh : (arrived data).Agrees h.toController) (pid : Pid) :
    (answering data).Agrees ((Effect.arm (sender pid) data).apply h).toController := by
  have hplaced := placed_sender pid
  refine ⟨(packetOffset_arm hplaced h data _ _).trans hh.outOffset,
    (packetOffset_arm hplaced h data _ _).trans hh.inOffset, ?_,
    holds_arm hplaced rfl h hh.carried.fits⟩
  intro i hi hi'
  rw [Effect.armed_apply_arm hplaced h data hi', hh.armed i hi hi']
  exact (Bool.if_true_left ..).trans (Bool.or_false _)

/-- What the device reads is the packet that has come in. -/
theorem Agrees.completedData_eq (hh : (arrived data).Agrees c) (pid : Pid) :
    (receiver pid).completedData c.dpram = data := by
  have hlength : (receiver pid).completedLength c.dpram = data.length := by
    have hback : (BufferControl.ofWord (c.dpram.word (Dpram.bufferControlOffset 3))).length =
        data.length := hh.carried.length
    have hfits : data.length ≤ 64 := hh.carried.fits
    simp only [Endpoint.completedLength, receiver, hback, Dpram.bufferSize]
    omega
  rw [Endpoint.completedData, hlength]
  exact hh.carried.bytes

end

/-! ### Packets that the host completes -/

theorem Agrees.inPacket_eq (hh : (answering data).Agrees c) :
    (c.inPacket inAddress).data = data := by
  have hlength := hh.carried.length
  rw [Controller.inPacket, hh.inOffset]
  exact (congrArg (c.dpram.readBytes 0x1C0) hlength).trans hh.carried.bytes

/-- A buffer of a caller that the controller does not have is not completed. -/
theorem Agrees.complete_of_not (hh : token.Agrees c) {address : UInt8} (data : List UInt8)
    (hle : 2 ≤ Dpram.bufferControlIndex address (.ofByte address))
    (hnot : token.arms (Dpram.bufferControlIndex address (.ofByte address)) = false) :
    c.complete address data false = (false, c) :=
  Controller.complete_of_not_armed data
    ((hh.armed _ hle (Controller.bufferControlIndex_lt _ _)).trans hnot)

theorem address_of_index {address : UInt8} {i : Nat}
    (h : Dpram.bufferControlIndex address (.ofByte address) = i) :
    Direction.ofByte address = .ofIndex i ∧ address.toNat % 16 = i / 2 := by
  subst h
  have hplace := (Direction.ofByte address).place_le
  refine ⟨(Direction.ofIndex_place _ _).symm, ?_⟩
  simp only [Dpram.bufferControlIndex]
  omega

theorem Agrees.giveBack (hh : token.Agrees c) {i : Nat} (hi : i < Dpram.bufferControls)
    (harms : ∀ j, token.arms j = (j == i)) {w : Word}
    (hw : w.bit BufferControl.availableBit = false) {token' : Token}
    (hnone : ∀ j, token'.arms j = false) (hcarried : token'.Carried (c.giveBack i w)) :
    token'.Agrees (c.giveBack i w) := by
  refine ⟨(c.packetOffset_giveBack hi w _ _).trans hh.outOffset,
    (c.packetOffset_giveBack hi w _ _).trans hh.inOffset, ?_, hcarried⟩
  intro j hj hj'
  rw [c.armed_giveBack hi hw, hh.armed j hj hj', harms, hnone]
  split_ifs with hself
  · rfl
  · exact beq_false_of_ne hself

theorem Agrees.fill (hh : listening.Agrees c) (data : List UInt8) :
    listening.Agrees { c with dpram := c.dpram.writeBytes 0x180 data } := by
  have hlow : ∀ i, 8 ≤ i → i < Dpram.bufferControlOffset 0 →
      (c.dpram.writeBytes 0x180 data).byte i = c.dpram.byte i := by
    intro i _ hi
    simp only [Dpram.bufferControlOffset] at hi
    rw [Memory.byte_writeBytes, if_neg (by omega)]
  refine ⟨(Controller.packetOffset_congr hlow _ _).trans hh.outOffset,
    (Controller.packetOffset_congr hlow _ _).trans hh.inOffset, ?_, trivial⟩
  intro i hi hi'
  rw [← hh.armed i hi hi', Controller.armed, Controller.armed,
    c.bufferControl_writeBytes hi' (show 0x100 ≤ 0x180 by decide)]

theorem holds_filled (c : Controller) (hdata : data.length ≤ Dpram.bufferSize) :
    ({ c with dpram := c.dpram.writeBytes 0x180 data }.giveBack outIndex
      (Controller.filledWord (c.bufferControl outIndex) data.length)).Holds outIndex 0x180
        data := by
  obtain ⟨-, hlength⟩ := Controller.ofWord_filledWord (c.bufferControl outIndex) data.length
  generalize Controller.filledWord (c.bufferControl outIndex) data.length = w at hlength ⊢
  refine ⟨hdata, ?_, ?_⟩
  · rw [Controller.bufferControl_giveBack _ (by decide), if_pos rfl, hlength]
    exact Nat.mod_eq_of_lt (Nat.lt_of_le_of_lt hdata (by decide))
  · refine Eq.trans (Memory.readBytes_congr ?_) (c.dpram.readBytes_writeBytes 0x180
      data (Nat.le_trans (Nat.add_le_add_left hdata _) (by decide)))
    intro i hi _
    rw [Controller.byte_giveBack _ (by decide) w (.inr (Nat.le_trans (by decide) hi))]

/-- A packet comes in. -/
theorem Agrees.arrive (hh : listening.Agrees c) {address : UInt8}
    (hindex : Dpram.bufferControlIndex address (.ofByte address) = outIndex)
    (hdata : data.length ≤ Dpram.bufferSize) :
    (c.complete address data false).1 = true ∧
      (arrived data).Agrees (c.complete address data false).2 := by
  obtain ⟨hd, hnumber⟩ : Direction.ofByte address = .output ∧ address.toNat % 16 = 1 :=
    address_of_index hindex
  have harmed : c.armed outIndex = true := hh.armed outIndex (by decide) (by decide)
  have havailable := (Controller.ofWord_filledWord (c.bufferControl outIndex) data.length).1
  have hoff : c.packetOffset address .output = 0x180 :=
    (c.packetOffset_congr_number hnumber .output).trans hh.outOffset
  rw [hd] at hindex
  rw [c.complete_output address data outIndex hindex hd
    (hoff ▸ Nat.le_trans (Nat.add_le_add_left hdata _) (by decide)), if_pos harmed, hoff]
  exact ⟨rfl, (hh.fill data).giveBack (by decide) (fun _ => rfl) havailable (fun _ => rfl)
    (holds_filled c hdata)⟩

/-- The host fetches the packet. -/
theorem Agrees.leave (hh : (answering data).Agrees c) {address : UInt8} (data' : List UInt8)
    (hindex : Dpram.bufferControlIndex address (.ofByte address) = inIndex) :
    (c.complete address data' false).1 = true ∧
      answered.Agrees (c.complete address data' false).2 := by
  have hd : Direction.ofByte address = .input := (address_of_index hindex).1
  have harmed : c.armed inIndex = true := hh.armed inIndex (by decide) (by decide)
  rw [hd] at hindex
  rw [c.complete_input address data' inIndex hindex hd, if_pos harmed]
  exact ⟨rfl, hh.giveBack (by decide) (fun _ => rfl) (by simp) (fun _ => rfl) trivial⟩

end Token

end Echo

end UsbGadget
