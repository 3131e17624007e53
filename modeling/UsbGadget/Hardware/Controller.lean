import UsbGadget.Hardware.Dpram
import UsbGadget.Memory
import UsbGadget.Usb.Pid
import UsbGadget.Usb.Transfer

/-!
# The controller's registers

A `Controller` is what the device and the bus share: a block of registers and the packet memory.
`Register` names the registers that the engine uses; `BufferControl` and `EndpointControl` are the
words through which it hands packets over (`BufferControl.ofWord_word` reads one back).
-/

namespace UsbGadget

/-- A register of the controller. -/
inductive Register where
  /-- The device's address. -/
  | addrEndp
  /-- Controller on and off, host or device. -/
  | mainCtrl
  /-- Pull-up and endpoint 0 reporting. -/
  | sieCtrl
  /-- What happened on the bus. -/
  | sieStatus
  /-- Which buffers have come back. -/
  | buffStatus
  /-- Where the controller's signals go. -/
  | usbMuxing
  /-- Bus power detection. -/
  | usbPwr
  /-- Which interrupts are wanted. -/
  | inte
  /-- Which interrupts are raised. -/
  | ints
deriving DecidableEq, Repr

namespace Register

/-- Where the processor sees the register block. -/
def base : Nat := 0x50110000

/-- Size of the register block in bytes. -/
def blockSize : Nat := 256

/-- Offset of a register in the block. -/
def offset : Register → Nat
  | addrEndp => 0x00
  | mainCtrl => 0x40
  | sieCtrl => 0x4C
  | sieStatus => 0x50
  | buffStatus => 0x58
  | usbMuxing => 0x74
  | usbPwr => 0x78
  | inte => 0x90
  | ints => 0x98

theorem offset_add_four_le (r : Register) : r.offset + 4 ≤ blockSize := by cases r <;> decide

theorem offset_disjoint {r s : Register} (h : r ≠ s) :
    r.offset + 4 ≤ s.offset ∨ s.offset + 4 ≤ r.offset := by
  revert h
  cases r <;> cases s <;> decide

end Register

/-! ### Bits of the registers -/

namespace Bit

/-- In `sieStatus`: a SETUP packet has come in. -/
def setupReceived : Nat := 17

/-- In `sieStatus`: the host has reset the bus. -/
def busReset : Nat := 19

/-- In `mainCtrl`: the controller is on. -/
def controllerOn : Nat := 0

/-- In `usbMuxing`: the signals go to the chip's own transceiver. -/
def toPhy : Nat := 0

/-- In `usbMuxing`: the connection is under the engine's control. -/
def softCon : Nat := 3

/-- In `usbPwr`: the bus has power. -/
def vbusDetect : Nat := 2

/-- In `usbPwr`: take that bit's word for it. -/
def vbusOverride : Nat := 3

/-- In `sieCtrl`: the pull-up that shows the device to the host. -/
def pullUp : Nat := 16

/-- In `sieCtrl`: report every buffer of endpoint 0. -/
def ep0Report : Nat := 29

/-- In `inte` and `ints`: a buffer has come back. -/
def bufferInterrupt : Nat := 4

/-- In `inte` and `ints`: the bus was reset. -/
def resetInterrupt : Nat := 12

/-- In `inte` and `ints`: a SETUP packet is waiting. -/
def setupInterrupt : Nat := 16

end Bit

/-! ### Packet hand-over words -/

/-- A buffer control word: one packet on its way between engine and controller. -/
structure BufferControl where
  /-- The buffer holds data. -/
  full : Bool
  /-- The packet's identifier. -/
  pid : Pid
  /-- The packet belongs to the controller. -/
  available : Bool
  /-- How many bytes the packet has, or may have; ten bits. -/
  length : Nat
deriving DecidableEq, Repr

namespace BufferControl

/-- Bit of the `full` flag. -/
def fullBit : Nat := 15

/-- Bit of the packet's identifier. -/
def pidBit : Nat := 13

/-- Bit of the `available` flag. -/
def availableBit : Nat := 10

/-- Width of the length. -/
def lengthWidth : Nat := 10

/-- The word in the register. -/
def word (b : BufferControl) : Word :=
  .ofNat (b.length % (1 <<< lengthWidth) + Word.flag b.available availableBit +
    Word.flag b.pid.isData1 pidBit + Word.flag b.full fullBit)

/-- Reads the word in the register. -/
def ofWord (w : Word) : BufferControl where
  full := w.bit fullBit
  pid := if w.bit pidBit then .data1 else .data0
  available := w.bit availableBit
  length := w.field 0 lengthWidth

theorem toNat_word (b : BufferControl) :
    b.word.toNat = b.length % 1024 + 1024 * b.available.toNat + 8192 * b.pid.isData1.toNat +
      32768 * b.full.toNat := by
  have hl : b.length % 1024 < 1024 := Nat.mod_lt _ (by decide)
  have ha := b.available.toNat_le
  have hp := b.pid.isData1.toNat_le
  have hf := b.full.toNat_le
  have hv : b.length % (1 <<< lengthWidth) + Word.flag b.available availableBit +
      Word.flag b.pid.isData1 pidBit + Word.flag b.full fullBit =
      b.length % 1024 + 1024 * b.available.toNat + 8192 * b.pid.isData1.toNat +
        32768 * b.full.toNat := by
    simp only [Word.flag, lengthWidth, availableBit, pidBit, fullBit, Nat.reduceShiftLeft]
    omega
  rw [word, hv, UInt32.toNat_ofNat_of_lt']
  show _ < 4294967296
  omega

/-- A buffer control word is read back, but for the length's eleventh and higher bits. -/
theorem ofWord_word (b : BufferControl) :
    ofWord b.word = { b with length := b.length % 1024 } := by
  have hl : b.length % 1024 < 1024 := Nat.mod_lt _ (by decide)
  have ha := b.available.toNat_le
  have hp := b.pid.isData1.toNat_le
  have hf := b.full.toNat_le
  have bit (i : Nat) (v : Bool) (h : (b.word.toNat >>> i) % 2 = v.toNat) : b.word.bit i = v := by
    rw [Word.bit, h]
    cases v <;> rfl
  have hfull : b.word.bit fullBit = b.full :=
    bit _ _ (by rw [toNat_word, fullBit]; omega)
  have hpid : b.word.bit pidBit = b.pid.isData1 :=
    bit _ _ (by rw [toNat_word, pidBit]; omega)
  have havail : b.word.bit availableBit = b.available :=
    bit _ _ (by rw [toNat_word, availableBit]; omega)
  have hlen : b.word.field 0 lengthWidth = b.length % 1024 := by
    simp only [Word.field, toNat_word, lengthWidth, Nat.shiftRight_zero, Nat.reduceShiftLeft]
    omega
  rw [ofWord, hfull, hpid, havail, hlen]
  obtain ⟨full, pid, available, length⟩ := b
  cases pid <;> rfl

end BufferControl

/-- An endpoint control word: an endpoint that is switched on. -/
structure EndpointControl where
  /-- How the endpoint moves its data. -/
  transfer : TransferType
  /-- Offset of its packet buffer; sixteen bits. -/
  bufferOffset : Nat
deriving DecidableEq, Repr

namespace EndpointControl

/-- Bit of the flag that switches the endpoint on. -/
def enableBit : Nat := 31

/-- Bit of the flag that has every buffer reported. -/
def reportBit : Nat := 29

/-- Lowest bit of the transfer type. -/
def transferBit : Nat := 26

/-- Width of the buffer offset. -/
def addressWidth : Nat := 16

/-- The word in the register: on and reporting every buffer, with the transfer type and the
buffer's offset in their places. -/
def word (e : EndpointControl) : Word :=
  .ofNat (Word.flag true enableBit + Word.flag true reportBit +
    (e.transfer.code.toNat <<< transferBit) + e.bufferOffset % (1 <<< addressWidth))

/-- The buffer offset in a word. -/
def bufferOffsetOf (w : Word) : Nat := w.field 0 addressWidth

theorem toNat_word (e : EndpointControl) :
    e.word.toNat =
      2684354560 + 67108864 * e.transfer.code.toNat + e.bufferOffset % 65536 := by
  have ht : e.transfer.code.toNat ≤ 3 := by cases e.transfer <;> decide
  have ho : e.bufferOffset % 65536 < 65536 := Nat.mod_lt _ (by decide)
  have hv : Word.flag true enableBit + Word.flag true reportBit +
      (e.transfer.code.toNat <<< transferBit) + e.bufferOffset % (1 <<< addressWidth) =
      2684354560 + 67108864 * e.transfer.code.toNat + e.bufferOffset % 65536 := by
    simp only [Word.flag, enableBit, reportBit, transferBit, addressWidth, Bool.toNat_true,
      Nat.reduceShiftLeft]
    omega
  rw [word, hv, UInt32.toNat_ofNat_of_lt']
  show _ < 4294967296
  omega

theorem bufferOffsetOf_word (e : EndpointControl) :
    bufferOffsetOf e.word = e.bufferOffset % 65536 := by
  have ho : e.bufferOffset % 65536 < 65536 := Nat.mod_lt _ (by decide)
  simp only [bufferOffsetOf, Word.field, toNat_word, addressWidth, Nat.shiftRight_zero,
    Nat.reduceShiftLeft]
  omega

end EndpointControl

/-! ### The controller -/

/-- What the device and the bus share. -/
structure Controller where
  /-- The registers. -/
  regs : Memory Register.blockSize
  /-- The packet memory. -/
  dpram : Memory Dpram.size
deriving DecidableEq

namespace Controller

/-- A controller in which everything is 0. -/
def blank : Controller := ⟨.zero, .zero⟩

/-- The word in a register. -/
def read (c : Controller) (r : Register) : Word := c.regs.word r.offset

/-- Replaces the word in a register. -/
def write (c : Controller) (r : Register) (w : Word) : Controller :=
  { c with regs := c.regs.writeWord r.offset w }

/-- The word in a buffer control register. -/
def bufferControl (c : Controller) (index : Nat) : Word :=
  c.dpram.word (Dpram.bufferControlOffset index)

/-- The word in an endpoint control register. -/
def endpointControl (c : Controller) (index : Nat) : Word :=
  c.dpram.word (Dpram.endpointControlOffset index)

@[simp] theorem read_write (c : Controller) (r : Register) (w : Word) :
    (c.write r w).read r = w :=
  Memory.word_writeWord _ _ _ r.offset_add_four_le

theorem read_write_of_ne (c : Controller) {r s : Register} (w : Word) (h : s ≠ r) :
    (c.write r w).read s = c.read s :=
  Memory.word_writeBytes_of_disjoint _ (by simpa using Register.offset_disjoint h)

@[simp] theorem dpram_write (c : Controller) (r : Register) (w : Word) :
    (c.write r w).dpram = c.dpram := rfl

end Controller

end UsbGadget
