import UsbGadget.Hardware.Soc

/-!
# Starting the chip

The writes that bring the chip from its ring oscillator to the clocks that USB needs. The LED's pin
becomes an output; the crystal takes over; the two phase-locked loops are started and put in charge
of the system clock and of the USB clock.
-/

namespace UsbGadget

/-- One write of the start-up. -/
inductive BootWrite where
  /-- Replaces a register's word. -/
  | write (r : SocRegister) (w : Word)
  /-- Sets one bit of a register. -/
  | setBit (r : SocRegister) (bit : Nat)
  /-- Clears one bit of a register. -/
  | clearBit (r : SocRegister) (bit : Nat)
deriving DecidableEq, Repr

namespace BootWrite

/-- What a write does to the chip. -/
def apply (s : Soc) : BootWrite → Soc
  | write r w => s.write r w
  | setBit r i => s.write r ((s.read r).set i)
  | clearBit r i => s.write r ((s.read r).clear i)

end BootWrite

namespace Boot

/-- Number of the LED's pin. -/
def ledPin : Nat := 25

/-- The start of a phase-locked loop: out of reset, reference divided by one, oscillator and loop
powered up; then the post dividers are set and powered up. -/
def startPll (pll : PllRegister → SocRegister) (resetBit feedback post₁ post₂ : Nat) :
    List BootWrite :=
  [.clearBit .resets resetBit,
    .write (pll .cs) 1,
    .write (pll .fbdivInt) (UInt32.ofNat feedback),
    .write (pll .pwr) (Word.ofBits [2, 3]),
    .write (pll .prim) (UInt32.ofNat ((post₁ <<< 16) + (post₂ <<< 12))),
    .clearBit (pll .pwr) 3]

/-- All writes of the start-up, in order. The system loop makes 132 MHz and the USB loop 48 MHz of
the crystal's 12 MHz. -/
def writes : List BootWrite :=
  [.clearBit .resets 5,
    .write .gpio25Ctrl 5,
    .write .gpioOeSet (Word.only ledPin),
    .write .xoscCtrl 0xFABAA0,
    .write .clkRefCtrl 2,
    .write .roscCtrl 0xD1EFA4] ++
    startPll .pllSys 12 132 6 2 ++
    [.write .clkSysCtrl 0, .setBit .clkSysCtrl 0] ++
    startPll .pllUsb 13 100 5 5 ++
    [.write .clkUsbCtrl (Word.only 11)]

/-- The chip after the start-up. -/
def run (s : Soc) : Soc := writes.foldl BootWrite.apply s

end Boot

end UsbGadget
