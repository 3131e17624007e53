import UsbGadget.Hardware.Board

/-!
# The chip around the controller

`Soc` is the part of the chip outside the USB controller that matters here: the clocks, the resets,
the pins and the interrupt controller, as plain words. The lock bit of a phase-locked loop is the
one exception: it goes up once the loop's control register is written, as `Soc.settle` says.
-/

namespace UsbGadget

/-- A register of a phase-locked loop. -/
inductive PllRegister where
  /-- Reference divider and lock. -/
  | cs
  /-- Which parts are powered down. -/
  | pwr
  /-- Feedback divider. -/
  | fbdivInt
  /-- Post dividers. -/
  | prim
deriving DecidableEq, Repr

/-- A register of the chip outside the USB controller. -/
inductive SocRegister where
  /-- Source of the reference clock. -/
  | clkRefCtrl
  /-- Source of the system clock. -/
  | clkSysCtrl
  /-- Source of the USB clock. -/
  | clkUsbCtrl
  /-- Which blocks are held in reset. -/
  | resets
  /-- Function of the LED's pin. -/
  | gpio25Ctrl
  /-- The crystal oscillator. -/
  | xoscCtrl
  /-- The loop of the system clock. -/
  | pllSys (r : PllRegister)
  /-- The loop of the USB clock. -/
  | pllUsb (r : PllRegister)
  /-- The ring oscillator. -/
  | roscCtrl
  /-- Raises pins. -/
  | gpioOutSet
  /-- Lowers pins. -/
  | gpioOutClr
  /-- Makes pins outputs. -/
  | gpioOeSet
  /-- Unmasks interrupts. -/
  | nvicEnable
  /-- Masks interrupts. -/
  | nvicDisable
  /-- Drops interrupts that are waiting. -/
  | nvicClear
deriving DecidableEq, Repr

/-- Offset of a register in its loop. -/
def PllRegister.offset : PllRegister → Nat
  | cs => 0x0
  | pwr => 0x4
  | fbdivInt => 0x8
  | prim => 0xC

namespace SocRegister

/-- Where the processor sees a register. -/
def address : SocRegister → Nat
  | clkRefCtrl => 0x40008030
  | clkSysCtrl => 0x4000803C
  | clkUsbCtrl => 0x40008054
  | resets => 0x4000C000
  | gpio25Ctrl => 0x400140CC
  | xoscCtrl => 0x40024000
  | pllSys r => 0x40028000 + r.offset
  | pllUsb r => 0x4002C000 + r.offset
  | roscCtrl => 0x40060000
  | gpioOutSet => 0xD0000014
  | gpioOutClr => 0xD0000018
  | gpioOeSet => 0xD0000024
  | nvicEnable => 0xE000E100
  | nvicDisable => 0xE000E180
  | nvicClear => 0xE000E280

/-- The registers below the USB controller, by address. -/
def below : List SocRegister :=
  [clkRefCtrl, clkSysCtrl, clkUsbCtrl, resets, gpio25Ctrl, xoscCtrl, pllSys .cs, pllSys .pwr,
    pllSys .fbdivInt, pllSys .prim, pllUsb .cs, pllUsb .pwr, pllUsb .fbdivInt, pllUsb .prim,
    roscCtrl]

/-- The registers above the USB controller, by address. -/
def above : List SocRegister :=
  [gpioOutSet, gpioOutClr, gpioOeSet, nvicEnable, nvicDisable, nvicClear]

end SocRegister

/-- The chip outside the USB controller. -/
structure Soc where
  /-- The word in each register. -/
  read : SocRegister → Word

namespace Soc

/-- The chip out of reset, with the given blocks held in reset. -/
def fresh (resets : Word) : Soc := ⟨fun r => if r = .resets then resets else 0⟩

/-- Bit of the lock flag in a loop's control register. -/
def lockBit : Nat := 31

/-- The word that a register holds once `w` is written to it: a loop locks at once. -/
def settle (w : Word) : SocRegister → Word
  | .pllSys .cs => w.set lockBit
  | .pllUsb .cs => w.set lockBit
  | _ => w

/-- Writes a register. -/
def write (s : Soc) (r : SocRegister) (w : Word) : Soc :=
  ⟨fun r' => if r' = r then settle w r else s.read r'⟩

/-- Bit of the USB controller among the blocks that can be held in reset. -/
def usbReset : Nat := 24

/-- Number of the USB controller's interrupt. -/
def usbInterrupt : Nat := 5

/-- Puts a block into reset and takes it out again. -/
def pulse (s : Soc) (block : Nat) : Soc :=
  let held := s.write .resets ((s.read .resets).set block)
  held.write .resets ((held.read .resets).clear block)

end Soc

/-- On the chip a reset of the controller leaves its registers to the hardware, which is not
modelled: they keep their words. -/
instance : Board Soc where
  clearsRegisters := false
  reset s := s.pulse Soc.usbReset
  setInterrupt enabled s :=
    let mask := Word.only Soc.usbInterrupt
    if enabled then s.write .nvicEnable mask
    else (s.write .nvicDisable mask).write .nvicClear mask

end UsbGadget
