/-!
# Configuration flags

The power and wake-up flags of a configuration. The flags are a byte; bits that have no name are
kept as they are, and `describe` shows them as a number.
-/

namespace UsbGadget

/-- The flags of a configuration. -/
structure ConfigurationFlags where
  /-- The flags as a byte. -/
  bits : UInt8
deriving DecidableEq, Repr

namespace ConfigurationFlags

/-- No flag is set. -/
def none : ConfigurationFlags := ⟨0⟩

/-- The device has its own power. -/
def selfPowered : ConfigurationFlags := ⟨0x40⟩

/-- The device can wake the host. -/
def remoteWakeup : ConfigurationFlags := ⟨0x20⟩

/-- The flags that have names, with their names. -/
def named : List (String × ConfigurationFlags) :=
  [("SELF_POWERED", selfPowered), ("REMOTE_WAKEUP", remoteWakeup)]

/-- All flags that have names. -/
def all : ConfigurationFlags := ⟨selfPowered.bits ||| remoteWakeup.bits⟩

/-- The flags without the bits that have no name. -/
def truncate (f : ConfigurationFlags) : ConfigurationFlags := ⟨f.bits &&& all.bits⟩

/-- The bits that have no name. -/
def unknown (f : ConfigurationFlags) : UInt8 := f.bits &&& ~~~all.bits

/-- Every set bit has a name. -/
def isKnown (f : ConfigurationFlags) : Bool := f.unknown == 0

/-- All bits of `g` are set in `f`. -/
def contains (f g : ConfigurationFlags) : Bool := f.bits &&& g.bits == g.bits

/-- The names of the flags that are set. -/
def names (f : ConfigurationFlags) : List String :=
  (named.filter fun n => f.contains n.2).map Prod.fst

/-- A byte in hexadecimal, without leading zeros. -/
def hexadecimal (b : UInt8) : String := "0x" ++ String.ofList (Nat.toDigits 16 b.toNat)

/-- The flags in words: the names of those that are set, then the bits that have no name; a zero
if nothing is set. -/
def text (f : ConfigurationFlags) : String :=
  let parts := f.names ++ if f.isKnown then [] else [hexadecimal f.unknown]
  "ConfigFlags(" ++ (if parts = [] then hexadecimal 0 else " | ".intercalate parts) ++ ")"

end ConfigurationFlags

end UsbGadget
