/-!
# Transfer directions and endpoint addresses

USB names directions from the host's side: an OUT transfer goes to the device, an IN transfer comes
from it. Bit 7 of an endpoint address, and of the first byte of a SETUP packet, tells which.
-/

namespace UsbGadget

/-- The direction of a transfer, as the host sees it. -/
inductive Direction where
  /-- Host to device. -/
  | output
  /-- Device to host. -/
  | input
deriving DecidableEq, Repr

namespace Direction

/-- The value of the direction bit in an address. -/
def bit : Direction → Nat
  | output => 0
  | input => 128

/-- The address of the endpoint with this direction and number; of the number four bits count. -/
def address (d : Direction) (number : UInt8) : UInt8 := UInt8.ofNat (number.toNat % 16 + d.bit)

/-- The direction named by bit 7 of a byte. -/
def ofByte (b : UInt8) : Direction := if 128 ≤ b.toNat then input else output

/-- The direction of a register in a row of pairs that have IN first: even indexes are IN. -/
def ofIndex (index : Nat) : Direction := if index % 2 = 0 then input else output

/-- The place of a direction's register in its pair. -/
def place : Direction → Nat
  | input => 0
  | output => 1

theorem place_le (d : Direction) : d.place ≤ 1 := by cases d <;> decide

theorem ofByte_address (d : Direction) (number : UInt8) : ofByte (d.address number) = d := by
  have h : (d.address number).toNat = number.toNat % 16 + d.bit := by
    have hd : d.bit ≤ 128 := by cases d <;> decide
    exact UInt8.toNat_ofNat_of_lt' (show _ < 256 by omega)
  rw [ofByte, h]
  cases d
  · exact if_neg (show ¬128 ≤ number.toNat % 16 + 0 by omega)
  · exact if_pos (show 128 ≤ number.toNat % 16 + 128 by omega)

theorem ofIndex_place (d : Direction) (n : Nat) : ofIndex (2 * n + d.place) = d := by
  cases d
  · exact if_neg (show ¬(2 * n + 1) % 2 = 0 by omega)
  · exact if_pos (show (2 * n + 0) % 2 = 0 by omega)

end Direction

end UsbGadget
