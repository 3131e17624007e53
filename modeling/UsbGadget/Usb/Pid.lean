/-!
# Data packet identifiers

The data packets of an endpoint alternate between two identifiers, so that a repeated packet can be
told from a new one.
-/

namespace UsbGadget

/-- The identifier of a data packet. -/
inductive Pid where
  | data0
  | data1
deriving DecidableEq, Repr

namespace Pid

/-- The identifier of the packet after one with this identifier. -/
def next : Pid → Pid
  | data0 => data1
  | data1 => data0

/-- The identifier of the `n`-th packet of a row that starts with `data0`. -/
def nth (n : Nat) : Pid := if n % 2 = 0 then data0 else data1

/-- The packet is a `data1` packet. -/
def isData1 : Pid → Bool
  | data0 => false
  | data1 => true

theorem nth_succ (n : Nat) : nth (n + 1) = (nth n).next := by
  unfold nth
  rcases Nat.mod_two_eq_zero_or_one n with h | h
  · rw [if_neg (by omega), if_pos h, next]
  · rw [if_pos (by omega), if_neg (by omega), next]

end Pid

end UsbGadget
