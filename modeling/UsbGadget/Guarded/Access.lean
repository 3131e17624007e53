import Mathlib.Algebra.GroupWithZero.Nat
import UsbGadget.Memory

/-!
# Accesses and sums that can fail

Memory and lists are total elsewhere: what lies outside is read as 0 or left out. Here every access
is checked and every sum has a width, and what does not fit is a `Fault`. An engine that is written
with these operations (`Guarded.run`) shows that the total ones are never asked for anything
outside.

Sizes of things in memory are numbers of `sizeWidth` bits, like addresses.
-/

namespace UsbGadget

/-- What a checked program stops with. -/
inductive Fault where
  /-- A register or an element is looked at that is not there. -/
  | index (i size : Nat)
  /-- A range does not lie in what it is a range of. -/
  | range (start stop size : Nat)
  /-- Bytes are copied to a place that has another length. -/
  | length (place bytes : Nat)
  /-- A number does not fit in its width. -/
  | overflow (width value : Nat)
  /-- A number is taken away from a smaller one. -/
  | underflow (a b : Nat)
  /-- A packet buffer is not inside the packet memory. -/
  | outside (offset length : Nat)
  /-- The records of a configuration are not as long as they have to be. -/
  | records (used total : Nat)
deriving DecidableEq, Repr

namespace Guarded

/-- Width of an address, and of the size of anything in memory. -/
def sizeWidth : Nat := 32

variable {α : Type} {size : Nat}

/-! ### Numbers -/

/-- A number, if it fits in a width. -/
def fit (width value : Nat) : Except Fault Nat :=
  if value < 2 ^ width then .ok value else .error (.overflow width value)

/-- A sum, if it fits. -/
def sum (width a b : Nat) : Except Fault Nat := fit width (a + b)

/-- A product, if it fits. -/
def product (width a b : Nat) : Except Fault Nat := fit width (a * b)

/-- A difference, if there is one. -/
def difference (a b : Nat) : Except Fault Nat :=
  if b ≤ a then .ok (a - b) else .error (.underflow a b)

/-- A one in the place of bit `i`, if there is such a bit. -/
def bitAt (width i : Nat) : Except Fault Nat :=
  if i < width then .ok (1 <<< i) else .error (.overflow width i)

/-! ### Places -/

/-- Checks that there is an element with this index. -/
def index (i size : Nat) : Except Fault Unit :=
  if i < size then .ok () else .error (.index i size)

/-- Checks that a range lies in something of this size. -/
def range (start stop size : Nat) : Except Fault Unit :=
  if start ≤ stop ∧ stop ≤ size then .ok () else .error (.range start stop size)

/-- The elements of a range of a list. -/
def slice (l : List α) (start stop : Nat) : Except Fault (List α) := do
  range start stop l.length
  pure ((l.drop start).take (stop - start))

/-- The bytes of a range of a buffer. -/
def view (m : Memory size) (start stop : Nat) : Except Fault (List UInt8) := do
  range start stop size
  pure (m.readBytes start (stop - start))

/-- Copies bytes to a range of a buffer, which has to be as long as they are. -/
def fill (m : Memory size) (start stop : Nat) (bytes : List UInt8) :
    Except Fault (Memory size) := do
  range start stop size
  if bytes.length = stop - start then
    pure (m.writeBytes start bytes)
  else
    throw (.length (stop - start) bytes.length)

/-! ### What does not fail -/

theorem ok_bind {ε β : Type} (a : α) (f : α → Except ε β) : (Except.ok a >>= f) = f a := rfl

theorem pure_eq_ok {ε : Type} (a : α) : (pure a : Except ε α) = .ok a := rfl

theorem sum_eq {width a b : Nat} (h : a + b < 2 ^ width) : sum width a b = .ok (a + b) := if_pos h

theorem product_eq {width a b : Nat} (h : a * b < 2 ^ width) : product width a b = .ok (a * b) :=
  if_pos h

theorem difference_eq {a b : Nat} (h : b ≤ a) : difference a b = .ok (a - b) := if_pos h

theorem bitAt_eq {width i : Nat} (h : i < width) : bitAt width i = .ok (1 <<< i) := if_pos h

theorem index_eq {i size : Nat} (h : i < size) : index i size = .ok () := if_pos h

theorem range_eq {start stop size : Nat} (h : start ≤ stop) (h' : stop ≤ size) :
    range start stop size = .ok () := if_pos ⟨h, h'⟩

theorem slice_eq {l : List α} {start stop : Nat} (h : start ≤ stop) (h' : stop ≤ l.length) :
    slice l start stop = .ok ((l.drop start).take (stop - start)) := by
  rw [slice, range_eq h h']
  rfl

theorem slice_to {l : List α} {n : Nat} (h : n ≤ l.length) : slice l 0 n = .ok (l.take n) := by
  rw [slice_eq (Nat.zero_le _) h, List.drop_zero, Nat.sub_zero]

theorem slice_front (l : List α) (n : Nat) : slice l 0 (min l.length n) = .ok (l.take n) := by
  rw [slice_to (Nat.min_le_left _ _), Nat.min_comm, ← List.take_eq_take_min]

theorem view_eq {m : Memory size} {start stop : Nat} (h : start ≤ stop) (h' : stop ≤ size) :
    view m start stop = .ok (m.readBytes start (stop - start)) := by
  rw [view, range_eq h h']
  rfl

theorem fill_eq (m : Memory size) (start : Nat) (bytes : List UInt8)
    (h : start + bytes.length ≤ size) :
    fill m start (start + bytes.length) bytes = .ok (m.writeBytes start bytes) := by
  rw [fill, range_eq (Nat.le_add_right _ _) h, ok_bind, if_pos (Nat.add_sub_cancel_left _ _).symm]
  rfl

/-! ### What fails -/

theorem slice_eq_error {l : List α} {start stop : Nat} (h : ¬(start ≤ stop ∧ stop ≤ l.length)) :
    slice l start stop = .error (.range start stop l.length) := by
  rw [slice, range, if_neg h]
  rfl

theorem fill_eq_error {m : Memory size} {start : Nat} {bytes : List UInt8}
    (h : ¬start + bytes.length ≤ size) :
    fill m start (start + bytes.length) bytes =
      .error (.range start (start + bytes.length) size) := by
  rw [fill, range, if_neg fun h' => h h'.2]
  rfl

end Guarded

end UsbGadget
