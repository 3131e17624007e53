import UsbGadget.Text.Utf16

/-!
# Reading UTF-16 back

What a host makes of the text in a string descriptor. A unit outside the surrogates is a character
of its own, a high surrogate and the low one behind it are a character of another plane, and there
is nothing to read if half of a pair stands alone or half of a unit is left over.

Main statement: `Utf16.decode?_bytes_encode`, a text is read back from its bytes.
-/

namespace UsbGadget.Utf16

/-- The unit is the first half of a pair. -/
def isHigh (u : UInt16) : Bool := 0xD800 ≤ u.toNat && u.toNat < 0xDC00

/-- The unit is the second half of a pair. -/
def isLow (u : UInt16) : Bool := 0xDC00 ≤ u.toNat && u.toNat < 0xE000

/-- The character of a pair. -/
def charOfPair (high low : UInt16) : Char :=
  Char.ofNat (0x10000 + (high.toNat - 0xD800) * 0x400 + (low.toNat - 0xDC00))

/-- Reads characters from their units. -/
def charsOf? : List UInt16 → Option (List Char)
  | [] => some []
  | u :: units =>
    if isHigh u then
      match units with
      | [] => none
      | low :: rest => if isLow low then (charsOf? rest).map (charOfPair u low :: ·) else none
    else if isLow u then none
    else (charsOf? units).map (Char.ofNat u.toNat :: ·)

/-- Reads units from their bytes, each unit lowest byte first. -/
def unitsOf? : List UInt8 → Option (List UInt16)
  | [] => some []
  | [_] => none
  | b₀ :: b₁ :: rest => (unitsOf? rest).map (halfOfBytes b₀ b₁ :: ·)

/-- Reads a text from its bytes. -/
def decode? (bytes : List UInt8) : Option String := do
  let units ← unitsOf? bytes
  let chars ← charsOf? units
  pure (String.ofList chars)

/-! ### What was written is read -/

theorem toNat_cases (c : Char) :
    c.toNat < 0xD800 ∨ 0xDFFF < c.toNat ∧ c.toNat < 0x110000 := c.valid

/-- A character is read from its units, whatever stands behind them. -/
theorem charsOf?_ofChar_append (c : Char) (units : List UInt16) :
    charsOf? (ofChar c ++ units) = (charsOf? units).map (c :: ·) := by
  have hvalid := toNat_cases c
  unfold ofChar
  by_cases hplane : c.toNat < 0x10000
  · -- the units of the basic plane leave the surrogates out
    have hunit : (UInt16.ofNat c.toNat).toNat = c.toNat := UInt16.toNat_ofNat_of_lt' hplane
    have hhigh : isHigh (UInt16.ofNat c.toNat) = false := by
      rw [isHigh, hunit, Bool.and_eq_false_iff, decide_eq_false_iff_not, decide_eq_false_iff_not]
      omega
    have hlow : isLow (UInt16.ofNat c.toNat) = false := by
      rw [isLow, hunit, Bool.and_eq_false_iff, decide_eq_false_iff_not, decide_eq_false_iff_not]
      omega
    rw [if_pos hplane, List.singleton_append, charsOf?.eq_def]
    simp only [hhigh, hlow, hunit, Char.ofNat_toNat, Bool.false_eq_true, if_false]
  · -- ten bits in each half
    have hhigh : (UInt16.ofNat (0xD800 + (c.toNat - 0x10000) / 0x400)).toNat =
        0xD800 + (c.toNat - 0x10000) / 0x400 := UInt16.toNat_ofNat_of_lt' (by
      show _ < 65536
      omega)
    have hlow : (UInt16.ofNat (0xDC00 + (c.toNat - 0x10000) % 0x400)).toNat =
        0xDC00 + (c.toNat - 0x10000) % 0x400 := UInt16.toNat_ofNat_of_lt' (by
      show _ < 65536
      omega)
    have hisHigh : isHigh (UInt16.ofNat (0xD800 + (c.toNat - 0x10000) / 0x400)) = true := by
      rw [isHigh, hhigh, Bool.and_eq_true, decide_eq_true_eq, decide_eq_true_eq]
      omega
    have hisLow : isLow (UInt16.ofNat (0xDC00 + (c.toNat - 0x10000) % 0x400)) = true := by
      rw [isLow, hlow, Bool.and_eq_true, decide_eq_true_eq, decide_eq_true_eq]
      omega
    have hpair : charOfPair (UInt16.ofNat (0xD800 + (c.toNat - 0x10000) / 0x400))
        (UInt16.ofNat (0xDC00 + (c.toNat - 0x10000) % 0x400)) = c := by
      rw [charOfPair, hhigh, hlow, Nat.add_sub_cancel_left, Nat.add_sub_cancel_left, Nat.add_assoc,
        Nat.mul_comm, Nat.div_add_mod, Nat.add_sub_cancel' (Nat.not_lt.1 hplane), Char.ofNat_toNat]
    rw [if_neg hplane, List.cons_append, List.singleton_append, charsOf?, if_pos hisHigh,
      if_pos hisLow, hpair]

theorem charsOf?_ofChars (cs : List Char) : charsOf? (ofChars cs) = some cs := by
  induction cs with
  | nil => rfl
  | cons c cs ih =>
    rw [ofChars, List.flatMap_cons, charsOf?_ofChar_append, ← ofChars, ih]
    rfl

theorem unitsOf?_bytes (units : List UInt16) : unitsOf? (bytes units) = some units := by
  induction units with
  | nil => rfl
  | cons u us ih =>
    show (unitsOf? (bytes us)).map (halfOfBytes _ _ :: ·) = _
    rw [ih, halfOfBytes_halfBytes]
    rfl

/-- A text is read back from its bytes. -/
theorem decode?_bytes_encode (s : String) : decode? (bytes (encode s)) = some s := by
  rw [decode?, unitsOf?_bytes]
  show (charsOf? (ofChars s.toList) >>= _) = _
  rw [charsOf?_ofChars]
  exact congrArg some (String.ofList_toList)

-- the first half of a pair alone
example : decode? [0x3D, 0xD8] = none := by decide +kernel

end UsbGadget.Utf16
