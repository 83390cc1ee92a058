import LineLang.Text

/-!
# Decimal numbers

Numbers are printed without leading zeros. Reading takes any number of leading zeros and one
leading `+`, and accepts exactly the values that fit in 64 bits.

Models the numbers that `array_size` and `Args` read, and those that messages print.
-/

namespace LineLang.Text.Decimal

/-- The character of a digit below ten. -/
def digit (d : Nat) : Char := Char.ofNat ('0'.toNat + d)

/-- The decimal text of a number. -/
def ofNat (n : Nat) : Text :=
  if n < 10 then [digit n] else ofNat (n / 10) ++ [digit (n % 10)]
termination_by n
decreasing_by omega

/-- The number that a row of digits denotes, however long it is. -/
def value (digits : Text) : Nat :=
  digits.foldl (fun n c => 10 * n + (c.toNat - '0'.toNat)) 0

/-- A text without one leading `+`. -/
def dropSign : Text → Text
  | '+' :: t => t
  | t => t

/-- Reads a number of 64 bits: digits and nothing else, after at most one `+`. -/
def readWord? (t : Text) : Option UInt64 :=
  let digits := dropSign t
  if !digits.isEmpty && digits.all Char.isDigit && value digits < UInt64.size then
    some (UInt64.ofNat (value digits))
  else
    none

end LineLang.Text.Decimal
