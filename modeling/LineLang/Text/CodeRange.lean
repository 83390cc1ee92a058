import LineLang.Text

/-!
# Ranges of characters

A property of characters is given as a list of closed ranges of code points.

The tables behind `normalize`, and behind blanks and quoted paths in a report, are of this kind.
-/

namespace LineLang.Text

/-- The characters from code point `first` to code point `last`, both included. -/
structure CodeRange where
  first : Nat
  last : Nat

namespace CodeRange

/-- Whether a character lies in the range. -/
def contains (r : CodeRange) (c : Char) : Bool :=
  decide (r.first ≤ c.toNat) && decide (c.toNat ≤ r.last)

/-- Whether a character lies in one of the ranges. -/
def anyContains (rs : List CodeRange) (c : Char) : Bool :=
  rs.any (·.contains c)

end CodeRange

end LineLang.Text
