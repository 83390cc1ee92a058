import LineLang.Text.Decimal
import LineLang.Text.Lowercase

/-!
# Symbols

A symbol is a declared name with what is known of it. Names are kept in lower case, so names that
differ by case alone name one symbol, unless a word in them ends in a capital sigma and in a small
one.

Models `Symbol` and `normalize`.
-/

namespace LineLang

/-- A declared name: its lower-case form, the number of cells if it names an array, its value if it
is a constant, and the scope that stores it once it is stored. -/
structure Symbol where
  id : Text
  arraySize : Option UInt64
  value : Option UInt8
  scope : Option Nat
  deriving DecidableEq, Repr

namespace Symbol

/-- The form of a name under which it is stored and looked up. -/
def normalize (name : Text) : Text := name.lower

/-- The symbol of a name, neither an array nor a constant and not stored yet. -/
def ofName (name : Text) : Symbol := ⟨normalize name, none, none, none⟩

/-- The symbol as an array of the given number of cells. -/
def withArraySize (s : Symbol) (size : UInt64) : Symbol := { s with arraySize := some size }

/-- The symbol as a constant of the given value. -/
def withValue (s : Symbol) (value : UInt8) : Symbol := { s with value := some value }

/-- The symbol as stored in the given scope. -/
def storedIn (s : Symbol) (scope : Nat) : Symbol := { s with scope := some scope }

/-- Whether a symbol names an array. -/
def isArray (s : Symbol) : Bool := s.arraySize.isSome

/-- Whether a symbol names a constant. -/
def isConstant (s : Symbol) : Bool := s.value.isSome

/-- The written form: the name, then the size of an array in brackets, then the value of a
constant after an equals sign. -/
def render (s : Symbol) : Text :=
  s.id ++ renderSize s.arraySize ++ renderValue s.value
where
  /-- The size of an array in brackets. -/
  renderSize : Option UInt64 → Text
    | some size => '[' :: Text.Decimal.ofNat size.toNat ++ [']']
    | none => []
  /-- The value of a constant after an equals sign. -/
  renderValue : Option UInt8 → Text
    | some value => " = ".toList ++ Text.Decimal.ofNat value.toNat
    | none => []

end Symbol

end LineLang
