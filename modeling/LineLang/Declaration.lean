import LineLang.Settings
import LineLang.SymbolTable
import LineLang.Token

/-!
# Declarations

The parameters of a declaring line name variables and arrays: every identifier declares its name,
and a number in brackets directly after an identifier makes it an array of that size.

Models `declare` and `array_size`, with the messages of `SemanticError` and `ScopeError`.

* `Declaration.ofTokens`: the declarations of a row of tokens.
* `Declaration.declareAll`: adds declarations to a table until one fails.
-/

namespace LineLang

/-- A declared name and the size suffix that follows it. -/
structure Declaration where
  name : Text
  suffix : Option Text
  deriving DecidableEq, Repr

/-! ## Faults -/

/-- Why a value in a program is not acceptable. -/
inductive ValueFault where
  /-- A suffix denotes no number of 64 bits. -/
  | notASize (suffix : Text)
  /-- An array would have more or fewer cells than allowed. -/
  | sizeOutOfRange (size least most : UInt64)
  /-- Any other reason, in words. -/
  | other (reason : Text)
  deriving DecidableEq, Repr

/-- The reason of a value's fault, in words. -/
def ValueFault.reason : ValueFault → Text
  | .notASize suffix => suffix ++ " is not a valid array size".toList
  | .sizeOutOfRange size least most =>
    "array size ".toList ++ Text.Decimal.ofNat size.toNat ++ " must be between ".toList ++
      Text.Decimal.ofNat least.toNat ++ " and ".toList ++ Text.Decimal.ofNat most.toNat
  | .other reason => reason

/-- Why a declaration cannot be made. -/
inductive DeclarationFault where
  | duplicate (symbol : DuplicateSymbol)
  | value (fault : ValueFault)
  deriving DecidableEq, Repr

/-- What is said of a declaration that cannot be made. -/
def DeclarationFault.message : DeclarationFault → Text
  | .duplicate symbol => symbol.message
  | .value fault => "value error: ".toList ++ fault.reason

/-! ## Declarations of a line -/

namespace Declaration

/-- The size suffix that a row of tokens begins with. -/
def leadingSuffix? : List Token → Option Text
  | [] => none
  | t :: _ => if t.is .sizeSuffix then some t.text else none

/-- The declarations of a row of tokens, in order. Tokens that are no identifiers declare
nothing. -/
def ofTokens : List Token → List Declaration
  | [] => []
  | t :: ts =>
    if t.is .identifier then ⟨t.text, leadingSuffix? ts⟩ :: ofTokens ts else ofTokens ts

/-- The number between the brackets of a suffix, if it fits in 64 bits. -/
def sizeOfSuffix? (suffix : Text) : Option UInt64 :=
  Text.Decimal.readWord? (suffix.drop 1).dropLast

/-- The size that a suffix denotes, if the settings allow it. -/
def readSize (settings : Settings) (suffix : Text) : Except ValueFault UInt64 :=
  match sizeOfSuffix? suffix with
  | none => .error (.notASize suffix)
  | some size =>
    if settings.allows size then
      .ok size
    else
      .error (.sizeOutOfRange size settings.least settings.most)

/-- The symbol that a declaration introduces. -/
def symbol (settings : Settings) (d : Declaration) : Except ValueFault Symbol :=
  match d.suffix with
  | none => .ok (.ofName d.name)
  | some suffix =>
    match readSize settings suffix with
    | .ok size => .ok ((Symbol.ofName d.name).withArraySize size)
    | .error fault => .error fault

/-- Makes one declaration through a scope. The size is looked at before the name. -/
def declare (settings : Settings) (scope : Nat) (t : SymbolTable) (d : Declaration) :
    Except DeclarationFault SymbolTable :=
  match d.symbol settings with
  | .error fault => .error (.value fault)
  | .ok symbol =>
    match t.add scope symbol with
    | .error symbol => .error (.duplicate symbol)
    | .ok (t, _) => .ok t

/-- Makes declarations through a scope, in order, up to the first that fails: the table with those
made, and what was wrong. -/
def declareAll (settings : Settings) (scope : Nat) (t : SymbolTable) :
    List Declaration → SymbolTable × Option DeclarationFault
  | [] => (t, none)
  | d :: ds =>
    match declare settings scope t d with
    | .ok t => declareAll settings scope t ds
    | .error fault => (t, some fault)

end Declaration

end LineLang
