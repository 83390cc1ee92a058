import LineLang.Declaration

/-!
# Instructions

The closed set of instructions. Each has a keyword, a demand on its parameters, and an effect on the
scope it is applied to. Only `var` changes the table: `set` and `inc` are checked and left to later
stages.

Models `Instruction`, with `from_keyword`, `keyword`, `parameter_shape`, `validate` and `apply`.
-/

namespace LineLang

/-- An instruction of the language. -/
inductive Instruction where
  /-- Declares variables and arrays. -/
  | var
  /-- Assigns a value to a variable. -/
  | set
  /-- Increments a variable by a value. -/
  | inc
  deriving DecidableEq, Repr

namespace Instruction

/-- All instructions. -/
def registry : List Instruction := [var, set, inc]

/-- The word that calls for an instruction. -/
def keyword : Instruction → Text
  | var => "var".toList
  | set => "set".toList
  | inc => "inc".toList

/-- The instruction that a word calls for. Letter case matters. -/
def ofKeyword? (word : Text) : Option Instruction := registry.find? (·.keyword == word)

/-- The categories of the parameters, in order, where their number is fixed. -/
def shape? : Instruction → Option (List Category)
  | var => none
  | set => some [.identifier, .operand]
  | inc => some [.identifier, .operand]

/-- Whether there are as many parameters as categories, each in the category of its place. -/
def fits : List Category → List Token → Bool
  | [], [] => true
  | c :: cs, t :: ts => t.is c && fits cs ts
  | _, _ => false

/-- Whether an instruction takes these parameters: those of its shape, or any number of identifiers
and size suffixes if it has none. -/
def validates (i : Instruction) (parameters : List Token) : Bool :=
  match i.shape? with
  | some shape => fits shape parameters
  | none => parameters.all fun t => t.is .identifier || t.is .sizeSuffix

/-- Applies an instruction through a scope: the table it leaves, and the scope for what follows or
what was wrong. The declarations before a failing one stay. -/
def apply (i : Instruction) (settings : Settings) (parameters : List Token) (scope : Nat)
    (t : SymbolTable) : SymbolTable × Except DeclarationFault Nat :=
  match i with
  | var =>
    match Declaration.declareAll settings scope t (Declaration.ofTokens parameters) with
    | (t, none) => (t, .ok scope)
    | (t, some fault) => (t, .error fault)
  | set => (t, .ok scope)
  | inc => (t, .ok scope)

end Instruction

end LineLang
