import LineLang.Instruction
import LineLang.Line
import LineLang.Token.Cursor

/-!
# Programs

A program is a source of lines, each an instruction with its parameters. Parsing runs through the
lines, and gives the symbol table or the first fault with the place of its line.

Models `Parser.parse`, `ParseError` and `ParseErrorKind`.

* `Program.step`: one line.
* `Program.parse`: a whole source.
-/

namespace LineLang

/-- What can be wrong with a line. -/
inductive ProgramFault where
  | invalidSyntax
  | declaration (fault : DeclarationFault)
  deriving DecidableEq, Repr

/-- What is said of a faulty line. -/
def ProgramFault.message : ProgramFault → Text
  | .invalidSyntax => "invalid syntax".toList
  | .declaration fault => fault.message

/-- A fault of a program and the place of its line: the index of the line's first token and that
token's offset. -/
structure ProgramError where
  fault : ProgramFault
  start : Nat
  offset : Nat
  deriving DecidableEq, Repr

namespace Program

/-- What parsing carries from line to line: the table so far, and the scope for the next line. -/
structure State where
  table : SymbolTable
  scope : Nat

/-- The state before the first line. -/
def State.initial (settings : Settings) : State :=
  ⟨.new settings.collapses, SymbolTable.root⟩

/-- The instruction of a line, if its keyword calls for one that takes its parameters. -/
def instruction? (l : Line) : Option Instruction :=
  (Instruction.ofKeyword? l.keyword.text).filter (·.validates l.parameters)

/-- Carries out one line. -/
def step (settings : Settings) (s : State) (l : Line) : Except ProgramError State :=
  match instruction? l with
  | none => .error ⟨.invalidSyntax, l.start, l.keyword.offset⟩
  | some i =>
    match i.apply settings l.parameters s.scope s.table with
    | (t, .ok scope) => .ok ⟨t, scope⟩
    | (_, .error fault) => .error ⟨.declaration fault, l.start, l.keyword.offset⟩

/-- Carries out lines in order, up to the first with a fault. -/
def run (settings : Settings) (s : State) : List Line → Except ProgramError State
  | [] => .ok s
  | l :: ls =>
    match step settings s l with
    | .ok s => run settings s ls
    | .error e => .error e

/-- Parses a source: its symbol table, or the first fault. -/
def parse (settings : Settings) (source : Text) : Except ProgramError SymbolTable :=
  match run settings (.initial settings) (Line.ofTokens (Token.scan source)) with
  | .ok s => .ok s.table
  | .error e => .error e

end Program

end LineLang
