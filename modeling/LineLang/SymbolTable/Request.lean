import LineLang.Instruction

/-!
# Requests to a table

What may be asked of a symbol table, one request at a time: to grow, to declare, to apply an
instruction, to look something up. A request names the scope that it goes through, and one that
names a scope the table does not have is refused. A refused request leaves the table as it is,
except that the declarations an instruction made before its fault stay.

Models calls of `new_scope`, `add_symbol`, `Instruction.apply`, `find` and the like, in any order.

* `SymbolTable.perform`: one request.
* `SymbolTable.performAll`: a run of requests.
-/

namespace LineLang

/-- A request to a table. -/
inductive Request where
  /-- Make a child of a scope. -/
  | newScope (parent : Nat)
  /-- Declare a symbol through a scope. -/
  | add (scope : Nat) (symbol : Symbol)
  /-- Apply an instruction to parameters through a scope, without validating them. -/
  | apply (scope : Nat) (settings : Settings) (instruction : Instruction)
      (parameters : List Token)
  /-- Tell the parent of a scope. -/
  | parent (scope : Nat)
  /-- Tell the scope that stores what is added through a scope. -/
  | effective (scope : Nat)
  /-- Look a name up from a scope. -/
  | find (scope : Nat) (name : Text)
  /-- Look a name up from the root. -/
  | findGlobal (name : Text)
  /-- List the symbols stored in a scope itself. -/
  | symbols (scope : Nat)
  /-- Count all symbols. -/
  | count
  /-- Write the symbols of the root. -/
  | render
  /-- Show the whole table. -/
  | snapshot

/-- The scope that a request goes through: the root where it names none. -/
def Request.scope : Request → Nat
  | .newScope s | .add s _ | .apply s _ _ _ | .parent s | .effective s | .find s _ | .symbols s => s
  | .findGlobal _ | .count | .render | .snapshot => SymbolTable.root

/-- Why a request is refused. -/
inductive RequestFault where
  | noSuchScope
  | declaration (fault : DeclarationFault)
  deriving DecidableEq, Repr

/-- What is said of a refused request. -/
def RequestFault.message : RequestFault → Text
  | .noSuchScope => "no such scope".toList
  | .declaration fault => fault.message

/-- The answer to a request. -/
inductive Answer where
  | scope (number : Nat)
  | scope? (number : Option Nat)
  | symbol? (symbol : Option Symbol)
  | symbols (symbols : List Symbol)
  | count (size : Nat) (isEmpty : Bool)
  | text (text : Text)
  | table (table : SymbolTable)
  | refused (fault : RequestFault)
  deriving DecidableEq

namespace SymbolTable

/-- Declares a symbol on request. -/
def performAdd (t : SymbolTable) (s : Nat) (symbol : Symbol) : SymbolTable × Answer :=
  match t.add s symbol with
  | .ok (t, target) => (t, .scope target)
  | .error symbol => (t, .refused (.declaration (.duplicate symbol)))

/-- Applies an instruction on request. -/
def performApply (t : SymbolTable) (s : Nat) (settings : Settings) (i : Instruction)
    (parameters : List Token) : SymbolTable × Answer :=
  match i.apply settings parameters s t with
  | (t, .ok scope) => (t, .scope scope)
  | (t, .error fault) => (t, .refused (.declaration fault))

/-- Carries out a request whose scope exists. -/
def performHere (t : SymbolTable) : Request → SymbolTable × Answer
  | .newScope s => let (t, number) := t.newScope s; (t, .scope number)
  | .add s symbol => t.performAdd s symbol
  | .apply s settings i parameters => t.performApply s settings i parameters
  | .parent s => (t, .scope? (t.parent? s))
  | .effective s => (t, .scope (t.effectiveScope s))
  | .find s name => (t, .symbol? (t.find? s name))
  | .findGlobal name => (t, .symbol? (t.findGlobal? name))
  | .symbols s => (t, .symbols (t.symbols s))
  | .count => (t, .count t.size t.isEmpty)
  | .render => (t, .text t.render)
  | .snapshot => (t, .table t)

/-- Carries out a request: the table it leaves, and the answer. -/
def perform (t : SymbolTable) (r : Request) : SymbolTable × Answer :=
  if t.hasScope r.scope then t.performHere r else (t, .refused .noSuchScope)

/-- Carries out requests in order: the table they leave, and the answers. -/
def performAll (t : SymbolTable) : List Request → SymbolTable × List Answer
  | [] => (t, [])
  | r :: rs =>
    let (t, answer) := t.perform r
    let (t, answers) := t.performAll rs
    (t, answer :: answers)

end SymbolTable

end LineLang
