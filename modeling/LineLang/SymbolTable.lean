import LineLang.Symbol

/-!
# Symbol tables

A table holds a tree of scopes, numbered in the order of their creation. Scope 0 is the root, and
every other scope has a parent among the older scopes. A name is visible from a scope if that scope
or one of its ancestors stores it, and a name that is visible from a scope cannot be added through
it. A table that collapses stores whatever is added through any scope in the root.

Models `SymbolTable`, with `new_scope`, `parent`, `effective_scope`, `add_symbol`, `find`,
`find_global`, `symbols`, `len` and `is_empty`.

* `SymbolTable.chain`: a scope and its ancestors, nearest first.
* `SymbolTable.find?`: the symbol a name stands for in a scope.
* `SymbolTable.add`: declares a symbol through a scope.
-/

namespace LineLang

/-! ## Scopes -/

/-- A namespace: its symbols under their names, in the order of declaration, and its parent. -/
structure Scope where
  parent : Option Nat
  entries : List (Text × Symbol)
  deriving DecidableEq, Repr

namespace Scope

/-- The scope with nothing in it. -/
def empty (parent : Option Nat) : Scope := ⟨parent, []⟩

/-- The symbol stored under a key. -/
def get? (s : Scope) (key : Text) : Option Symbol := s.entries.lookup key

/-- Entries with a symbol under a key: in the place of the symbol that had this key, or else at the
end. -/
def putEntry (key : Text) (symbol : Symbol) : List (Text × Symbol) → List (Text × Symbol)
  | [] => [(key, symbol)]
  | (k, old) :: entries =>
    if k = key then (key, symbol) :: entries else (k, old) :: putEntry key symbol entries

/-- The scope with a symbol stored under its name. -/
def put (s : Scope) (symbol : Symbol) : Scope :=
  { s with entries := putEntry symbol.id symbol s.entries }

/-- The stored symbols, in the order of declaration. -/
def symbols (s : Scope) : List Symbol := s.entries.map Prod.snd

end Scope

/-! ## Tables -/

/-- A tree of scopes, and whether all declarations go to its root. -/
structure SymbolTable where
  collapses : Bool
  scopes : List Scope
  deriving DecidableEq, Repr

/-- A name was added where it is visible already. -/
structure DuplicateSymbol where
  id : Text
  deriving DecidableEq, Repr

namespace DuplicateSymbol

/-- What is said of a name that is visible already. -/
def message (d : DuplicateSymbol) : Text := "symbol already defined: ".toList ++ d.id

end DuplicateSymbol

namespace SymbolTable

/-- The number of the root. -/
def root : Nat := 0

/-- The table that holds an empty root and nothing else. -/
def new (collapses : Bool) : SymbolTable := ⟨collapses, [.empty none]⟩

/-- Whether a table has a scope of this number. -/
def hasScope (t : SymbolTable) (s : Nat) : Bool := decide (s < t.scopes.length)

/-- The parent of a scope; the root has none. -/
def parent? (t : SymbolTable) (s : Nat) : Option Nat := t.scopes[s]?.bind (·.parent)

/-- The table with one more scope, empty and a child of `parent`, and the number of that scope. -/
def newScope (t : SymbolTable) (parent : Nat) : SymbolTable × Nat :=
  ({ t with scopes := t.scopes ++ [.empty (some parent)] }, t.scopes.length)

/-- The scope that stores what is added through a scope. -/
def effectiveScope (t : SymbolTable) (s : Nat) : Nat := if t.collapses then root else s

/-- A scope and its ancestors, nearest first. Parents are older than their children, so the walk
goes down the numbers and ends. -/
def chain (t : SymbolTable) (s : Nat) : List Nat :=
  match t.parent? s with
  | some p => if p < s then s :: t.chain p else [s]
  | none => [s]
termination_by s

/-- The symbol stored in a scope itself under a key. -/
def stored? (t : SymbolTable) (s : Nat) (key : Text) : Option Symbol :=
  t.scopes[s]?.bind (·.get? key)

/-- The symbol that a name stands for in a scope: the one stored nearest along its chain. -/
def find? (t : SymbolTable) (s : Nat) (name : Text) : Option Symbol :=
  (t.chain s).findSome? (t.stored? · (Symbol.normalize name))

/-- The symbol that a name stands for in the root. -/
def findGlobal? (t : SymbolTable) (name : Text) : Option Symbol := t.find? root name

/-- Declares a symbol through a scope: the new table and the scope that stores the symbol. A symbol
whose name is visible from the scope is refused. -/
def add (t : SymbolTable) (s : Nat) (symbol : Symbol) :
    Except DuplicateSymbol (SymbolTable × Nat) :=
  match t.find? s symbol.id with
  | some _ => .error ⟨symbol.id⟩
  | none =>
    let target := t.effectiveScope s
    .ok ({ t with scopes := t.scopes.modify target (·.put (symbol.storedIn target)) }, target)

/-! ## Views -/

/-- The symbols stored in a scope itself, in the order of declaration. -/
def symbols (t : SymbolTable) (s : Nat) : List Symbol :=
  match t.scopes[s]? with
  | some scope => scope.symbols
  | none => []

/-- The number of symbols in all scopes together. -/
def size (t : SymbolTable) : Nat := (t.scopes.flatMap Scope.entries).length

/-- Whether no scope stores a symbol. -/
def isEmpty (t : SymbolTable) : Bool := t.size == 0

/-- The written form: the symbols of the root, separated by commas. -/
def render (t : SymbolTable) : Text :=
  Text.join ", ".toList ((t.symbols root).map Symbol.render)

end SymbolTable

end LineLang
