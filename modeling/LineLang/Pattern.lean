import LineLang.Text

/-!
# Patterns

A pattern describes a set of texts by characters, classes of characters, sequence, choice and
repetition. It has a written form and a meaning.

Models the regular expressions that `Lexeme.pattern` gives.

* `Pattern.render`: the written form, with grouping only where it is needed.
* `Pattern.Accepts`: the texts that a pattern denotes as a whole.
-/

namespace LineLang

/-! ## Classes of characters -/

/-- An entry of a class of characters. -/
inductive ClassItem where
  | single (c : Char)
  | range (first last : Char)
  deriving DecidableEq

/-- Whether an entry names a character. -/
def ClassItem.contains : ClassItem → Char → Bool
  | .single d, c => c == d
  | .range first last, c => decide (first ≤ c) && decide (c ≤ last)

/-- A class of characters: those that an entry names, or those that none names. -/
structure CharClass where
  complement : Bool
  items : List ClassItem
  deriving DecidableEq

namespace CharClass

/-- Whether a character belongs to the class. -/
def contains (s : CharClass) (c : Char) : Bool :=
  s.items.any (·.contains c) != s.complement

/-- The ASCII letters. -/
def letter : CharClass := ⟨false, [.range 'a' 'z', .range 'A' 'Z']⟩

/-- The ASCII digits. -/
def digit : CharClass := ⟨false, [.range '0' '9']⟩

/-- The characters an identifier may begin with. -/
def identifierStart : CharClass :=
  ⟨false, [.single '$', .single '_', .range 'a' 'z', .range 'A' 'Z']⟩

/-- The characters an identifier may go on with. -/
def identifierRest : CharClass :=
  ⟨false, [.single '$', .single '_', .range 'a' 'z', .range 'A' 'Z', .range '0' '9']⟩

/-- All characters but the newline. -/
def inLine : CharClass := ⟨true, [.single '\n']⟩

end CharClass

/-! ## Patterns and their written form -/

/-- A pattern for texts. -/
inductive Pattern where
  | char (c : Char)
  | oneOf (s : CharClass)
  | seq (p q : Pattern)
  | either (p q : Pattern)
  | many (p : Pattern)
  | many1 (p : Pattern)
  deriving DecidableEq

/-- The written form of a character: brackets are escaped and the newline is named. -/
def Pattern.renderChar : Char → Text
  | '[' => ['\\', '[']
  | ']' => ['\\', ']']
  | '\n' => ['\\', 'n']
  | c => [c]

/-- The written form of an entry of a class. -/
def ClassItem.render : ClassItem → Text
  | .single c => Pattern.renderChar c
  | .range first last => Pattern.renderChar first ++ '-' :: Pattern.renderChar last

/-- The written form of a class. -/
def CharClass.render (s : CharClass) : Text :=
  '[' :: (if s.complement then ['^'] else []) ++ s.items.flatMap ClassItem.render ++ [']']

namespace Pattern

/-- How tightly a pattern's outermost operator binds: choice 0, sequence 1, the rest 2. -/
def strength : Pattern → Nat
  | .either _ _ => 0
  | .seq _ _ => 1
  | _ => 2

/-- A written pattern, grouped if it binds less tightly than its place demands. -/
def grouped (demand strength : Nat) (written : Text) : Text :=
  if strength < demand then "(?:".toList ++ written ++ [')'] else written

/-- The written form of a pattern. -/
def render : Pattern → Text
  | .char c => renderChar c
  | .oneOf s => s.render
  | .seq p q => grouped 1 p.strength p.render ++ grouped 1 q.strength q.render
  | .either p q => p.render ++ '|' :: q.render
  | .many p => grouped 2 p.strength p.render ++ ['*']
  | .many1 p => grouped 2 p.strength p.render ++ ['+']

/-! ## Meaning -/

/-- The whole of a text is one that the pattern denotes. -/
inductive Accepts : Pattern → Text → Prop
  | char (c : Char) : Accepts (.char c) [c]
  | oneOf {s : CharClass} {c : Char} : s.contains c = true → Accepts (.oneOf s) [c]
  | seq {p q : Pattern} {t u : Text} : Accepts p t → Accepts q u → Accepts (.seq p q) (t ++ u)
  | left {p q : Pattern} {t : Text} : Accepts p t → Accepts (.either p q) t
  | right {p q : Pattern} {t : Text} : Accepts q t → Accepts (.either p q) t
  | manyNil {p : Pattern} : Accepts (.many p) []
  | manyCons {p : Pattern} {t u : Text} :
      Accepts p t → Accepts (.many p) u → Accepts (.many p) (t ++ u)
  | many1 {p : Pattern} {t u : Text} :
      Accepts p t → Accepts (.many p) u → Accepts (.many1 p) (t ++ u)

end Pattern

end LineLang
