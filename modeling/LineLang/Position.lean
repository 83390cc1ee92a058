import LineLang.Text.Decimal

/-!
# Positions

A position is a line and a column, both counted from 1; lines end at newlines and columns count
characters. An offset in bytes may be any number: past the end it stands for the end of the source,
and inside a character for that character's first byte.

Models `Position.locate`, `line_at` and `prefix`.

* `Position.locate`: the position of an offset.
* `Position.lineAt`: the line of the source that holds an offset.
-/

namespace LineLang

/-- A line and a column of a source, both counted from 1. -/
structure Position where
  line : Nat
  column : Nat
  deriving DecidableEq, Repr

namespace Position

/-- Positions are ordered by their lines, and on one line by their columns. -/
def compare (p q : Position) : Ordering :=
  (Ord.compare p.line q.line).then (Ord.compare p.column q.column)

/-- The written form, `line:column`. -/
def render (p : Position) : Text :=
  Text.Decimal.ofNat p.line ++ ':' :: Text.Decimal.ofNat p.column

/-- The position just after a text. -/
def after (t : Text) : Position where
  line := t.count '\n' + 1
  column := (Text.lastPiece t).length + 1

/-- The position of an offset in a source. -/
def locate (source : Text) (offset : Nat) : Position :=
  after (source.takeBytes offset)

/-- The whole line of a source that holds an offset, without its newline and the carriage returns
in front of it. -/
def lineAt (source : Text) (offset : Nat) : Text :=
  let before := source.takeBytes offset
  let line := Text.lastPiece before ++ Text.firstPiece (source.drop before.length)
  line.dropEndWhile (· == '\r')

end Position

end LineLang
