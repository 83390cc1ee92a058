import LineLang.Category
import LineLang.Position
import LineLang.Text.Quoted

/-!
# Tokens

A token is a piece of a source with the byte offset where it starts. It carries no category: its
text may belong to several.

Models `Token`, with `text`, `is` and `position`, and the `offset`, `len` and `end` of `Spanned`.
-/

namespace LineLang

/-- A piece of a source and the offset of its first byte. -/
structure Token where
  text : Text
  offset : Nat
  deriving DecidableEq, Repr

namespace Token

/-- The number of bytes of a token. -/
def length (t : Token) : Nat := t.text.byteLength

/-- The offset just past the last byte of a token. -/
def stop (t : Token) : Nat := t.offset + t.length

/-- Whether a token covers nothing. -/
def isEmpty (t : Token) : Bool := t.length == 0

/-- Whether the text of a token belongs to a category. -/
def is (t : Token) (c : Category) : Bool := c.accepts t.text

/-- Where a token of a source starts. -/
def position (t : Token) (source : Text) : Position := Position.locate source t.offset

/-- A token as it is shown to developers: its text in quotes and its offset. -/
def describe (t : Token) : Text :=
  t.text.quoted ++ '@' :: Text.Decimal.ofNat t.offset

/-- The tokens of a row of texts that stand one after another from an offset on. -/
def placed (offset : Nat) : List Text → List Token
  | [] => []
  | t :: ts => ⟨t, offset⟩ :: placed (offset + t.byteLength) ts

end Token

end LineLang
