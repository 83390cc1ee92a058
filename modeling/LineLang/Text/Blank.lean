import LineLang.Text.CodeRange

/-!
# Blanks

Blanks are the characters with the property `White_Space`: a superset of the ASCII blanks that
also holds the next-line character, the no-break space and the typographic spaces.

Models the `trim_end` that `Diagnostic` puts a line through.
-/

namespace LineLang.Text

/-- The ranges of the property `White_Space`. -/
def blanks : List CodeRange :=
  [⟨0x9, 0xd⟩, ⟨0x20, 0x20⟩, ⟨0x85, 0x85⟩, ⟨0xa0, 0xa0⟩, ⟨0x1680, 0x1680⟩, ⟨0x2000, 0x200a⟩,
    ⟨0x2028, 0x2029⟩, ⟨0x202f, 0x202f⟩, ⟨0x205f, 0x205f⟩, ⟨0x3000, 0x3000⟩]

/-- Whether a character is a blank. -/
def isBlank (c : Char) : Bool := CodeRange.anyContains blanks c

/-- The text without the blanks at its end. -/
def trimEnd (t : Text) : Text := t.dropEndWhile isBlank

end LineLang.Text
