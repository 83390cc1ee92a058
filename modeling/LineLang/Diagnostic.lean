import LineLang.Program
import LineLang.Text.Blank

/-!
# Diagnostics

The report of a program's error for a reader: what is wrong, where, and the line itself with a caret
under the place.

Models `ParseError.render` and `Diagnostic`.
-/

namespace LineLang.ProgramError

/-- The place of an error: the file if it is known, then line and column. -/
def renderPlace (path : Option Text) (p : Position) : Text :=
  match path with
  | some path => path ++ ':' :: p.render
  | none => p.render

/-- The report of an error in a source. The caret stands as many columns after the bar as the place
has characters before it on its line. -/
def render (e : ProgramError) (source : Text) (path : Option Text) : Text :=
  let p := Position.locate source e.offset
  let number := Text.Decimal.ofNat p.line
  let line := Text.trimEnd (Position.lineAt source e.offset)
  e.fault.message ++ '\n' ::
    "  -> ".toList ++ renderPlace path p ++ '\n' ::
    number ++ " | ".toList ++ line ++ '\n' ::
    List.replicate (number.length + 3) ' ' ++ List.replicate (p.column - 1) ' ' ++ "^\n".toList

end LineLang.ProgramError
