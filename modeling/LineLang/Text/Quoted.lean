import LineLang.Text.Visible

/-!
# Quoted texts

A quoted text stands between double quotes on one line: the quote and the backslash are escaped by
a backslash, characters that are not visible are written as escapes, and all else stands for itself.

Models the quoted path in the report of `main` on a file that it could not read.
-/

namespace LineLang.Text

/-- A number in lower-case hexadecimal without leading zeros. -/
def hexadecimal (n : Nat) : Text := Nat.toDigits 16 n

/-- The written form of one character inside quotes. -/
def escape (c : Char) : Text :=
  match c with
  | '"' => ['\\', '"']
  | '\\' => ['\\', '\\']
  | '\n' => ['\\', 'n']
  | '\r' => ['\\', 'r']
  | '\t' => ['\\', 't']
  | '\x00' => ['\\', '0']
  | c => if isVisible c then [c] else "\\u\x7b".toList ++ hexadecimal c.toNat ++ "\x7d".toList

/-- The text between double quotes. -/
def quoted (t : Text) : Text :=
  '"' :: t.flatMap escape ++ ['"']

end LineLang.Text
