import LineLang.Text.CaseTable

/-!
# Lower case

A text is lower-cased character by character, with one exception: a capital sigma that ends a word
becomes the final small sigma. It ends a word if a cased character stands before it and none after
it, with case-ignorable characters passed over on both sides.

Models the `to_lowercase` of `normalize`.
-/

namespace LineLang.Text

/-- Whether the first character that is not case-ignorable is cased. -/
def startsCased (t : Text) : Bool :=
  match t.dropWhile isCaseIgnorable with
  | [] => false
  | c :: _ => isCased c

/-- The small form of a character between its neighbours; `before` is the text before it, read
backwards. -/
def lowerBetween (before : Text) (c : Char) (after : Text) : Text :=
  if c = 'Σ' then
    [if startsCased before && !startsCased after then 'ς' else 'σ']
  else
    lowerChar c

/-- The lower case of a text that follows `before`, read backwards. -/
def lowerAfter (before : Text) : Text → Text
  | [] => []
  | c :: t => lowerBetween before c t ++ lowerAfter (c :: before) t

/-- The lower case of a text. -/
def lower (t : Text) : Text := lowerAfter [] t

end LineLang.Text
