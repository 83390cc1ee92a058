/-!
# Texts

A text is the list of its characters. Lengths and offsets are counted in the bytes of the UTF-8
encoding, so a cut at a byte count is made at a character boundary.

Models the texts that sources, identifiers and paths are, with the byte offsets of `Spanned` and the
cut that `prefix` makes.

Results:
* `takeBytes_append_drop`: a cut text is a first part of the text it was cut from.
* `byteLength_append`, `byteLength_pos`: byte lengths add up, and characters have bytes.
* `newline_induction`: induction on the newlines of a text.
-/

namespace LineLang

/-- A text: its characters in reading order. -/
abbrev Text := List Char

namespace Text

/-! ## Bytes -/

/-- The number of bytes of a text in UTF-8. -/
def byteLength : Text → Nat
  | [] => 0
  | c :: t => c.utf8Size + byteLength t

@[simp] theorem byteLength_nil : byteLength [] = 0 := rfl

@[simp] theorem byteLength_cons (c : Char) (t : Text) :
    byteLength (c :: t) = c.utf8Size + byteLength t := rfl

@[simp] theorem byteLength_append (t u : Text) :
    byteLength (t ++ u) = byteLength t + byteLength u := by
  induction t with
  | nil => simp
  | cons c t ih => simp [ih, Nat.add_assoc]

theorem byteLength_pos {t : Text} (h : t ≠ []) : 0 < byteLength t := by
  obtain ⟨c, u, rfl⟩ := List.exists_cons_of_ne_nil h
  have := c.utf8Size_pos
  rw [byteLength_cons]
  omega

/-- The longest first part of a text that has at most `bytes` bytes. A count past the end gives
the whole text, and one inside a character stops before that character. -/
def takeBytes : Nat → Text → Text
  | _, [] => []
  | bytes, c :: t => if c.utf8Size ≤ bytes then c :: takeBytes (bytes - c.utf8Size) t else []

theorem takeBytes_append_drop (bytes : Nat) (t : Text) :
    takeBytes bytes t ++ t.drop (takeBytes bytes t).length = t := by
  induction t generalizing bytes with
  | nil => rfl
  | cons c t ih =>
    rw [takeBytes]
    split
    · simp [ih]
    · rfl

/-! ## Newlines -/

/-- **Induction on the newlines of a text**: a text has none, or it is a text without any, a newline
and another text. -/
theorem newline_induction {P : Text → Prop} (line : ∀ t : Text, '\n' ∉ t → P t)
    (newline : ∀ a b : Text, '\n' ∉ a → P a → P b → P (a ++ '\n' :: b)) (t : Text) : P t := by
  induction hn : t.length using Nat.strongRecOn generalizing t with
  | ind n ih =>
    subst hn
    by_cases h : '\n' ∈ t
    · obtain ⟨a, b, rfl, ha⟩ := List.eq_append_cons_of_mem h
      exact newline a b ha (line a ha) (ih b.length (by simp; omega) b rfl)
    · exact line t h

/-! ## Ends of texts -/

/-- The text without the characters at its end that satisfy `p`. -/
def dropEndWhile (p : Char → Bool) (t : Text) : Text :=
  (t.reverse.dropWhile p).reverse

/-- The part of a text after its last newline, or all of it if there is none. -/
def lastPiece (t : Text) : Text :=
  (t.reverse.takeWhile (· != '\n')).reverse

/-- The part of a text before its first newline, or all of it if there is none. -/
def firstPiece (t : Text) : Text :=
  t.takeWhile (· != '\n')

/-- The part of a text before its first `separator`, and the parts between and after the
separators. -/
def cut (separator : Char) : Text → Text × List Text
  | [] => ([], [])
  | c :: t =>
    let (part, parts) := cut separator t
    if c = separator then ([], part :: parts) else (c :: part, parts)

/-- All parts of a text between separators. There is one part more than there are separators. -/
def pieces (separator : Char) (t : Text) : List Text :=
  (cut separator t).1 :: (cut separator t).2

/-- The parts one after another, with `separator` between neighbours. -/
def join (separator : Text) (parts : List Text) : Text :=
  separator.intercalate parts

theorem join_singleton (separator p : Text) : join separator [p] = p := List.intercalate_singleton

theorem join_cons_cons (separator p q : Text) (parts : List Text) :
    join separator (p :: q :: parts) = p ++ (separator ++ join separator (q :: parts)) := by
  rw [join, List.intercalate_cons_cons, List.append_assoc]
  rfl

end Text

end LineLang
