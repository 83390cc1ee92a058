import LineLang.Token

/-!
# Scanning a source for tokens

A cursor stands at a place of a source and reads one token at a time. At each place the categories
are tried in a fixed order, and the first that takes something gives the token; a character at which
none does is passed over.

Models `Lexer` with `next`, the order `SCAN_ORDER`, and `lexer`.

* `Cursor.next?`: the next token and the place after it.
* `Cursor.tokens`: all tokens from a place on.
* `Token.scan`: all tokens of a source.

Results:
* `Cursor.next?_length_lt`: reading a token gets closer to the end.
* `Cursor.tokens_nil`, `Cursor.tokens_cons`: the tokens of a text, by its first character.
-/

namespace LineLang

namespace Category

/-- The order in which categories are tried while scanning: comments first, so that nothing inside
them is read, and identifiers before words, so that a name is not cut at its first digit. -/
def scanOrder : List Category := [comment, identifier, sizeSuffix, operand, newline, word]

/-- Splits a text after what the first category in scanning order takes. -/
def munchFirst? (t : Text) : Option (Text × Text) := scanOrder.findSome? (·.munch? t)

theorem munchFirst?_append_and_ne_nil {t taken after : Text}
    (h : munchFirst? t = some (taken, after)) : taken ++ after = t ∧ taken ≠ [] := by
  obtain ⟨c, _, h⟩ := List.exists_of_findSome?_eq_some h
  exact munch?_append_and_ne_nil h

theorem munchFirst?_length_lt {t taken after : Text}
    (h : munchFirst? t = some (taken, after)) : after.length < t.length := by
  obtain ⟨rfl, hne⟩ := munchFirst?_append_and_ne_nil h
  have := List.length_pos_iff.2 hne
  simp only [List.length_append]
  omega

end Category

/-- A place in a source: the bytes before it and the text after it. -/
structure Cursor where
  offset : Nat
  rest : Text

namespace Cursor

/-- The place before the first character of a source. -/
def start (source : Text) : Cursor := ⟨0, source⟩

/-- Whether a place is a place of the given source. -/
def isIn (k : Cursor) (source : Text) : Bool := source.takeBytes k.offset ++ k.rest == source

/-- The next token of a text at an offset, and the place after it. -/
def nextAt? (offset : Nat) : Text → Option (Token × Cursor)
  | [] => none
  | c :: t =>
    match Category.munchFirst? (c :: t) with
    | some (taken, rest) => some (⟨taken, offset⟩, ⟨offset + taken.byteLength, rest⟩)
    | none => nextAt? (offset + c.utf8Size) t

/-- The next token and the place after it, or nothing if no token follows. -/
def next? (k : Cursor) : Option (Token × Cursor) := nextAt? k.offset k.rest

theorem nextAt?_length_lt {offset : Nat} {t : Text} {token : Token} {k : Cursor}
    (h : nextAt? offset t = some (token, k)) : k.rest.length < t.length := by
  induction t generalizing offset with
  | nil => simp [nextAt?] at h
  | cons c t ih =>
    rw [nextAt?] at h
    split at h
    · rename_i hm
      obtain ⟨rfl, rfl⟩ : _ ∧ _ := by simpa using h
      exact Category.munchFirst?_length_lt hm
    · exact Nat.lt_succ_of_lt (ih h)

/-- After a token less is left to read. -/
theorem next?_length_lt {k l : Cursor} {token : Token} (h : k.next? = some (token, l)) :
    l.rest.length < k.rest.length :=
  nextAt?_length_lt h

/-- All tokens from a place on. -/
def tokens (k : Cursor) : List Token :=
  match _h : k.next? with
  | some (token, l) => token :: l.tokens
  | none => []
termination_by k.rest.length
decreasing_by exact next?_length_lt ‹_›

/-- The first `n` attempts to read a token, and the place after them. A place with no token after it
is not left. -/
def read : Nat → Cursor → List (Option Token) × Cursor
  | 0, k => ([], k)
  | n + 1, k =>
    match k.next? with
    | some (token, l) => let (more, last) := read n l; (some token :: more, last)
    | none => let (more, last) := read n k; (none :: more, last)

/-! ## The tokens of a text -/

theorem tokens_nil (offset : Nat) : tokens ⟨offset, []⟩ = [] := by
  rw [tokens]
  rfl

theorem tokens_eq (k : Cursor) :
    k.tokens = match k.next? with
      | some (token, l) => token :: l.tokens
      | none => [] := by
  rw [tokens]
  split <;> simp_all

/-- A text that begins with something a category takes begins with that token; the first character
of any other text is passed over. -/
theorem tokens_cons (offset : Nat) (c : Char) (t : Text) :
    tokens ⟨offset, c :: t⟩ =
      match Category.munchFirst? (c :: t) with
      | some (taken, rest) => ⟨taken, offset⟩ :: tokens ⟨offset + taken.byteLength, rest⟩
      | none => tokens ⟨offset + c.utf8Size, t⟩ := by
  rw [tokens_eq, next?, nextAt?]
  cases Category.munchFirst? (c :: t) with
  | some found => rfl
  | none => exact (tokens_eq ⟨offset + c.utf8Size, t⟩).symm

end Cursor

/-- All tokens of a source, in order. -/
def Token.scan (source : Text) : List Token := (Cursor.start source).tokens

end LineLang
