import LineLang.Token

/-!
# Lines of a program

A row of tokens is read line by line. A newline token ends a line, comment tokens do not count, and
a line without any other token is no line at all.

Models `Line`, with `starting_index`, `keyword` and `parameters`, and `Lines` with `next`.

* `LineReader.next`: the next line and what is left to read.
* `Line.ofTokens`: all lines of a row of tokens.

Results:
* `LineReader.next_length_lt`: a line that was read used up a token.
-/

namespace LineLang

/-- A line: its first token, the tokens after it, and the place of the first one in the whole row of
tokens. Comments are left out. -/
structure Line where
  start : Nat
  keyword : Token
  parameters : List Token
  deriving DecidableEq, Repr

/-- A place in a row of tokens: how many are before it, and those that follow. -/
structure LineReader where
  index : Nat
  rest : List Token

namespace LineReader

/-- The tokens up to the end of the current line, comments left out, and the place after its newline
token. -/
def finishLine (index : Nat) : List Token → List Token × LineReader
  | [] => ([], ⟨index, []⟩)
  | t :: ts =>
    if t.is .newline then
      ([], ⟨index + 1, ts⟩)
    else
      let (more, after) := finishLine (index + 1) ts
      (if t.is .comment then more else t :: more, after)

/-- The next line of a row of tokens at an index, if there is one, and the place after it. -/
def nextAt (index : Nat) : List Token → Option Line × LineReader
  | [] => (none, ⟨index, []⟩)
  | t :: ts =>
    if t.is .newline || t.is .comment then
      nextAt (index + 1) ts
    else
      let (parameters, after) := finishLine (index + 1) ts
      (some ⟨index, t, parameters⟩, after)

/-- The next line, if there is one, and the place after it. -/
def next (r : LineReader) : Option Line × LineReader := nextAt r.index r.rest

theorem finishLine_length_le (index : Nat) (ts : List Token) :
    (finishLine index ts).2.rest.length ≤ ts.length := by
  induction ts generalizing index with
  | nil => simp [finishLine]
  | cons t ts ih =>
    rw [finishLine]
    split
    · simp
    · exact Nat.le_succ_of_le (ih (index + 1))

theorem nextAt_length_lt {index : Nat} {ts : List Token} {l : Line} {r : LineReader}
    (h : nextAt index ts = (some l, r)) : r.rest.length < ts.length := by
  induction ts generalizing index with
  | nil => simp [nextAt] at h
  | cons t ts ih =>
    rw [nextAt] at h
    split at h
    · exact Nat.lt_succ_of_lt (ih h)
    · obtain ⟨_, rfl⟩ : _ ∧ _ := by simpa using h
      exact Nat.lt_succ_of_le (finishLine_length_le (index + 1) ts)

/-- After a line fewer tokens are left to read. -/
theorem next_length_lt {r s : LineReader} {l : Line} (h : r.next = (some l, s)) :
    s.rest.length < r.rest.length :=
  nextAt_length_lt h

/-- All lines from a place on. -/
def lines (r : LineReader) : List Line :=
  match _h : r.next with
  | (some l, s) => l :: s.lines
  | (none, _) => []
termination_by r.rest.length
decreasing_by exact next_length_lt ‹_›

/-- The lines from a place on, by the first reading. -/
theorem lines_eq (r : LineReader) :
    r.lines = match r.next with
      | (some l, s) => l :: s.lines
      | (none, _) => [] := by
  rw [lines]
  split <;> simp_all

end LineReader

/-- All lines of a row of tokens, in order. -/
def Line.ofTokens (ts : List Token) : List Line := (LineReader.mk 0 ts).lines

end LineLang
