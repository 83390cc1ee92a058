import LineLang.Proofs.Position

/-!
# Texts cut at offsets

A text can be cut at an offset in bytes only if a character begins there or the text ends. Here
every cut is made with this check, and a step back from the beginning of a text fails. Positions and
lines can be found in this way, by offsets alone: no check ever fails, and what is found is the
same.

About `prefix`, `Position.locate` and `line_at`, with each slice that they take.

* `Text.isBoundary`: an offset at which a text can be cut.
* `Text.slice?`: what is between two offsets, if the text can be cut at both.
* `Position.locate?`, `Position.lineAt?`: positions and lines by offsets alone.

Results:
* `slice?_eq_some_iff`: the parts of a text that can be cut out.
* `before?_eq`: what is before an offset.
* `exists_append_lastPiece`, `byteLength_firstPiece`: where lines begin and end.
* `locate?_eq`, `lineAt?_eq`: finding positions and lines never fails.
-/

namespace LineLang

namespace Text

/-! ## Boundaries -/

/-- Whether a text can be cut at an offset: a character begins there, or the text ends. -/
def isBoundary (t : Text) (n : Nat) : Bool := (takeBytes n t).byteLength == n

/-- The part of a text between two offsets, if they are in order and the text can be cut at both. -/
def slice? (t : Text) (first last : Nat) : Option Text :=
  if first ≤ last && t.isBoundary first && t.isBoundary last then
    some ((takeBytes last t).drop (takeBytes first t).length)
  else
    none

/-- The last offset up to a given one at which a text can be cut, by steps back of one byte. -/
def floorBoundary? (t : Text) : Nat → Option Nat
  | 0 => if t.isBoundary 0 then some 0 else none
  | n + 1 => if t.isBoundary (n + 1) then some (n + 1) else t.floorBoundary? n

/-- The part of a text before an offset. An offset past the end stands for the end, and one inside a
character for the beginning of this character. -/
def before? (t : Text) (offset : Nat) : Option Text := do
  let stop ← t.floorBoundary? (min offset t.byteLength)
  t.slice? 0 stop

theorem isBoundary_iff {t : Text} {n : Nat} :
    t.isBoundary n = true ↔ ∃ u v, t = u ++ v ∧ u.byteLength = n := by
  rw [isBoundary, beq_iff_eq]
  constructor
  · intro h
    exact ⟨_, _, (takeBytes_append_drop n t).symm, h⟩
  · rintro ⟨u, v, rfl, rfl⟩
    rw [takeBytes_append]

/-- **What can be cut out of a text** are its parts, each at the offsets where it begins and
ends. -/
theorem slice?_eq_some_iff {t part : Text} {first last : Nat} :
    t.slice? first last = some part ↔
      ∃ before after, t = before ++ (part ++ after) ∧ before.byteLength = first ∧
        first + part.byteLength = last := by
  rw [slice?]
  constructor
  · intro h
    split at h
    · rename_i hcut
      simp only [Bool.and_eq_true, decide_eq_true_eq] at hcut
      obtain ⟨⟨hle, hfirst⟩, hlast⟩ := hcut
      obtain ⟨u, v, hu, rfl⟩ := isBoundary_iff.1 hfirst
      obtain ⟨x, y, hx, rfl⟩ := isBoundary_iff.1 hlast
      obtain ⟨m, rfl⟩ : ∃ m, x = u ++ m := by
        rcases List.append_eq_append_iff.1 (hu.symm.trans hx) with ⟨m, rfl, -⟩ | ⟨m, rfl, -⟩
        · exact ⟨m, rfl⟩
        · cases m with
          | nil => exact ⟨[], by simp⟩
          | cons c m =>
            have := c.utf8Size_pos
            simp only [byteLength_append, byteLength_cons] at hle
            omega
      rw [hx, takeBytes_append, List.append_assoc, takeBytes_append, List.drop_left] at h
      obtain rfl := Option.some.inj h
      exact ⟨u, y, hx.trans (List.append_assoc u m y), rfl, (byteLength_append u m).symm⟩
    · cases h
  · rintro ⟨before, after, rfl, rfl, rfl⟩
    have hfirst : (before ++ (part ++ after)).isBoundary before.byteLength = true :=
      isBoundary_iff.2 ⟨before, _, rfl, rfl⟩
    have hlast :
        (before ++ (part ++ after)).isBoundary (before.byteLength + part.byteLength) = true :=
      isBoundary_iff.2 ⟨before ++ part, after, (List.append_assoc _ _ _).symm, byteLength_append _ _⟩
    rw [if_pos (by simp [hfirst, hlast]), takeBytes_append_add, takeBytes_append, takeBytes_append,
      List.drop_left]

/-- An offset at which a text cannot be cut takes no more of it than the offset before. -/
theorem takeBytes_succ {t : Text} {n : Nat} (h : t.isBoundary (n + 1) = false) :
    takeBytes (n + 1) t = takeBytes n t := by
  induction t generalizing n with
  | nil => rfl
  | cons c t ih =>
    rw [isBoundary] at h
    by_cases hle : c.utf8Size ≤ n
    · obtain ⟨m, rfl⟩ := Nat.exists_eq_add_of_le hle
      rw [Nat.add_assoc, takeBytes_cons_add, byteLength_cons] at h
      rw [Nat.add_assoc, takeBytes_cons_add, takeBytes_cons_add, ih (by simpa [isBoundary] using h)]
    · have hlt := Nat.not_le.1 hle
      rcases Nat.lt_or_eq_of_le (Nat.succ_le_of_lt hlt) with hlt' | heq
      · rw [takeBytes_cons_of_lt hlt', takeBytes_cons_of_lt hlt]
      -- a character that ends at the offset makes it a boundary
      · have hone : takeBytes (n + 1) (c :: t) = [c] := by
          have hcons := takeBytes_cons_add c t 0
          rwa [takeBytes_zero, Nat.add_zero, ← heq] at hcons
        rw [hone] at h
        simp [← heq] at h

/-- Steps back lead to the last boundary up to an offset. -/
theorem floorBoundary?_eq (t : Text) (n : Nat) :
    t.floorBoundary? n = some (takeBytes n t).byteLength := by
  induction n with
  | zero => simp [floorBoundary?, isBoundary]
  | succ n ih =>
    rw [floorBoundary?]
    cases h : t.isBoundary (n + 1) with
    | true =>
      rw [isBoundary, beq_iff_eq] at h
      rw [if_pos rfl, h]
    | false =>
      rw [if_neg Bool.false_ne_true, ih, takeBytes_succ h]

theorem takeBytes_min (t : Text) (n : Nat) : takeBytes (min n t.byteLength) t = takeBytes n t := by
  rcases Nat.le_total n t.byteLength with h | h
  · rw [Nat.min_eq_left h]
  · obtain ⟨m, rfl⟩ := Nat.exists_eq_add_of_le h
    have hall := takeBytes_append_add t [] m
    have hall' := takeBytes_append t []
    simp only [List.append_nil, takeBytes] at hall hall'
    rw [Nat.min_eq_right h, hall, hall']

/-- **What is before an offset can be cut off**, and is as much as the offset allows. -/
theorem before?_eq (t : Text) (n : Nat) : t.before? n = some (takeBytes n t) := by
  rw [before?, floorBoundary?_eq, takeBytes_min]
  exact slice?_eq_some_iff.2 ⟨[], _, (takeBytes_append_drop n t).symm, rfl, Nat.zero_add _⟩

/-! ## Newlines -/

/-- The offset of the first newline of a text. -/
def firstNewline? : Text → Option Nat
  | [] => none
  | c :: t => if c = '\n' then some 0 else (firstNewline? t).map (c.utf8Size + ·)

/-- The offset of the last newline of a text. -/
def lastNewline? : Text → Option Nat
  | [] => none
  | c :: t => ((lastNewline? t).map (c.utf8Size + ·)).or (if c = '\n' then some 0 else none)

/-- The offset at which the last line of a text begins. -/
def lineStart (t : Text) : Nat := (t.lastNewline?.map (· + 1)).getD 0

theorem lastNewline?_append (t u : Text) :
    lastNewline? (t ++ u) = ((lastNewline? u).map (t.byteLength + ·)).or (lastNewline? t) := by
  induction t with
  | nil => cases h : lastNewline? u <;> simp [h, lastNewline?]
  | cons c t ih =>
    rw [List.cons_append, lastNewline?, ih, lastNewline?]
    cases lastNewline? u with
    | none => rfl
    | some n => simp [Nat.add_assoc]

theorem lastNewline?_of_not_mem {t : Text} (h : '\n' ∉ t) : lastNewline? t = none := by
  induction t with
  | nil => rfl
  | cons c t ih =>
    rw [List.mem_cons, not_or] at h
    rw [lastNewline?, ih h.2, if_neg (Ne.symm h.1)]
    rfl

theorem lineStart_append_newline (t u : Text) :
    lineStart (t ++ '\n' :: u) = t.byteLength + 1 + lineStart u := by
  have hnewline : '\n'.utf8Size = 1 := rfl
  rw [lineStart, lastNewline?_append, lastNewline?, if_pos rfl, hnewline, lineStart]
  cases lastNewline? u with
  | none => rfl
  | some n => simp; omega

/-- **The last line of a text begins after its last newline.** -/
theorem exists_append_lastPiece (t : Text) :
    ∃ u, t = u ++ lastPiece t ∧ u.byteLength = lineStart t := by
  induction t using newline_induction with
  | line t h =>
    refine ⟨[], (lastPiece_of_not_mem h).symm, ?_⟩
    rw [lineStart, lastNewline?_of_not_mem h]
    rfl
  | newline a b _ _ ihb =>
    obtain ⟨u, hb, hu⟩ := ihb
    refine ⟨a ++ '\n' :: u, ?_, ?_⟩
    · rw [lastPiece_append_newline, List.append_assoc, List.cons_append, ← hb]
    · have hnewline : '\n'.utf8Size = 1 := rfl
      rw [lineStart_append_newline, byteLength_append, byteLength_cons, hu, hnewline, Nat.add_assoc]

/-- **The first line of a text ends at its first newline**, or where the text ends. -/
theorem byteLength_firstPiece (t : Text) :
    (firstPiece t).byteLength = (firstNewline? t).getD t.byteLength := by
  induction t with
  | nil => rfl
  | cons c t ih =>
    rw [firstNewline?]
    by_cases hc : c = '\n'
    · rw [hc, if_pos rfl]
      rfl
    · rw [if_neg hc, firstPiece_cons hc, byteLength_cons, ih]
      cases firstNewline? t <;> rfl

end Text

namespace Position

/-! ## Positions and lines -/

/-- The position of an offset, by cuts that may fail. -/
def locate? (source : Text) (offset : Nat) : Option Position := do
  let before ← source.before? offset
  let line ← before.slice? before.lineStart before.byteLength
  some ⟨before.count '\n' + 1, line.length + 1⟩

/-- The line of an offset, by cuts that may fail. -/
def lineAt? (source : Text) (offset : Nat) : Option Text := do
  let before ← source.before? offset
  let start := before.lineStart
  let rest ← source.slice? start source.byteLength
  let stop := (rest.firstNewline?.map (start + ·)).getD source.byteLength
  let line ← source.slice? start stop
  some (line.dropEndWhile (· == '\r'))

/-- **The cuts that find a position do not fail**, and the position is the one of the offset. -/
theorem locate?_eq (source : Text) (offset : Nat) :
    locate? source offset = some (locate source offset) := by
  obtain ⟨u, hu, hstart⟩ := Text.exists_append_lastPiece (source.takeBytes offset)
  have hcut : (source.takeBytes offset).slice? (source.takeBytes offset).lineStart
      (source.takeBytes offset).byteLength = some (Text.lastPiece (source.takeBytes offset)) := by
    refine Text.slice?_eq_some_iff.2 ⟨u, [], by rwa [List.append_nil], hstart, ?_⟩
    rw [← hstart, ← Text.byteLength_append, ← hu]
  rw [locate?, Text.before?_eq, Option.bind_eq_bind, Option.bind_some, hcut]
  rfl

/-- **The cuts that find a line do not fail**, and the line is the one that holds the offset. -/
theorem lineAt?_eq (source : Text) (offset : Nat) :
    lineAt? source offset = some (lineAt source offset) := by
  obtain ⟨u, hu, hstart⟩ := Text.exists_append_lastPiece (source.takeBytes offset)
  generalize hrest : source.drop (source.takeBytes offset).length = rest
  generalize hline : Text.lastPiece (source.takeBytes offset) ++ rest = line
  have hsource : source = u ++ line := by
    rw [← hline, ← List.append_assoc, ← hu, ← hrest, Text.takeBytes_append_drop]
  have htail : source.slice? u.byteLength source.byteLength = some line := by
    refine Text.slice?_eq_some_iff.2 ⟨u, [], by rwa [List.append_nil], rfl, ?_⟩
    rw [← Text.byteLength_append, ← hsource]
  have hstop : (line.firstNewline?.map (u.byteLength + ·)).getD source.byteLength =
      u.byteLength + (Text.firstPiece line).byteLength := by
    rw [Text.byteLength_firstPiece, hsource, Text.byteLength_append]
    cases line.firstNewline? <;> rfl
  have hcut : source.slice? u.byteLength (u.byteLength + (Text.firstPiece line).byteLength) =
      some (Text.firstPiece line) := by
    refine Text.slice?_eq_some_iff.2 ⟨u, line.dropWhile (· != '\n'), ?_, rfl, rfl⟩
    rw [hsource, Text.firstPiece, List.takeWhile_append_dropWhile]
  have hpiece : Text.firstPiece line =
      Text.lastPiece (source.takeBytes offset) ++ Text.firstPiece rest := by
    rw [← hline, Text.firstPiece_append (Text.newline_not_mem_lastPiece _)]
  rw [hpiece] at hstop hcut
  simp only [lineAt?, Text.before?_eq, Option.bind_eq_bind, Option.bind_some, ← hstart, htail,
    hstop, hcut, lineAt, hrest]

end Position

end LineLang
