import Mathlib.Data.Nat.PSub
import Mathlib.Order.Bounds.Basic
import LineLang.Proofs.Slice

/-!
# Offsets by their positions

An offset may be any number of bytes. What its position tells of it is the last boundary between
characters up to it, and that exactly: positions are in the order of these boundaries, and from a
position its boundary can be counted again. The line of an offset, too, is told by its position.

About `Position.locate`, `line_at` and `prefix`.

* `Text.floor`: the last boundary up to an offset.
* `Position.offset?`: the boundary of a position.

Results:
* `isGreatest_floor`: what the last boundary is.
* `compare_after_append`: more text is further on.
* `flatMap_take_splitOn`: a text by the lines above its end.
* `locate_orders`: positions order offsets and give them back.
* `lineAt_eq_dropEndWhile`: the line of an offset, by its number.
* `lineAt_locate`: lines and positions agree.
-/

namespace LineLang

namespace Text

/-! ## Boundaries up to an offset -/

/-- The last boundary between characters up to an offset. -/
def floor (t : Text) (n : Nat) : Nat := (takeBytes n t).byteLength

theorem byteLength_takeBytes_le (n : Nat) (t : Text) : (takeBytes n t).byteLength ≤ n := by
  induction t generalizing n with
  | nil => exact Nat.zero_le n
  | cons c t ih =>
    rw [takeBytes]
    split
    · have := ih (n - c.utf8Size)
      rw [byteLength_cons]
      omega
    · exact Nat.zero_le n

theorem byteLength_le_of_prefix {t u : Text} (h : u <+: t) : u.byteLength ≤ t.byteLength := by
  obtain ⟨v, rfl⟩ := h
  rw [byteLength_append]
  exact Nat.le_add_right _ _

/-- A first part of a text is among its first bytes if it has no more of them. -/
theorem prefix_takeBytes {t u : Text} {n : Nat} (h : u <+: t) (hn : u.byteLength ≤ n) :
    u <+: takeBytes n t := by
  obtain ⟨v, rfl⟩ := h
  obtain ⟨m, rfl⟩ := Nat.exists_eq_add_of_le hn
  rw [takeBytes_append_add]
  exact List.prefix_append u _

/-- **The last boundary up to an offset**, and up to the end of the text. -/
theorem isGreatest_floor (t : Text) (n : Nat) :
    IsGreatest {m | m ≤ min n t.byteLength ∧ ∃ u : Text, u <+: t ∧ u.byteLength = m}
      (t.floor n) := by
  have hprefix := takeBytes_prefix n t
  refine ⟨⟨?_, _, hprefix, rfl⟩, ?_⟩
  · exact Nat.le_min.2 ⟨byteLength_takeBytes_le n t, byteLength_le_of_prefix hprefix⟩
  · rintro _ ⟨hle, u, hu, rfl⟩
    exact byteLength_le_of_prefix (prefix_takeBytes hu (Nat.le_min.1 hle).1)

/-! ## The lines above the end of a text -/

theorem lastPiece_append_of_not_mem (t : Text) {u : Text} (h : '\n' ∉ u) :
    lastPiece (t ++ u) = lastPiece t ++ u := by
  have hall : ∀ c ∈ u.reverse, (c != '\n') = true := fun c hc =>
    bne_iff_ne.2 fun heq => h (heq ▸ List.mem_reverse.1 hc)
  rw [lastPiece, List.reverse_append, List.takeWhile_append_of_pos hall, List.reverse_append,
    List.reverse_reverse, lastPiece]

/-- **The lines above the end of a text**, each with its newline, and what is after them make up the
text, whatever the text goes on with. -/
theorem flatMap_take_splitOn (t u : Text) :
    (((t ++ u).splitOn '\n').take (t.count '\n')).flatMap (· ++ ['\n']) ++ lastPiece t = t := by
  induction t using newline_induction with
  | line t h =>
    rw [List.count_eq_zero_of_not_mem h, List.take_zero, List.flatMap_nil, List.nil_append,
      lastPiece_of_not_mem h]
  | newline a b ha _ ihb =>
    rw [List.append_assoc, List.cons_append, List.splitOn_append_cons_self_of_not_mem ha,
      List.count_append, List.count_eq_zero_of_not_mem ha, Nat.zero_add, List.count_cons_self,
      List.take_succ_cons, List.flatMap_cons, lastPiece_append_newline, List.append_assoc, ihb,
      List.append_assoc, List.singleton_append]

/-- What stands at the end of a text is not what was dropped there. -/
theorem eq_false_of_getLast?_dropEndWhile {p : Char → Bool} {t : Text} {c : Char}
    (h : (dropEndWhile p t).getLast? = some c) : p c = false := by
  rw [dropEndWhile, List.getLast?_reverse] at h
  have hnot := List.head?_dropWhile_not p t.reverse
  rwa [h] at hnot

end Text

namespace Position

/-! ## The order of positions -/

theorem compare_of_line_lt {p q : Position} (h : p.line < q.line) : p.compare q = .lt := by
  rw [compare, Nat.compare_eq_lt.2 h]
  rfl

theorem compare_of_column_lt {p q : Position} (hline : p.line = q.line)
    (h : p.column < q.column) : p.compare q = .lt := by
  rw [compare, Nat.compare_eq_eq.2 hline, Nat.compare_eq_lt.2 h]
  rfl

theorem compare_self (p : Position) : p.compare p = .eq := by
  rw [compare, Nat.compare_eq_eq.2 rfl, Nat.compare_eq_eq.2 rfl]
  rfl

theorem swap_compare (p q : Position) : (p.compare q).swap = q.compare p := by
  rw [compare, Ordering.swap_then, Nat.compare_swap, Nat.compare_swap, compare]

/-- **More text is further on**: on the same line, or on one further down. -/
theorem compare_after_append (t : Text) {u : Text} (hu : u ≠ []) :
    (after t).compare (after (t ++ u)) = .lt := by
  by_cases h : '\n' ∈ u
  · refine compare_of_line_lt ?_
    have := List.count_pos_iff.2 h
    simp only [after, List.count_append]
    omega
  · have hpos := List.length_pos_iff.2 hu
    refine compare_of_column_lt ?_ ?_
    · simp only [after, List.count_append, List.count_eq_zero_of_not_mem h, Nat.add_zero]
    · simp only [after, Text.lastPiece_append_of_not_mem t h, List.length_append]
      omega

theorem compare_after_of_prefix {t u : Text} (h : t <+: u) :
    (after t).compare (after u) = Ord.compare t.byteLength u.byteLength := by
  obtain ⟨v, rfl⟩ := h
  by_cases hv : v = []
  · rw [hv, List.append_nil, compare_self, Nat.compare_eq_eq.2 rfl]
  · have hpos := Text.byteLength_pos hv
    rw [compare_after_append t hv, Text.byteLength_append, Nat.compare_eq_lt.2 (by omega)]

/-- Of two first parts of one text the longer one ends further on. -/
theorem compare_after {t u v : Text} (hu : u <+: t) (hv : v <+: t) :
    (after u).compare (after v) = Ord.compare u.byteLength v.byteLength := by
  rcases List.prefix_or_prefix_of_prefix hu hv with h | h
  · exact compare_after_of_prefix h
  · rw [← swap_compare, compare_after_of_prefix h, Nat.compare_swap]

/-! ## From positions to offsets -/

/-- The offset of a position: the bytes of the lines above it, newlines included, and those of the
characters before it on its line, if there is such a line and it has so many. -/
def offset? (source : Text) (p : Position) : Option Nat := do
  let above ← p.line.ppred
  let before ← p.column.ppred
  let piece ← (source.splitOn '\n')[above]?
  if before ≤ piece.length then
    some (Text.byteLength (((source.splitOn '\n').take above).flatMap (· ++ ['\n'])) +
      Text.byteLength (piece.take before))
  else
    none

/-- The end of a first part of a text is found again from its position. -/
theorem offset?_after (t u : Text) : offset? (t ++ u) (after t) = some t.byteLength := by
  have hpiece := Text.getElem?_splitOn_count t u
  have hlines := congrArg Text.byteLength (Text.flatMap_take_splitOn t u)
  rw [Text.byteLength_append] at hlines
  have hline : (after t).line.ppred = some (t.count '\n') := rfl
  have hcolumn : (after t).column.ppred = some (Text.lastPiece t).length := rfl
  simp only [offset?, hline, hcolumn, Option.bind_eq_bind, Option.bind_some, hpiece, List.take_left,
    hlines, List.length_append, Nat.le_add_right, if_true]

/-- **Positions order offsets and give them back.** Of an offset its position keeps the last
boundary between characters up to it: two positions are in the order of these boundaries, a line
further up before one further down and on one line a smaller column before a larger one, and the
boundary is where the position says, counted over the lines above it and over the characters before
it. No cut that finds a position fails. -/
theorem locate_orders (source : Text) :
    (∀ a,
      IsGreatest {m | m ≤ min a source.byteLength ∧ ∃ u : Text, u <+: source ∧ u.byteLength = m}
        (source.floor a) ∧
      locate? source a = some (locate source a) ∧
      offset? source (locate source a) = some (source.floor a)) ∧
    ∀ a b, (locate source a).compare (locate source b) =
      Ord.compare (source.floor a) (source.floor b) := by
  refine ⟨fun a => ⟨Text.isGreatest_floor source a, locate?_eq source a, ?_⟩, fun a b => ?_⟩
  · have h := offset?_after (source.takeBytes a) (source.drop (source.takeBytes a).length)
    rwa [Text.takeBytes_append_drop] at h
  · exact compare_after (Text.takeBytes_prefix a source) (Text.takeBytes_prefix b source)

/-! ## Lines by their numbers -/

section Lines

variable (source : Text) (offset : Nat)

theorem newline_not_mem_lineAt : '\n' ∉ lineAt source offset := by
  intro hmem
  rcases List.mem_append.1 (Text.dropEndWhile_subset _ _ hmem) with hmem | hmem
  · exact Text.newline_not_mem_lastPiece _ hmem
  · exact Text.newline_not_mem_firstPiece _ hmem

/-- **The line of a position** is the piece of the source with its number. -/
theorem getElem?_splitOn_locate :
    (source.splitOn '\n')[(locate source offset).line - 1]? =
      some (Text.lastPiece (source.takeBytes offset) ++
        Text.firstPiece (source.drop (source.takeBytes offset).length)) := by
  have hpiece := Text.getElem?_splitOn_count (source.takeBytes offset)
    (source.drop (source.takeBytes offset).length)
  rwa [Text.takeBytes_append_drop] at hpiece

/-- The line of an offset, by its number. -/
theorem lineAt_eq_dropEndWhile {piece : Text}
    (h : (source.splitOn '\n')[(locate source offset).line - 1]? = some piece) :
    lineAt source offset = piece.dropEndWhile (· == '\r') := by
  rw [getElem?_splitOn_locate] at h
  rw [← Option.some.inj h]
  rfl

end Lines

/-- **Lines and positions agree.** The line of an offset is found by searching for newlines around
it, and no cut that this takes fails. It is the piece between newlines that the position of the
offset counts up to, without the carriage returns at its end, so it has no newline in it, and
offsets with the same line number have the same line. -/
theorem lineAt_locate (source : Text) :
    (∀ offset, ∃ above piece returns,
      (locate source offset).line = above + 1 ∧ (source.splitOn '\n')[above]? = some piece ∧
      lineAt? source offset = some (lineAt source offset) ∧
      piece = lineAt source offset ++ List.replicate returns '\r' ∧
      (lineAt source offset).getLast? ≠ some '\r' ∧ '\n' ∉ lineAt source offset) ∧
    ∀ a b, (locate source a).line = (locate source b).line →
      lineAt source a = lineAt source b := by
  refine ⟨fun offset => ?_, fun a b hline => ?_⟩
  · have hpiece := getElem?_splitOn_locate source offset
    have hline := lineAt_eq_dropEndWhile source offset hpiece
    obtain ⟨rs, hrs, hreturns⟩ := Text.exists_append_of_dropEndWhile (· == '\r')
      (Text.lastPiece (source.takeBytes offset) ++
        Text.firstPiece (source.drop (source.takeBytes offset).length))
    have hreplicate : rs = List.replicate rs.length '\r' :=
      List.eq_replicate_iff.2 ⟨rfl, fun c hc => beq_iff_eq.1 (hreturns c hc)⟩
    refine ⟨_, _, rs.length, rfl, hpiece, lineAt?_eq source offset, ?_, ?_,
      newline_not_mem_lineAt source offset⟩
    · rw [hline, ← hreplicate, ← hrs]
    · intro hlast
      rw [hline] at hlast
      exact absurd (Text.eq_false_of_getLast?_dropEndWhile hlast) (by decide)
  · have hpiece := getElem?_splitOn_locate source b
    rw [lineAt_eq_dropEndWhile source a (hline ▸ hpiece), lineAt_eq_dropEndWhile source b hpiece]

/-- A carriage return inside the line stays. The first offset is inside a character, and the other
one on the newline, behind the carriage returns that are dropped. -/
theorem lineAt_locate_returns :
    let source := "a\n€\rb\r\r\nc".toList
    (locate source 3).line = (locate source 9).line ∧ lineAt source 3 = lineAt source 9 ∧
      lineAt source 9 = "€\rb".toList := by
  intro source
  have hline : (locate source 3).line = (locate source 9).line := by decide +kernel
  exact ⟨hline, (lineAt_locate source).2 3 9 hline, by decide +kernel⟩

end Position

end LineLang
