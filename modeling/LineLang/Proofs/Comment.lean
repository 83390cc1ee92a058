import LineLang.Proofs.Counterpart
import LineLang.Proofs.LineEnd
import LineLang.Proofs.Linking
import LineLang.Proofs.Position

/-!
# Comments are inert

A comment may be put at the end of any line of a source, whatever the line ends in. It may join what
is before it: go on with a comment, or make a marker together with a lone `/` or `-`. In all cases
the line stays what it is, and all lines stay at their positions.

About `lexer`, `Lines` and `Parser.parse`.

* `outcome`: what a reader is told of a source, with the position of an error in place of its
  offset.
* `placedLines`: the lines of a source, each with the position of its first token.

Results:
* `outcome_congr`: what a reader is told depends on the placed lines alone.
* `placedLines_append_newline`: the placed lines of two sources with a newline between them.
* `placedLines_append_comment`: a comment at the end of a line.
* `outcome_append_comment`: a comment at the end of a line of a source.
-/

namespace LineLang

namespace Cursor

open Category (markers)

theorem newline_not_mem_comment {marker rest : Text} (hm : marker ∈ markers) (hrest : '\n' ∉ rest) :
    '\n' ∉ marker ++ rest := by
  have hmarkers : ∀ m ∈ markers, '\n' ∉ m := by decide
  rw [List.mem_append, not_or]
  exact ⟨hmarkers marker hm, hrest⟩

/-- A comment is read as one token. -/
theorem tokens_comment {marker rest : Text} (hm : marker ∈ markers) (hrest : '\n' ∉ rest) (o : Nat) :
    tokens ⟨o, marker ++ rest⟩ = [⟨marker ++ rest, o⟩] ∧
      Category.comment.accepts (marker ++ rest) = true := by
  have hmunch := Category.munchComment?_eq_some_iff.2 ⟨marker, hm, rest, rfl, rfl⟩
  rw [Category.eq_of_munchComment? hmunch (newline_not_mem_comment hm hrest)] at hmunch
  exact ⟨tokens_all (Category.munchFirst?_of_munchComment? hmunch),
    Category.accepts_comment_of_munchComment? hmunch⟩

end Cursor

namespace Program

open Category (markers)

variable {a b : Text}

/-! ## Placed lines -/

/-- What a reader is told of a source: its table, or what is wrong and at which position. -/
def outcome (settings : Settings) (source : Text) : Except (ProgramFault × Position) SymbolTable :=
  (parse settings source).mapError fun e => (e.fault, Position.locate source e.offset)

/-- The lines of a source, each with the position of its first token. -/
def placedLines (source : Text) : List (List Text × Position) :=
  (Line.ofTokens (Token.scan source)).map fun l => (l.texts, l.keyword.position source)

/-- **What a reader is told depends on the placed lines alone.** -/
theorem outcome_congr (settings : Settings) (h : placedLines b = placedLines a) :
    outcome settings b = outcome settings a := by
  have hcounterparts : Line.Counterparts
      (fun l l' => l'.keyword.position b = l.keyword.position a)
      (Line.ofTokens (Token.scan a)) (Line.ofTokens (Token.scan b)) := by
    rw [placedLines, placedLines, ← List.forall₂_eq_eq_eq, List.forall₂_map_left_iff,
      List.forall₂_map_right_iff] at h
    exact h.flip.imp fun l l' heq => Prod.mk.inj heq
  unfold outcome
  rcases parse_of_counterparts settings hcounterparts with
    ⟨t, ha, hb⟩ | ⟨f, l, l', hposition, ha, hb⟩
  · rw [ha, hb]
    rfl
  · rw [ha, hb]
    exact congrArg (fun p => Except.error (f, p)) hposition

/-- **The placed lines of two sources with a newline between them**: those of the second are further
down. -/
theorem placedLines_append_newline (a b : Text) :
    placedLines (a ++ '\n' :: b) =
      placedLines a ++
        (placedLines b).map fun v => (v.1, v.2.lowered (a.count '\n' + 1)) := by
  rw [placedLines, Line.ofTokens_scan_append_newline, List.map_append, List.map_map, placedLines,
    placedLines, List.map_map]
  congr 1
  · refine List.map_congr_left fun l hl => ?_
    rw [Line.position_append hl]
  · refine List.map_congr_left fun l _ => ?_
    exact Prod.ext (Line.texts_moved _ _ l) (Position.locate_append_newline a b _)

theorem newline_not_mem_append_comment {line marker rest : Text} (hline : '\n' ∉ line)
    (hm : marker ∈ markers) (hrest : '\n' ∉ rest) : '\n' ∉ line ++ (marker ++ rest) := by
  rw [List.mem_append, not_or]
  exact ⟨hline, Cursor.newline_not_mem_comment hm hrest⟩

/-- **A comment at the end of a line** leaves the line as it is. -/
theorem placedLines_append_comment {line marker rest : Text} (hline : '\n' ∉ line)
    (hm : marker ∈ markers) (hrest : '\n' ∉ rest) :
    placedLines (line ++ (marker ++ rest)) = placedLines line := by
  have hparts : Category.Parts (marker ++ rest) := by
    simp only [markers, List.mem_cons, List.not_mem_nil, or_false] at hm
    rcases hm with rfl | rfl | rfl
    all_goals exact Category.parts_cons (by decide) (by decide) _
  have hnewline := newline_not_mem_append_comment hline hm hrest
  have hcomments : ∀ o, ∀ k ∈ Cursor.tokens ⟨o, marker ++ rest⟩, k.is .comment = true := by
    intro o
    obtain ⟨htokens, hcomment⟩ := Cursor.tokens_comment hm hrest o
    rw [htokens, List.forall_mem_singleton]
    exact hcomment
  have hlines : Line.ofTokens (Token.scan (line ++ (marker ++ rest))) =
      Line.ofTokens (Token.scan line) :=
    LineReader.lines_tokens_append hparts hnewline hcomments 0 0
  rw [placedLines, hlines, placedLines]
  refine List.map_congr_left fun l hl => ?_
  rw [Line.position_append hl]

/-! ## A line among others -/

/-- One line may be exchanged for another that is placed alike. -/
theorem placedLines_join_congr {line line' : Text} (h : placedLines line' = placedLines line)
    (hcount : line'.count '\n' = line.count '\n') (before after : List Text) :
    placedLines (Text.join ['\n'] (before ++ line' :: after)) =
      placedLines (Text.join ['\n'] (before ++ line :: after)) := by
  have hcons : ∀ (p : Text) {parts : List Text}, parts ≠ [] →
      Text.join ['\n'] (p :: parts) = p ++ '\n' :: Text.join ['\n'] parts := by
    intro p parts hne
    obtain ⟨q, parts, rfl⟩ := List.exists_cons_of_ne_nil hne
    exact Text.join_cons_cons _ p q parts
  induction before with
  | nil =>
    cases after with
    | nil => rwa [List.nil_append, List.nil_append, Text.join_singleton, Text.join_singleton]
    | cons p after =>
      rw [List.nil_append, List.nil_append, hcons _ (List.cons_ne_nil _ _),
        hcons _ (List.cons_ne_nil _ _), placedLines_append_newline, placedLines_append_newline, h,
        hcount]
  | cons p before ih =>
    have hne : ∀ x : Text, before ++ x :: after ≠ [] := fun x => by simp
    rw [List.cons_append, List.cons_append, hcons _ (hne _), hcons _ (hne _),
      placedLines_append_newline, placedLines_append_newline, ih]

/-- **Comments are inert.** A comment at the end of any line of a source, with nothing in between
and whatever the line ends in, changes nothing for a reader: the source has the same table, or the
same is wrong at the same position. -/
theorem outcome_append_comment (settings : Settings) {source line marker rest : Text}
    {before after : List Text} (hsource : source.splitOn '\n' = before ++ line :: after)
    (hm : marker ∈ markers) (hrest : '\n' ∉ rest) :
    outcome settings (Text.join ['\n'] (before ++ (line ++ (marker ++ rest)) :: after)) =
      outcome settings source := by
  have hmem : line ∈ source.splitOn '\n' := by
    rw [hsource]
    exact List.mem_append_right before List.mem_cons_self
  have hline := Text.newline_not_mem_of_mem_splitOn hmem
  have hjoin : Text.join ['\n'] (before ++ line :: after) = source := by
    rw [← hsource, Text.join, List.intercalate_splitOn]
  have hplaced := placedLines_append_comment hline hm hrest
  have hcount : (line ++ (marker ++ rest)).count '\n' = line.count '\n' := by
    rw [List.count_eq_zero_of_not_mem hline,
      List.count_eq_zero_of_not_mem (newline_not_mem_append_comment hline hm hrest)]
  rw [outcome_congr settings (placedLines_join_congr hplaced hcount before after), hjoin]

/-- The slash at the end of the second line and the comment's own make a comment of three slashes.
The error is on the third line with and without it. -/
theorem outcome_append_comment_slash :
    outcome .default "inc x 1\nvar x ///[1]\n  var y X".toList =
      .error (.declaration (.duplicate ⟨"x".toList⟩), ⟨3, 3⟩) := by
  have hsource : "inc x 1\nvar x /\n  var y X".toList.splitOn '\n' =
      ["inc x 1".toList] ++ "var x /".toList :: ["  var y X".toList] := by decide
  have hm : "//".toList ∈ markers := by decide
  have hrest : '\n' ∉ "[1]".toList := by decide
  exact (outcome_append_comment .default hsource hm hrest).trans (by decide +kernel)

end Program

end LineLang
