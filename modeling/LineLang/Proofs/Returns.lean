import LineLang.Diagnostic
import LineLang.Proofs.Counterpart
import LineLang.Proofs.LineEnd
import LineLang.Proofs.Linking
import LineLang.Proofs.Position

/-!
# Carriage returns at the ends of lines

A source may end its lines with newlines alone or with a carriage return in front of each. It has
the same lines and tables either way. Errors are the same up to their offsets, further on by the
carriage returns before them, and their reports do not differ at all.

About `line_at`, `Parser.parse` and `ParseError.render`.

* `Text.withReturns`: a text with a carriage return in front of every newline.
* `ProgramError.withReturns`: an error where its source has carriage returns.

Results:
* `takeBytes_withReturns`: the offset that corresponds to an offset.
* `locate_withReturns`, `lineAt_withReturns`: its position, and the line that it is in.
* `counterparts_withReturns`: the lines of a source with carriage returns.
* `parse_withReturns`: parsing it, and the reports of its errors.
-/

namespace LineLang

namespace Text

/-- The text with a carriage return in front of every newline. -/
def withReturns (t : Text) : Text := t.flatMap fun c => if c = '\n' then ['\r', '\n'] else [c]

theorem withReturns_append (t u : Text) : (t ++ u).withReturns = t.withReturns ++ u.withReturns :=
  List.flatMap_append

theorem withReturns_newline (t : Text) : withReturns ('\n' :: t) = '\r' :: '\n' :: t.withReturns :=
  rfl

theorem withReturns_cons {c : Char} (hc : c ≠ '\n') (t : Text) :
    withReturns (c :: t) = c :: t.withReturns := by
  rw [withReturns, List.flatMap_cons, if_neg hc]
  rfl

theorem withReturns_append_newline (a b : Text) :
    (a ++ '\n' :: b).withReturns = (a.withReturns ++ ['\r']) ++ '\n' :: b.withReturns := by
  rw [withReturns_append, withReturns_newline, List.append_assoc, List.singleton_append]

theorem withReturns_of_not_mem {t : Text} (h : '\n' ∉ t) : t.withReturns = t := by
  induction t with
  | nil => rfl
  | cons c t ih =>
    rw [List.mem_cons, not_or] at h
    rw [withReturns_cons (Ne.symm h.1), ih h.2]

theorem count_withReturns (t : Text) : t.withReturns.count '\n' = t.count '\n' := by
  induction t with
  | nil => rfl
  | cons c t ih =>
    by_cases hc : c = '\n'
    · subst hc
      rw [withReturns_newline, List.count_cons_of_ne (by decide), List.count_cons_self,
        List.count_cons_self, ih]
    · rw [withReturns_cons hc, List.count_cons_of_ne hc, List.count_cons_of_ne hc, ih]

/-! ## What is before and after a place -/

/-- **The offset that corresponds to an offset** is further on by the newlines before it: the same
is before it, with carriage returns. -/
theorem takeBytes_withReturns (n : Nat) (t : Text) :
    takeBytes (n + (takeBytes n t).count '\n') t.withReturns = (takeBytes n t).withReturns := by
  induction t generalizing n with
  | nil => rfl
  | cons c t ih =>
    by_cases hle : c.utf8Size ≤ n
    · obtain ⟨m, rfl⟩ := Nat.exists_eq_add_of_le hle
      rw [takeBytes_cons_add]
      by_cases hc : c = '\n'
      · subst hc
        -- the newline is counted, which is the byte of the carriage return in front of it
        have hoffset : '\n'.utf8Size + m + ((takeBytes m t).count '\n' + 1) =
            '\r'.utf8Size + ('\n'.utf8Size + (m + (takeBytes m t).count '\n')) := by
          have hreturn : '\r'.utf8Size = 1 := rfl
          omega
        rw [List.count_cons_self, withReturns_newline, withReturns_newline, hoffset,
          takeBytes_cons_add, takeBytes_cons_add, ih]
      · rw [List.count_cons_of_ne hc, withReturns_cons hc, withReturns_cons hc, Nat.add_assoc,
          takeBytes_cons_add, ih]
    · have hlt := Nat.not_le.1 hle
      rw [takeBytes_cons_of_lt hlt, List.count_nil, Nat.add_zero]
      by_cases hc : c = '\n'
      · subst hc
        have hreturn : n < '\r'.utf8Size := hlt
        rw [withReturns_newline, takeBytes_cons_of_lt hreturn]
        rfl
      · rw [withReturns_cons hc, takeBytes_cons_of_lt hlt]
        rfl

theorem drop_withReturns {t before : Text} (h : before ++ t.drop before.length = t) :
    t.withReturns.drop before.withReturns.length = withReturns (t.drop before.length) := by
  have hsplit := withReturns_append before (t.drop before.length)
  rw [h] at hsplit
  rw [hsplit, List.drop_left]

theorem lastPiece_withReturns (t : Text) : lastPiece t.withReturns = lastPiece t := by
  induction t using newline_induction with
  | line t h => rw [withReturns_of_not_mem h]
  | newline a b _ _ ihb =>
    rw [withReturns_append_newline, lastPiece_append_newline, lastPiece_append_newline, ihb]

/-- A carriage return may be left at the end of the first piece. -/
theorem firstPiece_withReturns (t : Text) :
    ∃ rs : Text, firstPiece t.withReturns = firstPiece t ++ rs ∧ ∀ c ∈ rs, c = '\r' := by
  induction t with
  | nil => exact ⟨[], rfl, List.forall_mem_nil _⟩
  | cons c t ih =>
    by_cases hc : c = '\n'
    · subst hc
      exact ⟨['\r'], rfl, List.forall_mem_singleton.2 rfl⟩
    · obtain ⟨rs, hfirst, hrs⟩ := ih
      refine ⟨rs, ?_, hrs⟩
      rw [withReturns_cons hc, firstPiece_cons hc, firstPiece_cons hc, hfirst, List.cons_append]

end Text

namespace Position

variable (source : Text) (n : Nat)

theorem after_withReturns (t : Text) : after t.withReturns = after t := by
  rw [after, after, Text.count_withReturns, Text.lastPiece_withReturns]

/-- The position of the corresponding offset. -/
theorem locate_withReturns :
    locate source.withReturns (n + (source.takeBytes n).count '\n') = locate source n := by
  rw [locate, Text.takeBytes_withReturns, after_withReturns, locate]

/-- The line that it is in: a carriage return at the end is cut off. -/
theorem lineAt_withReturns :
    lineAt source.withReturns (n + (source.takeBytes n).count '\n') = lineAt source n := by
  have hdrop := Text.drop_withReturns (Text.takeBytes_append_drop n source)
  obtain ⟨rs, hfirst, hrs⟩ := Text.firstPiece_withReturns (source.drop (source.takeBytes n).length)
  have hreturns : ∀ c ∈ rs, (c == '\r') = true := fun c hc => beq_iff_eq.2 (hrs c hc)
  rw [lineAt, lineAt, Text.takeBytes_withReturns, Text.lastPiece_withReturns, hdrop, hfirst,
    ← List.append_assoc, Text.dropEndWhile_append hreturns]

end Position

/-! ## Lines -/

namespace Cursor

theorem tokens_return (o : Nat) : tokens ⟨o, ['\r']⟩ = [] := by
  rw [tokens_skip rfl, tokens_nil]

/-- A carriage return at the end of a line gives no token more. -/
theorem length_tokens_append_return {t : Text} (h : '\n' ∉ t) (o : Nat) :
    (tokens ⟨o, t ++ ['\r']⟩).length = (tokens ⟨o, t⟩).length := by
  have hline : '\n' ∉ t ++ ['\r'] := by simpa using h
  have hparts : Category.Parts ['\r'] := Category.parts_cons (by decide) (by decide) []
  generalize hts : tokens ⟨o, t⟩ = ts
  generalize hts' : tokens ⟨o, t ++ ['\r']⟩ = ts'
  have hcontinued := continued_tokens hparts o hline
  rw [hts, hts'] at hcontinued
  cases hcontinued with
  | apart => rw [tokens_return, List.append_nil]
  | comment us => rw [List.length_append, List.length_append]; rfl
  | marker _ _ hx =>
    obtain ⟨d, hd, hhead⟩ := hx
    obtain rfl : '\r' = d := Option.some.inj hhead
    exact absurd hd (by decide)

end Cursor

namespace Line

/-- A carriage return at the end of a line does not change it. -/
theorem ofTokens_scan_append_return {t : Text} (h : '\n' ∉ t) :
    ofTokens (Token.scan (t ++ ['\r'])) = ofTokens (Token.scan t) := by
  have hline : '\n' ∉ t ++ ['\r'] := by simpa using h
  refine LineReader.lines_tokens_append (Category.parts_cons (by decide) (by decide) []) hline ?_ 0 0
  intro o k hk
  rw [Cursor.tokens_return] at hk
  exact absurd hk List.not_mem_nil

/-- A line of a source, and that line where the source has carriage returns: one for each line above
it. -/
def ReturnsBefore (source : Text) (l l' : Line) : Prop :=
  l'.start = l.start ∧ l'.keyword.offset + 1 = l.keyword.offset + (l.keyword.position source).line

theorem ReturnsBefore.moved {a b : Text} {l l' : Line} (ha : '\n' ∉ a) (h : ReturnsBefore b l l') :
    ReturnsBefore (a ++ '\n' :: b)
      (l.moved ((Token.scan a).length + 1) (a.byteLength + 1))
      (l'.moved ((Token.scan (a ++ ['\r'])).length + 1) ((a ++ ['\r']).byteLength + 1)) := by
  obtain ⟨hstart, hoffset⟩ := h
  have hlength : (Token.scan (a ++ ['\r'])).length = (Token.scan a).length :=
    Cursor.length_tokens_append_return ha 0
  have hbytes : (a ++ ['\r']).byteLength = a.byteLength + 1 := Text.byteLength_append a ['\r']
  have hposition : (l.keyword.moved (a.byteLength + 1)).position (a ++ '\n' :: b) =
      (l.keyword.position b).lowered (a.count '\n' + 1) := Position.locate_append_newline a b _
  have hline : ((l.keyword.moved (a.byteLength + 1)).position (a ++ '\n' :: b)).line =
      (l.keyword.position b).line + 1 := by
    rw [hposition, Position.lowered, List.count_eq_zero_of_not_mem ha]
  constructor
  · rw [Line.moved, Line.moved, hlength, hstart]
  · change l'.keyword.offset + ((a ++ ['\r']).byteLength + 1) + 1 =
      l.keyword.offset + (a.byteLength + 1) +
        ((l.keyword.moved (a.byteLength + 1)).position (a ++ '\n' :: b)).line
    rw [hline, hbytes]
    omega

/-- **The lines of a source with carriage returns**, by induction on its newlines. -/
theorem counterparts_withReturns (source : Text) :
    Counterparts (ReturnsBefore source) (ofTokens (Token.scan source))
      (ofTokens (Token.scan source.withReturns)) := by
  induction source using Text.newline_induction with
  | line t h =>
    rw [Text.withReturns_of_not_mem h]
    refine List.forall₂_same.2 fun l hl => ⟨rfl, rfl, ?_⟩
    rw [Token.position, Position.line_locate_of_not_mem h]
  | newline a b ha _ ihb =>
    rw [Text.withReturns_append_newline, Text.withReturns_of_not_mem ha,
      ofTokens_scan_append_newline, ofTokens_scan_append_newline, ofTokens_scan_append_return ha]
    refine List.rel_append ?_ ?_
    · refine List.forall₂_same.2 fun l hl => ⟨rfl, rfl, ?_⟩
      rw [position_append hl, Token.position, Position.line_locate_of_not_mem ha]
    · rw [List.forall₂_map_left_iff, List.forall₂_map_right_iff]
      refine ihb.imp fun l l' hl => ⟨?_, hl.2.moved ha⟩
      rw [texts_moved, texts_moved, hl.1]

end Line

/-! ## Parsing -/

/-- The error where its source has a carriage return in front of every newline. -/
def ProgramError.withReturns (source : Text) (e : ProgramError) : ProgramError :=
  { e with offset := e.offset + (source.takeBytes e.offset).count '\n' }

/-- The reports of an error are the same with and without carriage returns. -/
theorem ProgramError.render_withReturns (e : ProgramError) (source : Text) (path : Option Text) :
    (e.withReturns source).render source.withReturns path = e.render source path := by
  simp only [render, withReturns, Position.locate_withReturns, Position.lineAt_withReturns]

namespace Program

/-- **Line endings do not matter.** With a carriage return in front of every newline a source has
the same table, or the same is wrong at the same token, further on by as many bytes as newlines are
before it. Whatever a report says of an error and its source, it says of them with carriage returns.
-/
theorem parse_withReturns (settings : Settings) (source : Text) :
    parse settings source.withReturns =
        (parse settings source).mapError (ProgramError.withReturns source) ∧
      ∀ (e : ProgramError) (path : Option Text),
        (e.withReturns source).render source.withReturns path = e.render source path := by
  refine ⟨?_, fun e path => e.render_withReturns source path⟩
  rcases parse_of_counterparts settings (Line.counterparts_withReturns source) with
    ⟨t, h, h'⟩ | ⟨f, l, l', ⟨hstart, hoffset⟩, h, h'⟩
  · rw [h, h']
    rfl
  · have hshift : l'.keyword.offset =
        l.keyword.offset + (source.takeBytes l.keyword.offset).count '\n' := Nat.succ.inj hoffset
    rw [h, h', hstart, hshift]
    rfl

/-- One carriage return belongs to the comment, and the blank line has two. -/
example : parse .default (Text.withReturns "var x // a\n\r\n  var y X".toList) =
    .error ⟨.declaration (.duplicate ⟨"x".toList⟩), 5, 17⟩ := by
  decide +kernel

end Program

end LineLang
