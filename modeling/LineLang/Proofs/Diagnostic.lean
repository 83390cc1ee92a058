import Mathlib.Data.Nat.PSub
import LineLang.Diagnostic
import LineLang.Proofs.Grouping
import LineLang.Proofs.LineEnd
import LineLang.Proofs.Offset
import LineLang.Proofs.Overlap
import LineLang.Proofs.Printing

/-!
# Reports of errors

The report of an error of a program is four lines: what is wrong, the place, the line of the source
with its number in front, and a caret. The caret stands under the first token of the line, however
many bytes the characters before it have, and the token is there to be read: blanks at the end of
the line are not shown, but a token that a line begins with has no blanks. An error may also be made
up, with any offset; its report never fails, and its caret stands where the place says.

About `ParseError.render` and `Diagnostic`.

* `ProgramError.margin`: what stands in front of the line of the source.
* `ProgramError.render?`: the report, by steps that may fail.
* `ProgramError.PointsAt`: what it is for a report to point at a token.

Results:
* `isBlank_eq_false_of_accepts`: tokens without blanks.
* `exists_trimEnd_lineAt`: a token in the line that is shown.
* `newline_not_mem_message`: what is wrong with a line is said on one line.
* `splitOn_render`: the lines of a report.
* `render?_eq`: making a report never fails.
* `pointsAt_of_parse`: the report of an error of parsing.
* `render_pointsAt`: the caret.
-/

namespace LineLang

/-! ## Blanks -/

/-- An ASCII character that leaves a mark is no blank. -/
theorem Text.isBlank_eq_false {c : Char} (h : 0x20 < c.toNat) (h' : c.toNat < 0x80) :
    isBlank c = false := by
  simp only [isBlank, blanks, CodeRange.anyContains, CodeRange.contains, List.any_cons, List.any_nil,
    Bool.or_false, Bool.or_eq_false_iff, Bool.and_eq_false_iff, decide_eq_false_iff_not]
  omega

theorem CharClass.isBlank_eq_false {c : Char} (h : identifierRest.contains c = true) :
    Text.isBlank c = false := by
  obtain ⟨hleast, hmost⟩ := graphic_of_identifierRest h
  exact Text.isBlank_eq_false hleast hmost

namespace Category

open Pattern

/-- But for comments and newlines, whatever belongs to a category begins with few characters. -/
theorem begins_of_accepts {c : Category} (hcomment : c ≠ comment) (hnewline : c ≠ newline) {b : Char}
    {v : Text} (h : Accepts c.pattern (b :: v)) :
    CharClass.identifierRest.contains b = true ∨ b = '[' := by
  have hwidest := widestAt?_of_accepts h
  rw [widestAt?] at hwidest
  split_ifs at hwidest with hrest hbracket
  · exact Or.inl hrest
  · exact Or.inr hbracket
  -- what is left begins newlines and comments, and nothing else has these around it
  · cases c with
    | newline => exact absurd rfl hnewline
    | _ => cases hwidest
  · cases c with
    | comment => exact absurd rfl hcomment
    | _ => cases hwidest

/-- **Only comments and newlines have blanks in them.** -/
theorem isBlank_eq_false_of_accepts {c : Category} (hcomment : c ≠ comment) (hnewline : c ≠ newline)
    {t : Text} (h : Accepts c.pattern t) {d : Char} (hd : d ∈ t) : Text.isBlank d = false := by
  obtain ⟨b, v, rfl⟩ := List.exists_cons_of_ne_nil (List.ne_nil_of_mem hd)
  rcases List.mem_cons.1 hd with rfl | hd
  · rcases begins_of_accepts hcomment hnewline h with hrest | rfl
    · exact CharClass.isBlank_eq_false hrest
    · rfl
  · rcases goes_on_of_accepts hcomment h hd with hrest | rfl
    · exact CharClass.isBlank_eq_false hrest
    · rfl

end Category

/-- A token that is neither a comment nor a newline has no blank in it. -/
theorem Cursor.Scanned.isBlank_eq_false {o : Nat} {t : Text} {ts : List Token} (h : Scanned o t ts)
    {k : Token} (hk : k ∈ ts) (hcomment : k.is .comment = false) (hnewline : k.is .newline = false)
    {d : Char} (hd : d ∈ k.text) : Text.isBlank d = false := by
  obtain ⟨_, _, -, -, hmunch⟩ := h.taken hk
  obtain ⟨c, hc⟩ := Category.accepts_of_munchFirst? hmunch
  have haccepts : k.is c = true := Category.accepts_iff.2 hc
  refine Category.isBlank_eq_false_of_accepts (c := c) ?_ ?_ hc hd
  · rintro rfl
    rw [hcomment] at haccepts
    cases haccepts
  · rintro rfl
    rw [hnewline] at haccepts
    cases haccepts

/-! ## The line that is shown -/

theorem Text.newline_not_mem_trimEnd {t : Text} (h : '\n' ∉ t) : '\n' ∉ t.trimEnd :=
  fun hmem => h (dropEndWhile_subset _ t hmem)

namespace Position

variable (source : Text) (offset : Nat)

/-- Carriage returns are blanks, so it does not matter that they are dropped first. -/
theorem trimEnd_lineAt :
    (lineAt source offset).trimEnd =
      Text.trimEnd (Text.lastPiece (source.takeBytes offset) ++
        Text.firstPiece (source.drop (source.takeBytes offset).length)) := by
  refine Text.dropEndWhile_dropEndWhile (fun c hc => ?_) _
  rw [beq_iff_eq.1 hc]
  rfl

/-- The line of a source that a word without blanks is on: the word is not cut. -/
theorem trimEnd_lineAt_append {w : Text} (hne : w ≠ []) (hw : ∀ c ∈ w, Text.isBlank c = false)
    (a z : Text) :
    (lineAt (a ++ (w ++ z)) a.byteLength).trimEnd =
      Text.lastPiece a ++ (w ++ (Text.firstPiece z).trimEnd) := by
  have hline : '\n' ∉ w := fun hmem => absurd (hw _ hmem) (by decide)
  rw [trimEnd_lineAt, Text.takeBytes_append, List.drop_left, Text.firstPiece_append hline]
  obtain ⟨v, c, rfl⟩ := (List.eq_nil_or_concat w).resolve_left hne
  have hc : Text.isBlank c = false := hw c (by simp)
  simp only [List.concat_eq_append, List.append_assoc, List.singleton_append]
  rw [← List.append_assoc, Text.trimEnd, Text.dropEndWhile_append_cons hc, List.append_assoc]
  rfl

end Position

/-- **A token is in the line that is shown**, unless it is a comment or a newline. In front of it is
what is before it on its line. -/
theorem Token.exists_trimEnd_lineAt {source : Text} {k : Token} (hk : k ∈ Token.scan source)
    (hcomment : k.is .comment = false) (hnewline : k.is .newline = false) :
    ∃ after, (Position.lineAt source k.offset).trimEnd =
      Text.lastPiece (source.takeBytes k.offset) ++ (k.text ++ after) := by
  have hscanned := Cursor.scanned_tokens 0 source
  have hblank : ∀ c ∈ k.text, Text.isBlank c = false := fun c =>
    hscanned.isBlank_eq_false hk hcomment hnewline
  obtain ⟨a, z, hcut, hoffset, -⟩ := hscanned.taken hk
  rw [Nat.zero_add] at hoffset
  refine ⟨(Text.firstPiece z).trimEnd, ?_⟩
  rw [hoffset, hcut, Text.takeBytes_append]
  exact Position.trimEnd_lineAt_append (hscanned.text_ne_nil hk) hblank a z

/-! ## Numbers, places and messages on one line -/

theorem Text.Decimal.newline_not_mem_ofNat (n : Nat) : '\n' ∉ ofNat n :=
  (row_ofNat n).not_mem (by decide) (by decide)

theorem Position.newline_not_mem_render (p : Position) : '\n' ∉ p.render := by
  simp [render, Text.Decimal.newline_not_mem_ofNat]

theorem Declaration.newline_not_mem_reason {settings : Settings} {suffix : Text} {f : ValueFault}
    (hsuffix : '\n' ∉ suffix) (h : SizeFault settings suffix f) : '\n' ∉ f.reason := by
  cases h with
  | notASize =>
    unfold ValueFault.reason
    rw [List.mem_append, not_or]
    exact ⟨hsuffix, by decide +kernel⟩
  | outOfRange =>
    unfold ValueFault.reason
    simp only [List.mem_append, not_or, Text.Decimal.newline_not_mem_ofNat, not_false_eq_true,
      and_true]
    decide +kernel

/-- **What is wrong with a line is said on one line.** -/
theorem Program.newline_not_mem_message {settings : Settings} {known : Text → Prop}
    {l : List Text} {f : ProgramFault} (h : Faulty settings known l f) : '\n' ∉ f.message := by
  cases h with
  | malformed => decide +kernel
  | @declaration before after d f _ hds _ hf =>
    have hmem : d ∈ declarationsOf [l] := by
      rw [declarationsOf, List.flatMap_singleton, hds]
      exact List.mem_append_right _ List.mem_cons_self
    have hspelled := wellSpelled_of_mem_declarationsOf hmem
    unfold ProgramFault.message DeclarationFault.message
    cases hf with
    | value hsuffix hfault =>
      have hline := Category.newline_not_mem (by decide) (hspelled.suffix _ hsuffix)
      rw [List.mem_append, not_or]
      exact ⟨by decide +kernel, Declaration.newline_not_mem_reason hline hfault⟩
    | duplicate =>
      have hline : '\n' ∉ d.key :=
        Category.newline_not_mem (by decide) (Category.accepts_normalize hspelled.name)
      unfold DuplicateSymbol.message
      rw [List.mem_append, not_or]
      exact ⟨by decide +kernel, hline⟩

namespace ProgramError

/-! ## The lines of a report -/

/-- The number of a line and the bar between it and the line. -/
def margin (p : Position) : Text := Text.Decimal.ofNat p.line ++ " | ".toList

theorem length_margin (p : Position) :
    (margin p).length = (Text.Decimal.ofNat p.line).length + 3 := by
  unfold margin
  exact List.length_append

theorem newline_not_mem_margin (p : Position) : '\n' ∉ margin p := by
  simp [margin, Text.Decimal.newline_not_mem_ofNat]

/-- The caret under the column of a position, as far behind the margin as the column says. -/
def caret (p : Position) : Text := List.replicate ((margin p).length + (p.column - 1)) ' ' ++ ['^']

/-- The caret is as far behind the margin as there are characters before the offset on its line. -/
theorem caret_locate (source : Text) (offset : Nat) :
    caret (Position.locate source offset) =
      List.replicate (margin (Position.locate source offset) ++
        Text.lastPiece (source.takeBytes offset)).length ' ' ++ ['^'] := by
  rw [caret, List.length_append]
  rfl

/-- The line of a report that names the place. -/
def arrow (path : Option Text) (p : Position) : Text := "  -> ".toList ++ renderPlace path p

theorem newline_not_mem_caret (p : Position) : '\n' ∉ caret p := by
  simp [caret, List.mem_replicate]

theorem newline_not_mem_arrow {path : Option Text} (h : ∀ t ∈ path, '\n' ∉ t) (p : Position) :
    '\n' ∉ arrow path p := by
  unfold arrow
  rw [List.mem_append, not_or]
  refine ⟨by decide +kernel, ?_⟩
  cases path with
  | none => exact p.newline_not_mem_render
  | some t =>
    rw [renderPlace, List.mem_append, not_or]
    exact ⟨h t rfl, List.not_mem_cons_of_ne_of_not_mem (by decide) p.newline_not_mem_render⟩

section Lines

variable (e : ProgramError) (source : Text) (path : Option Text)

/-- The report of an error, one line after another. -/
theorem render_eq :
    e.render source path =
      e.fault.message ++ '\n' ::
        (arrow path (Position.locate source e.offset) ++ '\n' ::
          ((margin (Position.locate source e.offset) ++
              (Position.lineAt source e.offset).trimEnd) ++ '\n' ::
            (caret (Position.locate source e.offset) ++ ['\n']))) := by
  have hcaret : "^\n".toList = ['^', '\n'] := by decide +kernel
  unfold render arrow caret
  rw [length_margin]
  unfold margin
  simp only [hcaret, List.append_assoc, List.cons_append, List.nil_append, List.replicate_add]

/-- **The lines of a report**: what is wrong, the place, the line of the source and the caret. -/
theorem splitOn_render :
    (e.render source path).splitOn '\n' =
      e.fault.message.splitOn '\n' ++
        ((arrow path (Position.locate source e.offset)).splitOn '\n' ++
        [margin (Position.locate source e.offset) ++ (Position.lineAt source e.offset).trimEnd,
          caret (Position.locate source e.offset), []]) := by
  have hline : '\n' ∉ margin (Position.locate source e.offset) ++
      (Position.lineAt source e.offset).trimEnd := by
    rw [List.mem_append, not_or]
    exact ⟨newline_not_mem_margin _,
      Text.newline_not_mem_trimEnd (Position.newline_not_mem_lineAt source e.offset)⟩
  rw [render_eq, List.splitOn_append_cons_self, List.splitOn_append_cons_self,
    List.splitOn_append_cons_self_of_not_mem hline,
    List.splitOn_append_cons_self_of_not_mem (newline_not_mem_caret _)]
  rfl

/-! ## Reports that never fail -/

/-- The report of an error, by steps that may fail: the cuts that find the place and the line, and
the step from the column to the number of characters before it. -/
def render? : Option Text := do
  let p ← Position.locate? source e.offset
  let line ← Position.lineAt? source e.offset
  let before ← p.column.ppred
  let number := Text.Decimal.ofNat p.line
  some (e.fault.message ++ '\n' ::
    "  -> ".toList ++ renderPlace path p ++ '\n' ::
    number ++ " | ".toList ++ line.trimEnd ++ '\n' ::
    List.replicate (number.length + 3) ' ' ++ List.replicate before ' ' ++ "^\n".toList)

/-- **Making a report never fails**, whatever the offset is. -/
theorem render?_eq : e.render? source path = some (e.render source path) := by
  have hcolumn : (Position.locate source e.offset).column.ppred =
      some ((Position.locate source e.offset).column - 1) := rfl
  unfold render?
  rw [Position.locate?_eq, Position.lineAt?_eq]
  simp only [Option.bind_eq_bind, Option.bind_some, hcolumn]
  rfl

end Lines

/-! ## Carets -/

/-- **What it is for a report to point at a token**, with some text in front of the token and some
after it on the line that is shown. -/
structure PointsAt (source : Text) (path : Option Text) (e : ProgramError) (k : Token)
    (before after : Text) : Prop where
  /-- The token is the one at the index of the error, and has a first character to point at. -/
  token : (Token.scan source)[e.start]? = some k
  offset : k.offset = e.offset
  nonempty : k.text ≠ []
  /-- In front of it are the number of the line, the bar and what is before it on its line. -/
  before_eq : before = margin (Position.locate source e.offset) ++
    Text.lastPiece (source.takeBytes e.offset)
  /-- The line that is shown is that of the place, but for the blanks at its end. -/
  shown : ∃ line : Text,
    (source.splitOn '\n')[(Position.locate source e.offset).line - 1]? = some line ∧
      before ++ (k.text ++ after) = margin (Position.locate source e.offset) ++ Text.trimEnd line
  /-- The report is four lines: what is wrong, the place, the line with the token in it, and a caret
  under the first character of the token. -/
  lines : (e.render source path).splitOn '\n' =
    [e.fault.message, arrow path (Position.locate source e.offset), before ++ (k.text ++ after),
      List.replicate before.length ' ' ++ ['^'], []]

open Program (parse)

/-- **The report of an error of parsing** points at the first token of the faulty line. -/
theorem pointsAt_of_parse {settings : Settings} {source : Text} {e : ProgramError}
    {path : Option Text} (h : parse settings source = .error e) (hpath : ∀ t ∈ path, '\n' ∉ t) :
    ∃ k before after, PointsAt source path e k before after := by
  obtain ⟨earlier, l, later, hsource, -, hfaulty, hstart, hoffset⟩ := Program.faulty_of_parse h
  have hl : l ∈ Line.ofTokens (Token.scan source) := by
    rw [hsource]
    exact List.mem_append_right _ List.mem_cons_self
  have hindex := Line.getElem?_start hl
  have hk := List.mem_of_getElem? hindex
  have hne := (Cursor.scanned_tokens 0 source).text_ne_nil hk
  obtain ⟨hcomment, hnewline⟩ := (Line.standsIn_of_mem_ofTokens hl).keyword
  obtain ⟨after, hshown⟩ := Token.exists_trimEnd_lineAt hk hcomment hnewline
  rw [← hstart] at hindex
  rw [← hoffset] at hshown
  refine ⟨l.keyword, _, after, hindex, hoffset.symm, hne, rfl,
    ⟨_, Position.getElem?_splitOn_locate source e.offset, ?_⟩, ?_⟩
  · rw [← Position.trimEnd_lineAt, hshown, List.append_assoc]
  · rw [splitOn_render, List.splitOn_eq_singleton (Program.newline_not_mem_message hfaulty),
      List.splitOn_eq_singleton (newline_not_mem_arrow hpath _), hshown, List.append_assoc,
      caret_locate]
    rfl

/-- **Carets.** The report of an error of parsing points at the first token of the faulty line. For
whatever error and offset a report is made without fail, and its caret stands as many columns behind
the margin as the place has characters before it on its line. -/
theorem render_pointsAt :
    (∀ (settings : Settings) (source : Text) (e : ProgramError) (path : Option Text),
      parse settings source = .error e → (∀ t ∈ path, '\n' ∉ t) →
        ∃ k before after, PointsAt source path e k before after) ∧
    ∀ (e : ProgramError) (source : Text) (path : Option Text),
      e.render? source path = some (e.render source path) ∧
      (e.render source path).splitOn '\n' =
        e.fault.message.splitOn '\n' ++
          ((arrow path (Position.locate source e.offset)).splitOn '\n' ++
          [margin (Position.locate source e.offset) ++ (Position.lineAt source e.offset).trimEnd,
            caret (Position.locate source e.offset), []]) :=
  ⟨fun _ _ _ _ => pointsAt_of_parse,
    fun e source path => ⟨e.render?_eq source path, e.splitOn_render source path⟩⟩

/-- A faulty line with letters of two bytes before its first token and blanks at its end; an offset
inside such a letter, and one past the end. -/
theorem render_pointsAt_letters :
    let source := "var é x\r\n  éé inc [7] x \r".toList
    let path := some "dír.bf".toList
    parse .default source = .error ⟨.invalidSyntax, 3, 17⟩ ∧ (∀ t ∈ path, '\n' ∉ t) ∧
      (∃ before after,
        PointsAt source path ⟨.invalidSyntax, 3, 17⟩ ⟨"inc".toList, 17⟩ before after) ∧
      render ⟨.invalidSyntax, 3, 17⟩ source path =
        "invalid syntax\n  -> dír.bf:2:6\n2 |   éé inc [7] x\n         ^\n".toList ∧
      ∀ offset ∈ [5, 100],
        render? ⟨.invalidSyntax, 0, offset⟩ source path =
          some (render ⟨.invalidSyntax, 0, offset⟩ source path) := by
  intro source path
  have herror : parse .default source = .error ⟨.invalidSyntax, 3, 17⟩ := by decide +kernel
  have hpath : ∀ t ∈ path, '\n' ∉ t := by decide +kernel
  have htoken : (Token.scan source)[3]? = some ⟨"inc".toList, 17⟩ := by decide +kernel
  obtain ⟨hparsed, hany⟩ := render_pointsAt
  obtain ⟨k, before, after, hpoints⟩ := hparsed .default source _ path herror hpath
  obtain rfl := Option.some.inj (hpoints.token.symm.trans htoken)
  exact ⟨herror, hpath, ⟨before, after, hpoints⟩, by decide +kernel,
    fun offset _ => (hany _ source path).1⟩

end ProgramError

end LineLang
