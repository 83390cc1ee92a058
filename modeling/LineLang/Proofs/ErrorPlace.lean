import LineLang.Proofs.LineEnd
import LineLang.Proofs.Linking
import LineLang.Proofs.Position

/-!
# The places of errors

An error names its line three times: by the index of the line's first token, by the offset of this
token, and through the offset by a position. All three mean one line, the first that cannot be
carried out.

About the `starting_index` and the `offset` that `Parser.parse` gives a `ParseError`.

* `EndsLine`: a text after which a line begins.
* `Line.Place`: a line in its source, with what is above it and below it.
* `Pinpoints`: what it is for an error to be exact about its line.

Results:
* `Scanned.first`: the first token of a text, and the text cut in front of it.
* `count_newline`: newlines and newline tokens.
* `exists_place`: every line has a place.
* `exists_pinpoints`: every error is exact.
-/

namespace LineLang

namespace Cursor

open Category

variable {o : Nat} {t : Text} {k : Token} {ts : List Token}

/-! ## First tokens -/

/-- **The first token of a text.** In the text before it nothing is read. -/
theorem Scanned.first (h : Scanned o t (k :: ts)) :
    ∃ before after, t = before ++ (k.text ++ after) ∧ k.offset = o + before.byteLength ∧
      Scanned o before [] ∧ munchFirst? (k.text ++ after) = some (k.text, after) ∧
      Scanned k.stop after ts := by
  generalize hks : k :: ts = ks at h
  induction h with
  | done => cases hks
  | @skip o c t ks h _ ih =>
    obtain ⟨before, after, rfl, hoffset, hbefore, hmunch, hrest⟩ := ih hks
    have hnone : munchFirst? (c :: before) = none := munchFirst?_eq_none_iff.2 fun d w hw =>
      munchFirst?_eq_none_iff.1 h d w (hw.trans ⟨k.text ++ after, rfl⟩)
    refine ⟨c :: before, after, rfl, ?_, .skip hnone hbefore, hmunch, hrest⟩
    rw [hoffset, Text.byteLength_cons, Nat.add_assoc]
  | @take o u r ks h hrest ih =>
    obtain ⟨rfl, rfl⟩ := List.cons.inj hks
    exact ⟨[], r, rfl, rfl, .done o, h, hrest⟩

/-- On a line nothing follows a comment. -/
theorem Scanned.eq_nil_of_comment (h : Scanned o t (k :: ts)) (ht : '\n' ∉ t)
    (hk : k.is .comment = true) : ts = [] := by
  obtain ⟨before, after, rfl, -, -, hmunch, hrest⟩ := h.first
  obtain ⟨marker, hm, rest, htext, -⟩ := accepts_comment.1 (accepts_iff.1 hk)
  have hcomment : munchComment? (k.text ++ after) = some (lineAfter marker (rest ++ after)) := by
    rw [htext, List.append_assoc]
    exact munchComment?_eq_some_iff.2 ⟨marker, hm, _, rfl, rfl⟩
  rw [eq_of_munchComment? hcomment fun hmem => ht (List.mem_append_right before hmem)] at hcomment
  rw [munchFirst?_of_munchComment? hcomment] at hmunch
  obtain rfl : [] = after := (Prod.mk.inj (Option.some.inj hmunch)).2
  exact (scanned_iff.1 hrest).trans (tokens_nil _)

/-! ## Newlines -/

/-- There are as many newline tokens as newlines. -/
theorem count_newline (o : Nat) (t : Text) :
    (tokens ⟨o, t⟩).countP (·.is .newline) = t.count '\n' := by
  induction t using Text.newline_induction generalizing o with
  | line t h =>
    rw [List.count_eq_zero_of_not_mem h, List.countP_eq_zero]
    intro k hk
    rw [newline_eq_false_of_mem_tokens h hk]
    exact Bool.false_ne_true
  | newline a b _ iha ihb =>
    rw [tokens_append_newline, List.countP_append, List.countP_cons_of_pos rfl, iha, ihb,
      List.count_append, List.count_cons_self]

end Cursor

/-! ## Where lines begin -/

theorem Token.scan_nil : Token.scan [] = [] := Cursor.tokens_nil 0

theorem Token.scan_append_singleton_newline (a : Text) :
    Token.scan (a ++ ['\n']) = Token.scan a ++ [⟨['\n'], a.byteLength⟩] := by
  rw [Token.scan_append_newline, Token.scan_nil, List.map_nil]

theorem Line.ofTokens_nil : Line.ofTokens [] = [] := LineReader.lines_nil 0

theorem Line.moved_zero : Line.moved 0 0 = id := by
  have hmap : ∀ ts : List Token, ts.map (Token.moved 0) = ts := List.map_id
  funext l
  rw [Line.moved, hmap]
  rfl

theorem Line.moved_moved (n n' bytes bytes' : Nat) (l : Line) :
    (l.moved n bytes).moved n' bytes' = l.moved (n + n') (bytes + bytes') := by
  simp [Line.moved, Token.moved, Nat.add_assoc, Function.comp_def]

/-- A text after which a line begins: there is nothing in it, or it ends in a newline. -/
inductive EndsLine : Text → Prop
  | nothing : EndsLine []
  | newline (a : Text) : EndsLine (a ++ ['\n'])

namespace EndsLine

variable {above : Text}

theorem prepend (h : EndsLine above) (a : Text) : EndsLine (a ++ '\n' :: above) := by
  cases h with
  | nothing => exact .newline a
  | newline b =>
    have h := EndsLine.newline (a ++ '\n' :: b)
    rwa [List.append_assoc, List.cons_append] at h

/-- Scanning starts afresh after such a text. -/
theorem scan_append (h : EndsLine above) (t : Text) :
    Token.scan (above ++ t) =
      Token.scan above ++ (Token.scan t).map (Token.moved above.byteLength) := by
  cases h with
  | nothing =>
    rw [Token.scan_nil]
    exact (List.map_id _).symm
  | newline a =>
    have hbytes : (a ++ ['\n']).byteLength = a.byteLength + 1 := Text.byteLength_append a ['\n']
    rw [Token.scan_append_singleton_newline, List.append_assoc, List.singleton_append,
      Token.scan_append_newline, hbytes, List.append_assoc, List.singleton_append]

/-- The last token of such a text ends a line. -/
theorem length_eq_zero_or_newline (h : EndsLine above) :
    (Token.scan above).length = 0 ∨ ∃ n k, (Token.scan above).length = n + 1 ∧
      (Token.scan above)[n]? = some k ∧ k.is .newline = true := by
  cases h with
  | nothing => exact Or.inl (by rw [Token.scan_nil, List.length_nil])
  | newline a =>
    rw [Token.scan_append_singleton_newline]
    exact Or.inr ⟨_, _, List.length_append, List.getElem?_concat_length, rfl⟩

end EndsLine

/-! ## Lines in their sources -/

namespace Line

/-- A piece of a source with one line begins with the first token of this line. -/
theorem scan_of_ofTokens_eq_singleton {piece : Text} {l : Line} (h : '\n' ∉ piece)
    (hl : ofTokens (Token.scan piece) = [l]) :
    l.start = 0 ∧ l.keyword.is .comment = false ∧
      ∃ ts, Token.scan piece = l.keyword :: ts ∧ l.parameters = withoutComments ts := by
  have hlines : ofTokens (Token.scan piece) = (ofGroup ((Token.scan piece).zipIdx 0)).toList :=
    LineReader.lines_of_line h 0 0
  rw [hlines] at hl
  have hscanned := Cursor.scanned_tokens 0 piece
  rw [← Cursor.start, ← Token.scan] at hscanned
  cases hscan : Token.scan piece with
  | nil =>
    rw [hscan] at hl
    cases hl
  | cons k ts =>
    rw [hscan] at hl hscanned
    rw [List.zipIdx_cons] at hl
    cases hk : k.is .comment with
    | true =>
      -- nothing follows the comment, so there would be no line
      rw [ofGroup_cons_comment hk, hscanned.eq_nil_of_comment h hk] at hl
      cases hl
    | false =>
      rw [ofGroup_cons hk] at hl
      obtain rfl := List.singleton_inj.1 hl
      refine ⟨rfl, hk, ts, rfl, ?_⟩
      rw [map_fst_filter_kept, List.zipIdx_map_fst]

/-- **A line in its source**: the piece between newlines that it is read off, with the text above it
and below it, and the line as it is read off the piece alone. -/
structure Place where
  above : Text
  piece : Text
  below : Text
  bare : Line
  endsLine : EndsLine above
  newline_not_mem : '\n' ∉ piece
  lines_piece : ofTokens (Token.scan piece) = [bare]

namespace Place

/-- The whole source. -/
def source (p : Place) : Text := p.above ++ (p.piece ++ p.below)

/-- The line. -/
def line (p : Place) : Line := p.bare.moved (Token.scan p.above).length p.above.byteLength

/-- The lines above it. -/
def earlier (p : Place) : List Line := ofTokens (Token.scan p.above)

/-- The place of the line with more text below it. -/
def higher (p : Place) (b : Text) : Place := { p with below := p.below ++ '\n' :: b }

/-- The place of the line with more text above it. -/
def lower (p : Place) (a : Text) : Place :=
  { p with above := a ++ '\n' :: p.above, endsLine := p.endsLine.prepend a }

theorem source_higher (p : Place) (b : Text) : (p.higher b).source = p.source ++ '\n' :: b := by
  simp [source, higher]

theorem source_lower (p : Place) (a : Text) : (p.lower a).source = a ++ '\n' :: p.source := by
  simp [source, lower]

theorem earlier_lower (p : Place) (a : Text) :
    (p.lower a).earlier = ofTokens (Token.scan a) ++
      p.earlier.map (Line.moved ((Token.scan a).length + 1) (a.byteLength + 1)) :=
  ofTokens_scan_append_newline a p.above

theorem line_lower (p : Place) (a : Text) :
    (p.lower a).line = p.line.moved ((Token.scan a).length + 1) (a.byteLength + 1) := by
  have hnewline : '\n'.utf8Size = 1 := rfl
  have htokens : (Token.scan (p.lower a).above).length =
      (Token.scan p.above).length + ((Token.scan a).length + 1) := by
    rw [lower, Token.scan_append_newline, List.length_append, List.length_cons, List.length_map]
    omega
  have hbytes : (p.lower a).above.byteLength = p.above.byteLength + (a.byteLength + 1) := by
    rw [lower, Text.byteLength_append, Text.byteLength_cons]
    omega
  rw [line, line, htokens, hbytes, moved_moved]
  rfl

end Place

variable {source : Text} {l : Line} {before after : List Line}

/-- The place of a line in a source without newlines. -/
theorem exists_place_of_not_mem (hs : '\n' ∉ source)
    (h : ofTokens (Token.scan source) = before ++ l :: after) :
    ∃ p : Place, p.source = source ∧ p.earlier = before ∧ p.line = l := by
  have hlines : ofTokens (Token.scan source) = (ofGroup ((Token.scan source).zipIdx 0)).toList :=
    LineReader.lines_of_line hs 0 0
  have hlength := congrArg List.length (hlines.symm.trans h)
  have hone := Option.length_toList_le (o := ofGroup ((Token.scan source).zipIdx 0))
  rw [List.length_append, List.length_cons] at hlength
  obtain rfl : before = [] := List.length_eq_zero_iff.1 (by omega)
  obtain rfl : after = [] := List.length_eq_zero_iff.1 (by omega)
  refine ⟨⟨[], source, [], l, .nothing, hs, h⟩, List.append_nil _, ?_, ?_⟩
  · rw [Place.earlier, Token.scan_nil, ofTokens_nil]
  · rw [Place.line, Token.scan_nil, List.length_nil, Text.byteLength_nil, moved_zero]
    rfl

/-- **Every line has a place**, by induction on the newlines of its source. -/
theorem exists_place (h : ofTokens (Token.scan source) = before ++ l :: after) :
    ∃ p : Place, p.source = source ∧ p.earlier = before ∧ p.line = l := by
  induction source using Text.newline_induction generalizing before l after with
  | line t ht => exact exists_place_of_not_mem ht h
  | newline a b _ iha ihb =>
    rw [ofTokens_scan_append_newline] at h
    have hbelow : ∀ ls, (ofTokens (Token.scan b)).map
        (Line.moved ((Token.scan a).length + 1) (a.byteLength + 1)) = ls ++ l :: after →
        before = ofTokens (Token.scan a) ++ ls →
          ∃ p : Place, p.source = a ++ '\n' :: b ∧ p.earlier = before ∧ p.line = l := by
      rintro ls hls rfl
      obtain ⟨ls, rest, hb, rfl, hrest⟩ := List.map_eq_append_iff.1 hls
      obtain ⟨k, after, rfl, rfl, -⟩ := List.map_eq_cons_iff.1 hrest
      obtain ⟨p, rfl, rfl, rfl⟩ := ihb hb
      exact ⟨p.lower a, p.source_lower a, p.earlier_lower a, p.line_lower a⟩
    rcases List.append_eq_append_iff.1 h with ⟨ls, hbefore, hls⟩ | ⟨ls, ha, hls⟩
    · exact hbelow ls hls hbefore
    · cases ls with
      -- the lines before it are exactly those above the newline
      | nil => exact hbelow [] hls.symm (by simpa using ha.symm)
      | cons k ls =>
        obtain ⟨rfl, -⟩ := List.cons.inj hls
        obtain ⟨p, rfl, rfl, rfl⟩ := iha ha
        exact ⟨p.higher b, p.source_higher b, rfl, rfl⟩

namespace Place

variable (p : Place)

/-- The first token of a line is neither a comment nor a newline. -/
theorem keyword_line :
    p.line.keyword.is .comment = false ∧ p.line.keyword.is .newline = false := by
  obtain ⟨-, hcomment, ts, hscan, -⟩ :=
    scan_of_ofTokens_eq_singleton p.newline_not_mem p.lines_piece
  have hmem : p.bare.keyword ∈ Token.scan p.piece := by
    rw [hscan]
    exact List.mem_cons_self
  have hnewline : p.bare.keyword.is .newline = false :=
    Cursor.newline_eq_false_of_mem_tokens p.newline_not_mem hmem
  exact ⟨hcomment, hnewline⟩

theorem start_line : p.line.start = (Token.scan p.above).length := by
  obtain ⟨hstart, -⟩ := scan_of_ofTokens_eq_singleton p.newline_not_mem p.lines_piece
  rw [line, moved, hstart, Nat.zero_add]

theorem offset_line : p.line.keyword.offset = p.above.byteLength + p.bare.keyword.offset :=
  Nat.add_comm _ _

/-- The tokens before a line are those of the text above it. -/
theorem take_scan : (Token.scan p.source).take p.line.start = Token.scan p.above := by
  rw [p.start_line, source, p.endsLine.scan_append, List.take_left]

/-- **A line begins with its first token**: no token is before it in the source, or a newline. -/
theorem start_eq_zero_or_newline :
    p.line.start = 0 ∨ ∃ n k, p.line.start = n + 1 ∧ (Token.scan p.source)[n]? = some k ∧
      k.is .newline = true := by
  rw [p.start_line]
  refine p.endsLine.length_eq_zero_or_newline.imp_right ?_
  rintro ⟨n, k, hlength, hk, hnewline⟩
  refine ⟨n, k, hlength, ?_, hnewline⟩
  rw [source, p.endsLine.scan_append, List.getElem?_append_left (by omega), hk]

/-- **The source cut in front of a line** has the tokens before it. -/
theorem scan_takeBytes :
    Token.scan (p.source.takeBytes p.line.keyword.offset) =
      (Token.scan p.source).take p.line.start := by
  obtain ⟨-, -, ts, hscan, -⟩ := scan_of_ofTokens_eq_singleton p.newline_not_mem p.lines_piece
  have hscanned := Cursor.scanned_tokens 0 p.piece
  rw [← Cursor.start, ← Token.scan, hscan] at hscanned
  obtain ⟨before, after, hpiece, hoffset, hbefore, -⟩ := hscanned.first
  have hline : p.line.keyword.offset = p.above.byteLength + before.byteLength := by
    rw [p.offset_line, hoffset, Nat.zero_add]
  have hcut : p.source.takeBytes p.line.keyword.offset = p.above ++ before := by
    rw [hline, source, Text.takeBytes_append_add, hpiece, List.append_assoc, Text.takeBytes_append]
  have hnone : Token.scan before = [] := (Cursor.scanned_iff.1 hbefore).symm
  rw [p.take_scan, hcut, p.endsLine.scan_append, hnone, List.map_nil, List.append_nil]

/-- **All tokens of a line are on one line** of its source, below the newline tokens before it. -/
theorem line_position {k : Token} (hk : k ∈ p.line.tokens) :
    (k.position p.source).line =
      ((Token.scan p.source).take p.line.start).countP (·.is .newline) + 1 := by
  obtain ⟨-, -, ts, hscan, hparameters⟩ :=
    scan_of_ofTokens_eq_singleton p.newline_not_mem p.lines_piece
  have htokens : p.line.tokens = p.bare.tokens.map (Token.moved p.above.byteLength) := rfl
  rw [htokens] at hk
  obtain ⟨j, hj, rfl⟩ := List.mem_map.1 hk
  have hmem : j ∈ Token.scan p.piece := by
    rw [hscan]
    rw [tokens, hparameters] at hj
    exact List.cons_subset_cons _ (List.filter_subset_self ts) hj
  have hle := Token.offset_le_byteLength hmem
  rw [p.take_scan, Token.scan, Cursor.start, Cursor.count_newline, Token.position, Token.moved,
    source, Nat.add_comm j.offset, Position.line_locate_append_add,
    Position.locate_append_of_le hle, Position.line_locate_of_not_mem p.newline_not_mem]

end Place

end Line

/-! ## Errors -/

namespace Program

/-- **What it is for an error to be exact** about the line that it was found on. -/
structure Pinpoints (settings : Settings) (source : Text) (e : ProgramError) (l : Line) :
    Prop where
  /-- The line is one of the source. -/
  mem : l ∈ Line.ofTokens (Token.scan source)
  start : e.start = l.start
  /-- The index is that of the first token of the line, which is neither a comment nor a newline. -/
  token : (Token.scan source)[e.start]? = some l.keyword
  not_comment : l.keyword.is .comment = false
  not_newline : l.keyword.is .newline = false
  /-- The offset is that of this token. -/
  offset : e.offset = l.keyword.offset
  /-- No token is before it on its line: it is the first token of all, or a newline is before it. -/
  first : e.start = 0 ∨ ∃ n k, e.start = n + 1 ∧ (Token.scan source)[n]? = some k ∧
    k.is .newline = true
  /-- All tokens of the line have positions on one line, below the newline tokens before them. -/
  line : ∀ k ∈ l.tokens, (k.position source).line =
    ((Token.scan source).take e.start).countP (·.is .newline) + 1
  /-- The source cut at the offset has the tokens before the index. -/
  cut : Token.scan (source.takeBytes e.offset) = (Token.scan source).take e.start
  /-- The cut source is accepted. -/
  accepted : ∃ t, parse settings (source.takeBytes e.offset) = .ok t
  /-- With the names that the cut source declares, the line has the fault that is reported. -/
  faulty : Faulty settings (· ∈ declaredNames (linesOf (source.takeBytes e.offset))) l.texts e.fault

variable {settings : Settings} {source : Text} {e : ProgramError}

/-- **Every error is exact** about the line that it was found on. -/
theorem exists_pinpoints (h : parse settings source = .error e) :
    ∃ l, Pinpoints settings source e l := by
  obtain ⟨earlier, l, later, hsource, hearlier, hfaulty, hstart, hoffset⟩ := faulty_of_parse h
  obtain ⟨p, rfl, rfl, rfl⟩ := Line.exists_place hsource
  have hlines : linesOf (p.source.takeBytes p.line.keyword.offset) = p.earlier.map Line.texts := by
    rw [← map_texts_lines, p.scan_takeBytes, p.take_scan, Line.Place.earlier]
  have hmem : p.line ∈ Line.ofTokens (Token.scan p.source) := by
    rw [hsource]
    exact List.mem_append_right _ List.mem_cons_self
  obtain ⟨hcomment, hnewline⟩ := p.keyword_line
  rw [← hlines] at hearlier hfaulty
  rw [← hoffset] at hearlier hfaulty
  refine ⟨p.line, hmem, hstart, ?_, hcomment, hnewline, hoffset, ?_, ?_, ?_, ?_, hfaulty⟩
  · rw [hstart, Line.getElem?_start hmem]
  · rw [hstart]
    exact p.start_eq_zero_or_newline
  · rw [hstart]
    exact fun k hk => p.line_position hk
  · rw [hoffset, hstart, p.scan_takeBytes]
  · exact ⟨_, parse_of_acceptable hearlier⟩

/-- Above the line are a comment, a blank line and a line that is a comment. -/
theorem exists_pinpoints_fourth :
    parse .default "var x // a\n\n# b\n  inc [7] x".toList = .error ⟨.invalidSyntax, 7, 18⟩ ∧
      ∃ l, Pinpoints .default "var x // a\n\n# b\n  inc [7] x".toList
        ⟨.invalidSyntax, 7, 18⟩ l := by
  have herror : parse .default "var x // a\n\n# b\n  inc [7] x".toList =
      .error ⟨.invalidSyntax, 7, 18⟩ := by decide +kernel
  exact ⟨herror, exists_pinpoints herror⟩

end Program

end LineLang
