import LineLang.Proofs.Program

/-!
# Linking programs

Two sources with a newline between them are one source. Its lines are those of the first and then
those of the second, further on by as many tokens and bytes as the first source and the newline
have.

About `lexer`, `Lines` and `Parser.parse`.

* `Line.moved`: a line further on in a row of tokens.

Results:
* `ofTokens_scan_append_newline`: the lines of two sources with a newline between them.
* `parse_append_newline`: parsing two sources with a newline between them.
-/

namespace LineLang

/-! ## Lines further on -/

/-- A line as many tokens and bytes further on. -/
def Line.moved (tokens bytes : Nat) (l : Line) : Line :=
  ⟨l.start + tokens, l.keyword.moved bytes, l.parameters.map (Token.moved bytes)⟩

namespace Line

theorem texts_moved (n bytes : Nat) (l : Line) : (l.moved n bytes).texts = l.texts := by
  simp [texts, tokens, moved, Token.moved, Function.comp_def]

end Line

namespace LineReader

/-- Lines are the same wherever their tokens stand, up to where they are. -/
theorem lines_moved (index n bytes : Nat) (ts : List Token) :
    lines ⟨index + n, ts.map (Token.moved bytes)⟩ =
      (lines ⟨index, ts⟩).map (Line.moved n bytes) :=
  lines_map (f := Token.moved bytes) (fun _ _ => rfl) index n ts

end LineReader

/-- The tokens of two sources with a newline between them. -/
theorem Token.scan_append_newline (a b : Text) :
    Token.scan (a ++ '\n' :: b) =
      Token.scan a ++ ⟨['\n'], a.byteLength⟩ ::
        (Token.scan b).map (Token.moved (a.byteLength + 1)) := by
  have hmoved : Cursor.tokens ⟨0 + a.byteLength + 1, b⟩ =
      (Token.scan b).map (Token.moved (a.byteLength + 1)) := by
    rw [Nat.add_assoc, Cursor.tokens_add]
    rfl
  rw [Token.scan, Cursor.start, Cursor.tokens_append_newline, hmoved, Nat.zero_add]
  rfl

/-- **The lines of two sources with a newline between them.** -/
theorem Line.ofTokens_scan_append_newline (a b : Text) :
    Line.ofTokens (Token.scan (a ++ '\n' :: b)) =
      Line.ofTokens (Token.scan a) ++
        (Line.ofTokens (Token.scan b)).map
          (Line.moved ((Token.scan a).length + 1) (a.byteLength + 1)) := by
  have hlines := LineReader.lines_moved 0 ((Token.scan a).length + 1) (a.byteLength + 1)
    (Token.scan b)
  rw [← Nat.add_assoc] at hlines
  rw [Line.ofTokens, Line.ofTokens, Line.ofTokens, Token.scan_append_newline,
    LineReader.lines_append_newline _ _ _ rfl, ← hlines]

/-! ## Declarations of many lines -/

/-- An item of a row made of many rows is in one of these. -/
theorem exists_of_flatMap_eq_append_cons {α β : Type} {f : α → List β} {xs : List α}
    {before after : List β} {y : β} (h : xs.flatMap f = before ++ y :: after) :
    ∃ ys x zs u v, xs = ys ++ x :: zs ∧ f x = u ++ y :: v ∧ before = ys.flatMap f ++ u := by
  induction xs generalizing before with
  | nil => exact absurd h.symm (by simp)
  | cons x xs ih =>
    have hlater : ∀ {c}, xs.flatMap f = c ++ y :: after → before = f x ++ c →
        ∃ ys x' zs u v, x :: xs = ys ++ x' :: zs ∧ f x' = u ++ y :: v ∧
          before = ys.flatMap f ++ u := by
      intro c hc hbefore
      obtain ⟨ys, x', zs, u, v, rfl, hx', rfl⟩ := ih hc
      refine ⟨x :: ys, x', zs, u, v, rfl, hx', ?_⟩
      rw [hbefore, List.flatMap_cons, List.append_assoc]
    rw [List.flatMap_cons] at h
    rcases List.append_eq_append_iff.1 h with ⟨c, hbefore, hc⟩ | ⟨c, hx, hc⟩
    · exact hlater hc hbefore
    · cases c with
      | nil => exact hlater (c := []) hc.symm (by simpa using hx.symm)
      | cons y' c =>
        obtain ⟨rfl, -⟩ := List.cons.inj hc
        exact ⟨[], x, xs, before, c, rfl, hx, rfl⟩

namespace Program

open Declaration (Declarable Fails entry)

variable {settings : Settings} {a b : Text}

theorem declarationsOf_append (xs ys : List (List Text)) :
    declarationsOf (xs ++ ys) = declarationsOf xs ++ declarationsOf ys :=
  List.flatMap_append

theorem declaredNames_append (xs ys : List (List Text)) :
    declaredNames (xs ++ ys) = declaredNames xs ++ declaredNames ys := by
  rw [declaredNames, declarationsOf_append, List.map_append]
  rfl

theorem linesOf_append_newline (a b : Text) : linesOf (a ++ '\n' :: b) = linesOf a ++ linesOf b := by
  rw [linesOf, List.splitOn_append_cons_self, List.map_append, List.filter_append]
  rfl

/-- Lines may follow others if they make up a program and declare no name of the others. -/
theorem Acceptable.append {xs ys : List (List Text)} (hx : Acceptable settings xs)
    (hy : Acceptable settings ys) (h : ∀ d ∈ declarationsOf ys, d.key ∉ declaredNames xs) :
    Acceptable settings (xs ++ ys) := by
  rw [acceptable_iff] at hx hy ⊢
  rw [declarationsOf_append, Declaration.declarable_append]
  refine ⟨List.forall_mem_append.2 ⟨hx.1, hy.1⟩, hx.2, hy.2.sizes, fun d hd => ?_, hy.2.distinct⟩
  rw [false_or]
  exact h d hd

/-- Lines that a program begins with make up a program. -/
theorem Acceptable.left {xs ys : List (List Text)} (h : Acceptable settings (xs ++ ys)) :
    Acceptable settings xs := by
  rw [acceptable_iff, declarationsOf_append, Declaration.declarable_append] at h
  exact acceptable_iff.2 ⟨(List.forall_mem_append.1 h.1).1, h.2.1⟩

/-- **The first name that is declared already** among acceptable lines after others: its line is
faulty, and the lines before it are not to blame. -/
theorem exists_faulty_of_duplicate {xs : List (List Text)} {ls : List Line}
    {before after : List Declaration} {d : Declaration} (hx : Acceptable settings xs)
    (hls : Acceptable settings (ls.map Line.texts))
    (hds : declarationsOf (ls.map Line.texts) = before ++ d :: after)
    (hbefore : ∀ e ∈ before, e.key ∉ declaredNames xs) (hd : d.key ∈ declaredNames xs) :
    ∃ ls₁ l ls₂, ls = ls₁ ++ l :: ls₂ ∧ d ∈ declarations l.texts ∧
      Acceptable settings (xs ++ ls₁.map Line.texts) ∧
      Faulty settings (· ∈ declaredNames (xs ++ ls₁.map Line.texts)) l.texts
        (.declaration (.duplicate ⟨d.key⟩)) := by
  rw [declarationsOf, List.flatMap_map] at hds
  obtain ⟨ls₁, l, ls₂, u, v, rfl, hl, rfl⟩ := exists_of_flatMap_eq_append_cons hds
  rw [← List.flatMap_map, ← declarationsOf] at hbefore
  rw [List.map_append, List.map_cons] at hls
  have hfirst := hx.append hls.left fun e he => hbefore e (List.mem_append_left _ he)
  refine ⟨ls₁, l, ls₂, rfl, by simp [hl], hfirst, ?_⟩
  have hthis : Acceptable settings (ls₁.map Line.texts ++ [l.texts]) := by
    rw [← List.singleton_append, ← List.append_assoc] at hls
    exact hls.left
  obtain ⟨-, hwellFormed, hdecls⟩ := acceptable_append.1 hthis
  rw [hl] at hdecls
  have hu := (Declaration.declarable_append.1 hdecls).1
  have hallowed := hdecls.sizes d (by simp)
  refine .declaration hwellFormed hl ⟨hu.sizes, fun e he hmem => ?_, hu.distinct⟩
    (.duplicate hallowed (Or.inl ?_))
  · rw [declaredNames_append, List.mem_append] at hmem
    exact hmem.elim (hbefore e (List.mem_append_right _ he)) (hu.fresh e he)
  · rw [declaredNames_append]
    exact List.mem_append_left _ hd

/-! ## Parsing -/

/-- The first error of a row of lines is the error of every row that begins with it. -/
theorem run_append_of_error {st : State} {ls ls' : List Line} {e : ProgramError}
    (h : run settings st ls = .error e) : run settings st (ls ++ ls') = .error e := by
  rw [run_append, h]
  rfl

/-- An error of the first source is the error of both. -/
theorem parse_append_newline_of_error {e : ProgramError} (h : parse settings a = .error e) :
    parse settings (a ++ '\n' :: b) = .error e := by
  unfold parse at h ⊢
  rw [Line.ofTokens_scan_append_newline]
  split at h
  · cases h
  · rename_i e' hrun
    rw [run_append_of_error hrun]
    exact h

section Accepted

variable {t u : SymbolTable}

/-- Sources that declare no name both make up one program. -/
theorem parse_append_newline_of_disjoint (ht : parse settings a = .ok t)
    (hu : parse settings b = .ok u)
    (h : ∀ x ∈ u.symbols SymbolTable.root,
      x.id ∉ (t.symbols SymbolTable.root).map Symbol.id) :
    ∃ v, parse settings (a ++ '\n' :: b) = .ok v ∧
      v.symbols SymbolTable.root = t.symbols SymbolTable.root ++ u.symbols SymbolTable.root := by
  obtain ⟨ha, rfl⟩ := acceptable_of_parse ht
  obtain ⟨hb, rfl⟩ := acceptable_of_parse hu
  rw [ids_tableOf, symbols_tableOf, List.forall_mem_map] at h
  have hc : Acceptable settings (linesOf (a ++ '\n' :: b)) := by
    rw [linesOf_append_newline]
    exact ha.append hb h
  refine ⟨_, parse_of_acceptable hc, ?_⟩
  rw [symbols_tableOf, symbols_tableOf, symbols_tableOf, linesOf_append_newline,
    declarationsOf_append, List.map_append]

/-- The first symbol of the second source with a name of the first source is a duplicate, and the
place of the error is that of its line. -/
theorem parse_append_newline_of_duplicate (ht : parse settings a = .ok t)
    (hu : parse settings b = .ok u) {x : Symbol}
    (hx : (u.symbols SymbolTable.root).find?
      (·.id ∈ (t.symbols SymbolTable.root).map Symbol.id) = some x) :
    ∃ l ∈ Line.ofTokens (Token.scan b),
      x ∈ (declarations l.texts).map (entry SymbolTable.root) ∧
        parse settings (a ++ '\n' :: b) =
          .error ⟨.declaration (.duplicate ⟨x.id⟩), (Token.scan a).length + 1 + l.start,
            a.byteLength + 1 + l.keyword.offset⟩ := by
  obtain ⟨ha, rfl⟩ := acceptable_of_parse ht
  obtain ⟨hb, rfl⟩ := acceptable_of_parse hu
  rw [ids_tableOf, symbols_tableOf, List.find?_map, Option.map_eq_some_iff] at hx
  obtain ⟨d, hd, rfl⟩ := hx
  obtain ⟨hknown, before, after, hds, hbefore⟩ := List.find?_eq_some_iff_append.1 hd
  rw [← map_texts_lines] at hb hds
  have hnew : ∀ e ∈ before, e.key ∉ declaredNames (linesOf a) := fun e he =>
    of_decide_eq_false ((Bool.not_eq_true' _).mp (hbefore e he))
  obtain ⟨ls₁, l, ls₂, hls, hmem, hfirst, hfaulty⟩ :=
    exists_faulty_of_duplicate ha hb hds hnew (of_decide_eq_true hknown)
  refine ⟨l, by simp [hls], List.mem_map_of_mem hmem, ?_⟩
  have hc := Line.ofTokens_scan_append_newline a b
  rw [hls, List.map_append, List.map_cons, ← List.append_assoc] at hc
  have htexts : (Line.ofTokens (Token.scan a) ++
      ls₁.map (Line.moved ((Token.scan a).length + 1) (a.byteLength + 1))).map Line.texts =
        linesOf a ++ ls₁.map Line.texts := by
    rw [List.map_append, map_texts_lines, List.map_map]
    exact congrArg _ (List.map_congr_left fun l _ => Line.texts_moved _ _ l)
  rw [← htexts] at hfirst hfaulty
  rw [← Line.texts_moved ((Token.scan a).length + 1) (a.byteLength + 1)] at hfaulty
  rw [parse_of_faulty hc hfirst hfaulty, Line.moved, Token.moved, Nat.add_comm l.start,
    Nat.add_comm l.keyword.offset]
  rfl

end Accepted

/-- **Linking**: parsing two sources with a newline between them. An error of the first source is
the error of both. If both sources are accepted and declare no name both, they make up one program
with the symbols of the first and then those of the second. Otherwise the first symbol of the second
source that has a name of the first is reported as a duplicate, at the first token of its line: at
as many tokens and bytes further on as the first source and the newline have. -/
theorem parse_append_newline (settings : Settings) (a b : Text) :
    (∀ e, parse settings a = .error e → parse settings (a ++ '\n' :: b) = .error e) ∧
      ∀ t u, parse settings a = .ok t → parse settings b = .ok u →
        ((∀ x ∈ u.symbols SymbolTable.root,
            x.id ∉ (t.symbols SymbolTable.root).map Symbol.id) →
          ∃ v, parse settings (a ++ '\n' :: b) = .ok v ∧
            v.symbols SymbolTable.root =
              t.symbols SymbolTable.root ++ u.symbols SymbolTable.root) ∧
        ∀ x, (u.symbols SymbolTable.root).find?
            (·.id ∈ (t.symbols SymbolTable.root).map Symbol.id) = some x →
          ∃ l ∈ Line.ofTokens (Token.scan b),
            x ∈ (declarations l.texts).map (entry SymbolTable.root) ∧
              (Token.scan b)[l.start]? = some l.keyword ∧
              parse settings (a ++ '\n' :: b) =
                .error ⟨.declaration (.duplicate ⟨x.id⟩), (Token.scan a).length + 1 + l.start,
                  a.byteLength + 1 + l.keyword.offset⟩ := by
  refine ⟨fun e h => parse_append_newline_of_error h, fun t u ht hu => ⟨?_, fun x hx => ?_⟩⟩
  · exact parse_append_newline_of_disjoint ht hu
  · obtain ⟨l, hl, hmem, herror⟩ := parse_append_newline_of_duplicate ht hu hx
    exact ⟨l, hl, hmem, Line.getElem?_start hl, herror⟩

/-- The second line of the second source takes the name of an array of the first. Ten tokens and 25
bytes are before it. -/
theorem parse_append_newline_taken :
    parse .default ("var x y[2] // ab".toList ++ '\n' :: "inc x 1\nvar z Y".toList) =
      .error ⟨.declaration (.duplicate ⟨"y".toList⟩), 10, 25⟩ := by
  obtain ⟨-, haccepted⟩ :=
    parse_append_newline .default "var x y[2] // ab".toList "inc x 1\nvar z Y".toList
  obtain ⟨-, hduplicate⟩ := haccepted
    (tableOf true [⟨"x".toList, none⟩, ⟨"y".toList, some "[2]".toList⟩])
    (tableOf true [⟨"z".toList, none⟩, ⟨"Y".toList, none⟩]) (by decide +kernel) (by decide +kernel)
  obtain ⟨l, hl, hmem, -, herror⟩ :=
    hduplicate ⟨"y".toList, none, none, some 0⟩ (by decide +kernel)
  have hlines : Line.ofTokens (Token.scan "inc x 1\nvar z Y".toList) =
      [⟨0, ⟨"inc".toList, 0⟩, [⟨"x".toList, 4⟩, ⟨"1".toList, 6⟩]⟩,
        ⟨4, ⟨"var".toList, 8⟩, [⟨"z".toList, 12⟩, ⟨"Y".toList, 14⟩]⟩] := by decide +kernel
  have hl' : l = ⟨4, ⟨"var".toList, 8⟩, [⟨"z".toList, 12⟩, ⟨"Y".toList, 14⟩]⟩ := by
    rw [hlines] at hl
    rcases List.mem_cons.1 hl with rfl | hl
    · exact absurd hmem (by decide +kernel)
    · exact List.mem_singleton.1 hl
  rw [herror, hl']
  decide +kernel

end Program

end LineLang
