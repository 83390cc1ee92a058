import LineLang.Program
import LineLang.Proofs.Declaration
import LineLang.Proofs.Line
import LineLang.Proofs.Scan

/-!
# The lines of a program

What a program says, line by line and without regard to where anything stands. A source is cut at
its newlines, and each piece is scanned by itself; comments and pieces with nothing else in them do
not count. A line is the row of texts that is left of a piece.

About `Instruction.validate` and what `Parser.parse` reads off a source.

* `linesOf`: the lines of a source.
* `WellFormed`: a line is an instruction with parameters that it takes.
* `declarations`: what a line declares.
* `Acceptable`: lines that make up a program.
* `Faulty`: what is wrong with a line after lines that are not to blame.

Results:
* `map_texts_lines`: reading the tokens of a source line by line gives the lines of the source.
* `wellFormed_iff`: the lines that call for an instruction.
* `acceptable_or_faulty`: lines make up a program, or there is a first one with a fault.
-/

namespace LineLang

/-- The texts of a line's tokens. -/
def Line.texts (l : Line) : List Text := l.tokens.map (·.text)

namespace Program

open Declaration (Declarable Fails)

/-! ## The lines of a source -/

/-- The texts of a row of tokens without its comments. -/
def keptTexts (ts : List Token) : List Text := (Line.withoutComments ts).map (·.text)

/-- The line that a piece of a source makes. -/
def lineOf (piece : Text) : List Text := keptTexts (Token.scan piece)

/-- The lines of a source: those of its pieces between newlines that are not empty. -/
def linesOf (source : Text) : List (List Text) :=
  ((source.splitOn '\n').map lineOf).filter (· ≠ [])

theorem keptTexts_moved (bytes : Nat) (ts : List Token) :
    keptTexts (ts.map (Token.moved bytes)) = keptTexts ts := by
  rw [keptTexts, keptTexts, Line.withoutComments, List.filter_map, List.map_map]
  rfl

theorem keptTexts_tokens (o : Nat) (t : Text) : keptTexts (Cursor.tokens ⟨o, t⟩) = lineOf t := by
  rw [← Nat.zero_add o, Cursor.tokens_add, keptTexts_moved]
  rfl

theorem splitOnP_tokens_of_not_mem {o : Nat} {t : Text} (h : '\n' ∉ t) :
    (Cursor.tokens ⟨o, t⟩).splitOnP (·.is .newline) = [Cursor.tokens ⟨o, t⟩] :=
  List.splitOnP_eq_singleton fun _ hk => Cursor.newline_eq_false_of_mem_tokens h hk

/-- The tokens between newline tokens are those of the pieces between newlines. -/
theorem map_keptTexts_splitOnP (o : Nat) (t : Text) :
    ((Cursor.tokens ⟨o, t⟩).splitOnP (·.is .newline)).map keptTexts =
      (t.splitOn '\n').map lineOf := by
  induction t using Text.newline_induction generalizing o with
  | line t h =>
    rw [splitOnP_tokens_of_not_mem h, List.splitOn_eq_singleton h, List.map_singleton,
      keptTexts_tokens, List.map_singleton]
  | newline a b _ iha ihb =>
    rw [Cursor.tokens_append_newline, List.splitOnP_append_cons _ _ rfl, List.map_append, iha, ihb,
      List.splitOn_append_cons_self, List.map_append]

/-- **Reading the tokens of a source line by line gives its lines.** -/
theorem map_texts_lines (source : Text) :
    (Line.ofTokens (Token.scan source)).map Line.texts = linesOf source := by
  have htexts : Line.texts = List.map Token.text ∘ Line.tokens := rfl
  have hkept : keptTexts = List.map Token.text ∘ Line.withoutComments := rfl
  rw [linesOf, ← map_keptTexts_splitOnP 0, hkept, ← List.map_map, List.filter_map, htexts,
    ← List.map_map, Line.map_tokens_ofTokens]
  refine congrArg _ (List.filter_congr fun ts _ => ?_)
  simp

example : linesOf "var x[2] // room\n\n inc X 1 # more".toList =
    [["var".toList, "x".toList, "[2]".toList], ["inc".toList, "X".toList, "1".toList]] := by
  decide +kernel

/-! ## Instructions -/

/-- A line is an instruction with parameters that it takes. -/
inductive WellFormed : List Text → Prop
  | declare {ps : List Text}
      (h : ∀ p ∈ ps,
        Category.identifier.pattern.Accepts p ∨ Category.sizeSuffix.pattern.Accepts p) :
      WellFormed ("var".toList :: ps)
  | change {word x y : Text} (hword : word = "set".toList ∨ word = "inc".toList)
      (hx : Category.identifier.pattern.Accepts x) (hy : Category.operand.pattern.Accepts y) :
      WellFormed [word, x, y]

/-- The declarations of a row of parameters: every identifier, with the size suffix directly after
it if there is one. -/
def declarationsIn : List Text → List Declaration
  | [] => []
  | p :: ps =>
    if Category.identifier.accepts p then
      ⟨p, ps.head?.filter Category.sizeSuffix.accepts⟩ :: declarationsIn ps
    else
      declarationsIn ps

/-- The declarations of a line. -/
def declarations : List Text → List Declaration
  | [] => []
  | word :: ps => if word = "var".toList then declarationsIn ps else []

theorem declarationsIn_texts (ts : List Token) :
    declarationsIn (ts.map (·.text)) = Declaration.ofTokens ts := by
  induction ts with
  | nil => rfl
  | cons k ts ih =>
    have hsuffix : (ts.map (·.text)).head?.filter Category.sizeSuffix.accepts =
        Declaration.leadingSuffix? ts := by
      cases ts with
      | nil => rfl
      | cons l ts => rfl
    rw [List.map_cons, declarationsIn, Declaration.ofTokens, hsuffix, ih]
    rfl

theorem ofKeyword?_eq_some_iff {word : Text} {i : Instruction} :
    Instruction.ofKeyword? word = some i ↔ word = i.keyword := by
  constructor
  · intro h
    rw [Instruction.ofKeyword?] at h
    have hkeyword := List.find?_some h
    exact (beq_iff_eq.1 hkeyword).symm
  · rintro rfl
    cases i <;> rfl

theorem fits_pair_iff {c d : Category} {ts : List Token} :
    Instruction.fits [c, d] ts = true ↔
      ∃ x y, ts.map (·.text) = [x, y] ∧ c.pattern.Accepts x ∧ d.pattern.Accepts y := by
  match ts with
  | [] => simp [Instruction.fits]
  | [k] => simp [Instruction.fits]
  | [k, l] => simp [Instruction.fits, Token.is, Category.accepts_iff]
  | k :: l :: m :: ts => simp [Instruction.fits]

theorem instruction?_eq_some_iff {l : Line} {i : Instruction} :
    instruction? l = some i ↔ l.keyword.text = i.keyword ∧ i.validates l.parameters = true := by
  rw [instruction?, Option.filter_eq_some_iff, ofKeyword?_eq_some_iff]

theorem validates_var_iff {ts : List Token} :
    Instruction.var.validates ts = true ↔
      ∀ p ∈ ts.map (·.text),
        Category.identifier.pattern.Accepts p ∨ Category.sizeSuffix.pattern.Accepts p := by
  simp only [Instruction.validates, Instruction.shape?, List.all_eq_true, Bool.or_eq_true, Token.is,
    Category.accepts_iff, List.forall_mem_map]

/-- **A line is well-formed exactly if it calls for an instruction** that takes its parameters. -/
theorem wellFormed_iff {l : Line} : WellFormed l.texts ↔ ∃ i, instruction? l = some i := by
  obtain ⟨start, keyword, ps⟩ := l
  have htexts : (Line.mk start keyword ps).texts = keyword.text :: ps.map (·.text) := rfl
  simp only [instruction?_eq_some_iff, htexts]
  constructor
  · intro h
    generalize hline : keyword.text :: ps.map (·.text) = line at h
    cases h with
    | declare h =>
      obtain ⟨hkeyword, rfl⟩ := List.cons.inj hline
      exact ⟨.var, hkeyword, validates_var_iff.2 h⟩
    | change hword hx hy =>
      obtain ⟨rfl, hps⟩ := List.cons.inj hline
      have hfits := fits_pair_iff.2 ⟨_, _, hps, hx, hy⟩
      rcases hword with hword | hword
      · exact ⟨.set, hword, hfits⟩
      · exact ⟨.inc, hword, hfits⟩
  · rintro ⟨i, hkeyword, hvalidates⟩
    rw [hkeyword]
    cases i with
    | var => exact .declare (validates_var_iff.1 hvalidates)
    | set =>
      obtain ⟨x, y, hps, hx, hy⟩ := fits_pair_iff.1 hvalidates
      rw [hps]
      exact .change (Or.inl rfl) hx hy
    | inc =>
      obtain ⟨x, y, hps, hx, hy⟩ := fits_pair_iff.1 hvalidates
      rw [hps]
      exact .change (Or.inr rfl) hx hy

/-- A line declares what its instruction makes of its parameters. -/
theorem declarations_texts {l : Line} {i : Instruction} (h : instruction? l = some i) :
    declarations l.texts = i.declarations l.parameters := by
  obtain ⟨start, keyword, ps⟩ := l
  have hkeyword : keyword.text = i.keyword := (instruction?_eq_some_iff.1 h).1
  have htexts : (Line.mk start keyword ps).texts = keyword.text :: ps.map (·.text) := rfl
  rw [htexts, hkeyword, declarations, declarationsIn_texts]
  cases i <;> rfl

/-! ## Programs -/

/-- The declarations of a row of lines. -/
def declarationsOf (lines : List (List Text)) : List Declaration := lines.flatMap declarations

/-- The names that a row of lines declares. -/
def declaredNames (lines : List (List Text)) : List Text :=
  (declarationsOf lines).map Declaration.key

theorem declarationsOf_append_singleton (lines : List (List Text)) (l : List Text) :
    declarationsOf (lines ++ [l]) = declarationsOf lines ++ declarations l := by
  rw [declarationsOf, List.flatMap_append, List.flatMap_singleton]
  rfl

/-- **Lines that make up a program**: all are well-formed, all sizes are within the settings, and no
name is declared twice. -/
structure Acceptable (settings : Settings) (lines : List (List Text)) : Prop where
  wellFormed : ∀ l ∈ lines, WellFormed l
  sizes : ∀ d ∈ declarationsOf lines, d.Allowed settings
  distinct : (declaredNames lines).Nodup

/-- **What is wrong with a line** where some names are known. A line that is not well-formed has
that fault and no other; in a well-formed one the first declaration that fails is to blame. -/
inductive Faulty (settings : Settings) (known : Text → Prop) (l : List Text) : ProgramFault → Prop
  | malformed (h : ¬ WellFormed l) : Faulty settings known l .invalidSyntax
  | declaration {before after : List Declaration} {d : Declaration} {f : DeclarationFault}
      (h : WellFormed l) (hds : declarations l = before ++ d :: after)
      (hbefore : Declarable settings known before)
      (hf : Fails settings (fun k => known k ∨ k ∈ before.map Declaration.key) d f) :
      Faulty settings known l (.declaration f)

theorem acceptable_iff {settings : Settings} {lines : List (List Text)} :
    Acceptable settings lines ↔
      (∀ l ∈ lines, WellFormed l) ∧
        Declarable settings (fun _ => False) (declarationsOf lines) :=
  ⟨fun h => ⟨h.wellFormed, h.sizes, fun _ _ => id, h.distinct⟩,
    fun h => ⟨h.1, h.2.sizes, h.2.distinct⟩⟩

theorem acceptable_append {settings : Settings} {lines : List (List Text)} {l : List Text} :
    Acceptable settings (lines ++ [l]) ↔
      Acceptable settings lines ∧ WellFormed l ∧
        Declarable settings (· ∈ declaredNames lines) (declarations l) := by
  simp only [acceptable_iff, List.forall_mem_append, List.forall_mem_singleton,
    declarationsOf_append_singleton, Declaration.declarable_append, false_or, declaredNames]
  exact and_and_and_comm

/-- A line goes on, or has a fault. -/
theorem declarable_or_faulty (settings : Settings) (known : Text → Prop) (l : List Text) :
    (WellFormed l ∧ Declarable settings known (declarations l)) ∨
      ∃ f, Faulty settings known l f := by
  by_cases h : WellFormed l
  · rcases Declaration.declarable_or_fails settings known (declarations l) with
      hds | ⟨before, d, after, f, hds, hbefore, hf⟩
    · exact Or.inl ⟨h, hds⟩
    · exact Or.inr ⟨_, .declaration h hds hbefore hf⟩
  · exact Or.inr ⟨_, .malformed h⟩

/-- **Lines make up a program, or there is a first one with a fault.** -/
theorem acceptable_or_faulty (settings : Settings) (lines : List (List Text)) :
    Acceptable settings lines ∨
      ∃ before l after f, lines = before ++ l :: after ∧ Acceptable settings before ∧
        Faulty settings (· ∈ declaredNames before) l f := by
  refine holds_or_first_failure ?_ (fun lines l h => ?_) lines
  · exact ⟨List.forall_mem_nil _, List.forall_mem_nil _, List.nodup_nil⟩
  · rcases declarable_or_faulty settings (· ∈ declaredNames lines) l with hl | hf
    · exact Or.inl (acceptable_append.2 ⟨h, hl⟩)
    · exact Or.inr hf

end Program

end LineLang
