import LineLang.Proofs.LetterCase
import LineLang.Proofs.Position
import LineLang.Proofs.Program

/-!
# Sources in other letter case

The letters of a source may be written in either case, but for those of the words that lines begin
with. Names are compared in lower case, numbers have no letters, and comments are left out, so
nothing that parsing does depends on the case of the others: not the table, and not what is wrong or
where.

About `Instruction.apply` and `Parser.parse`.

* `Line.foldParameters`: a line with the letters of its parameters in lower case.
* `Recased`: what it is to be a source in other case.

Results:
* `declareAll_congr`: what a row of declarations does depends on their symbols alone.
* `validates_foldCase`, `apply_foldCase`: instructions with parameters in lower case.
* `step_foldParameters`, `run_foldParameters`: lines with parameters in lower case.
* `map_foldParameters`: the lines of a source in other case.
* `parse_of_recased`: parsing a source in other case.
-/

namespace LineLang

/-! ## Declarations -/

namespace Declaration

variable {settings : Settings} {scope : Nat}

/-- **What a row of declarations does depends on their symbols alone.** -/
theorem declareAll_congr {ds es : List Declaration}
    (h : es.map (symbol settings) = ds.map (symbol settings)) (t : SymbolTable) :
    declareAll settings scope t es = declareAll settings scope t ds := by
  induction ds generalizing es t with
  | nil =>
    rw [List.map_eq_nil_iff.1 h]
  | cons d ds ih =>
    obtain ⟨e, es, rfl, he, hes⟩ := List.map_eq_cons_iff.1 h
    have hdeclare : declare settings scope t e = declare settings scope t d := by
      rw [declare, declare, he]
    rw [declareAll, declareAll, hdeclare]
    cases declare settings scope t d with
    | ok u => exact ih hes u
    | error fault => rfl

/-- The same name in any case, and the same suffix, make the same symbol. -/
theorem symbol_congr {d e : Declaration}
    (hname : Symbol.normalize e.name = Symbol.normalize d.name) (hsuffix : e.suffix = d.suffix) :
    e.symbol settings = d.symbol settings := by
  have hsymbol : Symbol.ofName e.name = Symbol.ofName d.name := by
    rw [Symbol.ofName, Symbol.ofName, hname]
  rw [symbol, symbol, hsymbol, hsuffix]

theorem leadingSuffix?_foldCase (ts : List Token) :
    leadingSuffix? (ts.map Token.foldCase) = leadingSuffix? ts := by
  cases ts with
  | nil => rfl
  | cons k ts =>
    rw [List.map_cons, leadingSuffix?, leadingSuffix?, Token.is_foldCase]
    split
    · rename_i hk
      exact congrArg some (Category.foldCase_of_sizeSuffix (Category.accepts_iff.1 hk))
    · rfl

/-- Parameters declare the same symbols in any case. -/
theorem map_symbol_ofTokens_foldCase (ts : List Token) :
    (ofTokens (ts.map Token.foldCase)).map (symbol settings) =
      (ofTokens ts).map (symbol settings) := by
  induction ts with
  | nil => rfl
  | cons k ts ih =>
    rw [List.map_cons, ofTokens, ofTokens, Token.is_foldCase, leadingSuffix?_foldCase]
    split
    · rename_i hk
      rw [List.map_cons, List.map_cons, ih]
      exact congrArg (· :: _)
        (symbol_congr (Category.normalize_foldCase (Category.accepts_iff.1 hk)) rfl)
    · exact ih

end Declaration

/-! ## Instructions and lines -/

namespace Instruction

theorem fits_foldCase (cs : List Category) (ts : List Token) :
    fits cs (ts.map Token.foldCase) = fits cs ts := by
  induction cs generalizing ts with
  | nil => cases ts <;> rfl
  | cons c cs ih =>
    cases ts with
    | nil => rfl
    | cons k ts => rw [List.map_cons, fits, fits, Token.is_foldCase, ih]

theorem validates_foldCase (i : Instruction) (ps : List Token) :
    i.validates (ps.map Token.foldCase) = i.validates ps := by
  unfold validates
  split
  · exact fits_foldCase _ ps
  · rw [List.all_map]
    exact congrArg ps.all (funext fun k => by simp only [Function.comp, Token.is_foldCase])

theorem apply_foldCase (i : Instruction) (settings : Settings) (ps : List Token) (scope : Nat)
    (t : SymbolTable) :
    i.apply settings (ps.map Token.foldCase) scope t = i.apply settings ps scope t := by
  cases i with
  | var =>
    rw [apply, apply,
      Declaration.declareAll_congr (Declaration.map_symbol_ofTokens_foldCase ps) t]
  | set => rfl
  | inc => rfl

end Instruction

/-- A line with the letters of its parameters in lower case. -/
def Line.foldParameters (l : Line) : Line :=
  ⟨l.start, l.keyword, l.parameters.map Token.foldCase⟩

namespace Program

variable {settings : Settings} {a b : Text}

theorem instruction?_foldParameters (l : Line) : instruction? l.foldParameters = instruction? l := by
  have hvalidates : (·.validates l.foldParameters.parameters) =
      fun i : Instruction => i.validates l.parameters :=
    funext fun i => i.validates_foldCase l.parameters
  rw [instruction?, instruction?, hvalidates]
  rfl

/-- One line does the same with its parameters in lower case. -/
theorem step_foldParameters (s : State) (l : Line) :
    step settings s l.foldParameters = step settings s l := by
  rw [step, step, instruction?_foldParameters]
  cases instruction? l with
  | none => rfl
  | some i => simp only [Line.foldParameters, Instruction.apply_foldCase]

/-- **Lines do the same with their parameters in lower case.** -/
theorem run_foldParameters (s : State) (ls : List Line) :
    run settings s (ls.map Line.foldParameters) = run settings s ls := by
  induction ls generalizing s with
  | nil => rfl
  | cons l ls ih =>
    rw [List.map_cons, run, run, step_foldParameters]
    cases step settings s l with
    | ok s => exact ih s
    | error e => rfl

end Program

/-! ## Keywords -/

/-- As many bytes are as many characters in any case. -/
theorem Text.length_eq_of_foldCase {t t' u u' : Text}
    (h : foldCase (t' ++ u') = foldCase (t ++ u)) (hbytes : t'.byteLength = t.byteLength) :
    t'.length = t.length := by
  have htake := congrArg (takeBytes t.byteLength) h
  rw [foldCase_append, foldCase_append, ← byteLength_foldCase t, takeBytes_append,
    byteLength_foldCase, ← hbytes, ← byteLength_foldCase t', takeBytes_append] at htake
  simpa using congrArg List.length htake

/-- A token covers all of its characters. -/
theorem Token.covers_of_lt {k : Token} {before after : Text} {i : Nat}
    (hoffset : k.offset = before.byteLength) (hi : i < k.text.length) :
    k.Covers (Text.byteLength ((before ++ (k.text ++ after)).take (before.length + i))) := by
  have hrest := Text.byteLength_pos (List.drop_eq_nil_iff.not.2 (Nat.not_le.2 hi))
  have htotal := congrArg Text.byteLength (List.take_append_drop i k.text)
  rw [Text.byteLength_append] at htotal
  rw [List.take_length_add_append, List.take_append_of_le_length hi.le, Text.byteLength_append]
  constructor
  · omega
  · rw [stop, length]
    omega

/-! ## Sources -/

/-- **A source in other case**: the case of ASCII letters is all that is changed, and the words that
lines begin with are kept as they are. -/
structure Recased (a b : Text) : Prop where
  letters : b.map Char.toLower = a.map Char.toLower
  keywords : ∀ l ∈ Line.ofTokens (Token.scan a), ∀ i < a.length,
    l.keyword.Covers (Text.byteLength (a.take i)) → b[i]? = a[i]?

/-- Rows that one function cannot tell apart are not told apart by a coarser one. -/
theorem map_eq_of_map_eq {α β γ : Type} {f : α → β} {g : α → γ} {xs ys : List α}
    (h : ys.map f = xs.map f) (hg : ∀ x ∈ xs, ∀ y ∈ ys, f y = f x → g y = g x) :
    ys.map g = xs.map g := by
  induction xs generalizing ys with
  | nil => rw [List.map_eq_nil_iff.1 h]
  | cons x xs ih =>
    obtain ⟨y, ys, rfl, hy, hys⟩ := List.map_eq_cons_iff.1 h
    rw [List.map_cons, List.map_cons, hg x List.mem_cons_self y List.mem_cons_self hy,
      ih hys fun x' hx' y' hy' =>
        hg x' (List.mem_cons_of_mem x hx') y' (List.mem_cons_of_mem y hy')]

namespace Recased

variable {a b : Text} {l l' : Line}

theorem foldCase_eq (h : Recased a b) : Text.foldCase b = Text.foldCase a := h.letters

/-- **Keywords are kept**: all characters of a keyword are, and it is in its place in both
sources. -/
theorem keyword_eq (h : Recased a b) (hl : l ∈ Line.ofTokens (Token.scan a))
    (hl' : l' ∈ Line.ofTokens (Token.scan b))
    (hkeyword : l'.keyword.foldCase = l.keyword.foldCase) : l'.keyword = l.keyword := by
  obtain ⟨before, after, ha, ho, -⟩ := (Cursor.scanned_tokens 0 a).taken
    (List.mem_of_getElem? (Line.getElem?_start hl))
  obtain ⟨before', after', hb, ho', -⟩ := (Cursor.scanned_tokens 0 b).taken
    (List.mem_of_getElem? (Line.getElem?_start hl'))
  rw [Nat.zero_add] at ho ho'
  obtain ⟨hfold, hoffset⟩ := Token.mk.inj hkeyword
  have hlength : l'.keyword.text.length = l.keyword.text.length := by
    simpa using congrArg List.length hfold
  have hbefore : before'.length = before.length :=
    Text.length_eq_of_foldCase (hb ▸ ha ▸ h.foldCase_eq) (by omega)
  have htext : l'.keyword.text = l.keyword.text := by
    refine List.ext_getElem? fun i => ?_
    by_cases hi : i < l.keyword.text.length
    · have hkept := h.keywords l hl (before.length + i) (by simp [ha]; omega)
        (ha ▸ Token.covers_of_lt ho hi)
      rwa [hb, ← hbefore, List.getElem?_append_right (by omega), Nat.add_sub_cancel_left,
        List.getElem?_append_left (hlength ▸ hi), ha, hbefore,
        List.getElem?_append_right (by omega), Nat.add_sub_cancel_left,
        List.getElem?_append_left hi] at hkept
    · rw [List.getElem?_eq_none (by omega), List.getElem?_eq_none (by omega)]
  exact congrArg₂ Token.mk htext hoffset

/-- **The lines of a source in other case** differ by the case of their parameters alone. -/
theorem map_foldParameters (h : Recased a b) :
    (Line.ofTokens (Token.scan b)).map Line.foldParameters =
      (Line.ofTokens (Token.scan a)).map Line.foldParameters := by
  have hfold : (Line.ofTokens (Token.scan b)).map Line.foldCase =
      (Line.ofTokens (Token.scan a)).map Line.foldCase := by
    rw [← Line.ofTokens_foldCase, ← Token.scan_foldCase, h.foldCase_eq, Token.scan_foldCase,
      Line.ofTokens_foldCase]
  refine map_eq_of_map_eq hfold fun l hl l' hl' heq => ?_
  obtain ⟨(hstart : l'.start = l.start), hkeyword, hparameters⟩ := Line.mk.inj heq
  rw [Line.foldParameters, Line.foldParameters, hstart, h.keyword_eq hl hl' hkeyword, hparameters]

end Recased

namespace Program

/-- **Parsing is blind to the case of all letters but those of keywords.** A source in other case
has the same table, or the same is wrong at the same place. -/
theorem parse_of_recased (settings : Settings) {a b : Text} (h : Recased a b) :
    parse settings b = parse settings a := by
  rw [parse, parse, ← run_foldParameters, h.map_foldParameters, run_foldParameters]

/-- Both sources declare one name twice, in different spellings. -/
theorem parse_of_recased_duplicate :
    let a := "var Foo // Aa\nvar x[2] FOO".toList
    let b := "var fOO // aA\nvar X[2] foo".toList
    Recased a b ∧
      parse .default b = .error ⟨.declaration (.duplicate ⟨"foo".toList⟩), 4, 14⟩ := by
  intro a b
  have h : Recased a b := by
    refine ⟨by decide, ?_⟩
    simp only [Token.Covers]
    decide +kernel
  exact ⟨h, (parse_of_recased .default h).trans (by decide +kernel)⟩

/-- The case of a keyword counts. -/
example : parse .default "Var x".toList = .error ⟨.invalidSyntax, 0, 0⟩ := by decide +kernel

end Program

end LineLang
