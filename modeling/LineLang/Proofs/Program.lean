import LineLang.Proofs.Grammar

/-!
# Parsing programs

Parsing is carried out line by line over a table that is changed as it goes. It accepts exactly the
sources whose lines make up a program, and of all others it reports the first fault.

About `Parser.parse`.

* `tableOf`: the table with nothing but declarations in its root.

Results:
* `step_of_declarable`, `step_of_faulty`: one line.
* `run_append`, `run_of_declarable`, `run_of_faulty`: a row of lines.
* `parse_eq_ok_iff`: the sources that are accepted, and their tables.
* `parse_eq_error_iff`: the sources that are refused, and their errors.
-/

namespace LineLang.Program

open Declaration (Declarable entry)

variable {settings : Settings} {t : SymbolTable} {s : Nat} {f : ProgramFault} {l : Line}
  {ls : List Line}

/-! ## One line -/

/-- A line that is not to blame declares what it says, and the next line goes on in its scope. -/
theorem step_of_declarable (ht : t.Sound) (hs : t.hasScope s = true) (hl : WellFormed l.texts)
    (h : Declarable settings (t.Visible s) (declarations l.texts)) :
    step settings ⟨t, s⟩ l =
      .ok ⟨t.extend (t.effectiveScope s)
        ((declarations l.texts).map (entry (t.effectiveScope s))), s⟩ := by
  obtain ⟨i, hi⟩ := wellFormed_iff.1 hl
  rw [declarations_texts hi] at h ⊢
  rw [step, hi]
  simp only [Instruction.apply_of_declarable ht hs h]

/-- A faulty line gives its fault and its place. -/
theorem step_of_faulty (ht : t.Sound) (hs : t.hasScope s = true)
    (h : Faulty settings (t.Visible s) l.texts f) :
    step settings ⟨t, s⟩ l = .error ⟨f, l.start, l.keyword.offset⟩ := by
  cases h with
  | malformed h =>
    have hnone : instruction? l = none := by
      rw [Option.eq_none_iff_forall_not_mem]
      exact fun i hi => h (wellFormed_iff.2 ⟨i, hi⟩)
    rw [step, hnone]
  | declaration hl hds hbefore hf =>
    obtain ⟨i, hi⟩ := wellFormed_iff.1 hl
    rw [declarations_texts hi] at hds
    rw [step, hi]
    simp only [Instruction.apply_of_fails ht hs hds hbefore hf]

/-! ## Rows of lines -/

/-- Lines are carried out one after another. -/
theorem run_append (settings : Settings) (st : State) (ls ls' : List Line) :
    run settings st (ls ++ ls') = (run settings st ls).bind (run settings · ls') := by
  induction ls generalizing st with
  | nil => rfl
  | cons l ls ih =>
    rw [List.cons_append, run, run]
    cases step settings st l with
    | ok st' => exact ih st'
    | error e => rfl

theorem run_append_of_ok {st st' : State} (h : run settings st ls = .ok st') (ls' : List Line) :
    run settings st (ls ++ ls') = run settings st' ls' := by
  rw [run_append, h]
  rfl

/-- **Lines that are not to blame** declare what they say, one after another. -/
theorem run_of_declarable (ht : t.Sound) (hs : t.hasScope s = true)
    (hls : ∀ l ∈ ls.map Line.texts, WellFormed l)
    (h : Declarable settings (t.Visible s) (declarationsOf (ls.map Line.texts))) :
    run settings ⟨t, s⟩ ls =
      .ok ⟨t.extend (t.effectiveScope s)
        ((declarationsOf (ls.map Line.texts)).map (entry (t.effectiveScope s))), s⟩ := by
  induction ls using List.reverseRecOn with
  | nil =>
    rw [List.map_nil, declarationsOf, List.flatMap_nil, List.map_nil, SymbolTable.extend_nil, run]
  | append_singleton ls l ih =>
    rw [List.map_append, List.map_singleton] at hls h ⊢
    rw [List.forall_mem_append, List.forall_mem_singleton] at hls
    rw [declarationsOf_append_singleton] at h ⊢
    obtain ⟨hbefore, hl⟩ := Declaration.declarable_append.1 h
    have hsound := Declaration.sound_declared ht hs hbefore
    rw [← Declaration.visible_declared ht hs] at hl
    rw [run_append_of_ok (ih hls.1 hbefore), run,
      step_of_declarable hsound (by simpa using hs) hls.2 hl]
    simp [run]

/-- **The first faulty line** ends a row of lines. -/
theorem run_of_faulty (ht : t.Sound) (hs : t.hasScope s = true) {after : List Line}
    (hls : ∀ l ∈ ls.map Line.texts, WellFormed l)
    (h : Declarable settings (t.Visible s) (declarationsOf (ls.map Line.texts)))
    (hf : Faulty settings
      (fun k => t.Visible s k ∨ k ∈ declaredNames (ls.map Line.texts)) l.texts f) :
    run settings ⟨t, s⟩ (ls ++ l :: after) = .error ⟨f, l.start, l.keyword.offset⟩ := by
  have hsound := Declaration.sound_declared ht hs h
  rw [declaredNames, ← Declaration.visible_declared ht hs] at hf
  rw [run_append_of_ok (run_of_declarable ht hs hls h), run,
    step_of_faulty hsound (by simpa using hs) hf]

/-! ## Whole sources -/

variable {source : Text}

/-- The table with nothing but declarations in its root. -/
def tableOf (collapses : Bool) (ds : List Declaration) : SymbolTable :=
  ⟨collapses, [⟨none, ds.map fun d => (d.key, d.entry SymbolTable.root)⟩]⟩

theorem symbols_tableOf (collapses : Bool) (ds : List Declaration) :
    (tableOf collapses ds).symbols SymbolTable.root = ds.map (entry SymbolTable.root) := by
  rw [SymbolTable.symbols_eq, tableOf, SymbolTable.entries]
  simp [SymbolTable.root, Function.comp_def]

theorem ids_tableOf (collapses : Bool) (ds : List Declaration) :
    ((tableOf collapses ds).symbols SymbolTable.root).map Symbol.id = ds.map Declaration.key := by
  rw [symbols_tableOf, Declaration.map_id_entry]

theorem extend_new (collapses : Bool) (ds : List Declaration) :
    (SymbolTable.new collapses).extend SymbolTable.root (ds.map (entry SymbolTable.root)) =
      tableOf collapses ds := by
  rw [tableOf, SymbolTable.extend, List.map_map]
  rfl

theorem visible_new (collapses : Bool) :
    (SymbolTable.new collapses).Visible SymbolTable.root = fun _ => False := by
  funext k
  exact eq_false (SymbolTable.not_visible_new collapses SymbolTable.root k)

theorem parse_of_acceptable (h : Acceptable settings (linesOf source)) :
    parse settings source =
      .ok (tableOf settings.collapses (declarationsOf (linesOf source))) := by
  obtain ⟨hls, hds⟩ := acceptable_iff.1 h
  rw [← map_texts_lines] at hls hds ⊢
  rw [← visible_new settings.collapses] at hds
  rw [parse, State.initial, run_of_declarable (SymbolTable.sound_new _) rfl hls hds,
    SymbolTable.effectiveScope_root, extend_new]

theorem parse_of_faulty {before after : List Line}
    (hsource : Line.ofTokens (Token.scan source) = before ++ l :: after)
    (h : Acceptable settings (before.map Line.texts))
    (hf : Faulty settings (· ∈ declaredNames (before.map Line.texts)) l.texts f) :
    parse settings source = .error ⟨f, l.start, l.keyword.offset⟩ := by
  obtain ⟨hls, hds⟩ := acceptable_iff.1 h
  have hknown : (· ∈ declaredNames (before.map Line.texts)) =
      fun k => (SymbolTable.new settings.collapses).Visible SymbolTable.root k ∨
        k ∈ declaredNames (before.map Line.texts) := by
    simp only [visible_new, false_or]
  rw [hknown] at hf
  rw [← visible_new settings.collapses] at hds
  rw [parse, State.initial, hsource, run_of_faulty (SymbolTable.sound_new _) rfl hls hds hf]

/-- A source has acceptable lines, or a first one with a fault. -/
theorem source_acceptable_or_faulty (settings : Settings) (source : Text) :
    Acceptable settings (linesOf source) ∨
      ∃ before l after f, Line.ofTokens (Token.scan source) = before ++ l :: after ∧
        Acceptable settings (before.map Line.texts) ∧
        Faulty settings (· ∈ declaredNames (before.map Line.texts)) l.texts f := by
  rw [← map_texts_lines]
  rcases acceptable_or_faulty settings ((Line.ofTokens (Token.scan source)).map Line.texts) with
    h | ⟨before, l, after, f, hlines, h, hf⟩
  · exact Or.inl h
  · obtain ⟨before, rest, hsource, rfl, hrest⟩ := List.map_eq_append_iff.1 hlines
    obtain ⟨l, after, rfl, rfl, -⟩ := List.map_eq_cons_iff.1 hrest
    exact Or.inr ⟨before, l, after, f, hsource, h, hf⟩

/-- A source that is parsed has acceptable lines, and the table holds what they declare. -/
theorem acceptable_of_parse {t : SymbolTable} (h : parse settings source = .ok t) :
    Acceptable settings (linesOf source) ∧
      t = tableOf settings.collapses (declarationsOf (linesOf source)) := by
  rcases source_acceptable_or_faulty settings source with
    hacceptable | ⟨before, l, after, f, hsource, hbefore, hf⟩
  · rw [parse_of_acceptable hacceptable] at h
    exact ⟨hacceptable, (Except.ok.inj h).symm⟩
  · rw [parse_of_faulty hsource hbefore hf] at h
    cases h

/-- A source that is not parsed has a first line with a fault, and the error is about that line. -/
theorem faulty_of_parse {e : ProgramError} (h : parse settings source = .error e) :
    ∃ before l after, Line.ofTokens (Token.scan source) = before ++ l :: after ∧
      Acceptable settings (before.map Line.texts) ∧
      Faulty settings (· ∈ declaredNames (before.map Line.texts)) l.texts e.fault ∧
      e.start = l.start ∧ e.offset = l.keyword.offset := by
  rcases source_acceptable_or_faulty settings source with
    hacceptable | ⟨before, l, after, f, hsource, hbefore, hf⟩
  · rw [parse_of_acceptable hacceptable] at h
    cases h
  · rw [parse_of_faulty hsource hbefore hf] at h
    obtain rfl := Except.error.inj h
    exact ⟨before, l, after, hsource, hbefore, hf, rfl, rfl⟩

/-- **Accepted sources**: parsing gives a table exactly if the lines of the source make up a
program. The table has a root with what they declare, in order, and nothing else. -/
theorem parse_eq_ok_iff {t : SymbolTable} :
    parse settings source = .ok t ↔
      Acceptable settings (linesOf source) ∧
        t = tableOf settings.collapses (declarationsOf (linesOf source)) := by
  refine ⟨acceptable_of_parse, ?_⟩
  rintro ⟨hacceptable, rfl⟩
  exact parse_of_acceptable hacceptable

/-- **Refused sources**: parsing gives an error exactly if some line has a fault and the lines
before it make up a program. The error has this fault and the place of this line. The lines are read
off the tokens here, to have their places; without them they are `linesOf source`. -/
theorem parse_eq_error_iff {e : ProgramError} :
    parse settings source = .error e ↔
      ∃ before l after, Line.ofTokens (Token.scan source) = before ++ l :: after ∧
        Acceptable settings (before.map Line.texts) ∧
        Faulty settings (· ∈ declaredNames (before.map Line.texts)) l.texts e.fault ∧
        e.start = l.start ∧ e.offset = l.keyword.offset := by
  refine ⟨faulty_of_parse, ?_⟩
  rintro ⟨before, l, after, hsource, hbefore, hf, hstart, hoffset⟩
  rw [parse_of_faulty hsource hbefore hf, ← hstart, ← hoffset]

/-- The known name and the bad size before the number are not what is wrong with the line. -/
example : parse .default "var x\nvar x a[0] 12".toList = .error ⟨.invalidSyntax, 3, 6⟩ := by
  decide +kernel

end LineLang.Program
