import LineLang.Proofs.Program

/-!
# Programs have one scope

A program has no instruction that makes a scope or goes to another one. All its declarations go
through the root to the root, and whether tables collapse makes no difference to it.

About `Parser.parse`, with and without `collapse_to_global`.

* `Settings.withCollapses`, `SymbolTable.withCollapses`: the other choice of collapsing.
* `SymbolTable.OnlyRoot`: a table with the root and no other scope.
* `Program.State.AtRoot`: parsing is at the root of such a table.
* `Program.Alike`: two tables that cannot be told apart.

Results:
* `add_withCollapses`, `step_withCollapses`, `parse_withCollapses`: one declaration, one line and a
  whole source with the other choice.
* `AtRoot.step`, `AtRoot.run`: parsing stays at the root.
* `parse_collapses_irrelevant`: parsing with both choices.
-/

namespace LineLang

/-! ## The other choice -/

/-- The settings with a choice of collapsing. -/
def Settings.withCollapses (settings : Settings) (c : Bool) : Settings :=
  { settings with collapses := c }

/-- The same ranges of sizes are usable with both choices. -/
theorem Settings.build_withCollapses (b c : Bool) (least most : UInt64) :
    build c least most = (build b least most).map (·.withCollapses c) := by
  unfold build
  split
  · split <;> rfl
  · rfl

namespace SymbolTable

/-- The table with a choice of collapsing. -/
def withCollapses (t : SymbolTable) (c : Bool) : SymbolTable := { t with collapses := c }

/-- A table with the root and no other scope. -/
def OnlyRoot (t : SymbolTable) : Prop := ∃ r, t.scopes = [r] ∧ r.parent = none

variable {t u : SymbolTable} {x : Symbol}

theorem find?_withCollapses (t : SymbolTable) (c : Bool) (s : Nat) (name : Text) :
    (t.withCollapses c).find? s name = t.find? s name := by
  have hparent : ∀ s, (t.withCollapses c).parent? s = t.parent? s := fun _ => rfl
  rw [find?, find?, chain_congr hparent]
  rfl

/-- Through the root a symbol goes to the root with both choices. -/
theorem add_withCollapses (t : SymbolTable) (c : Bool) (x : Symbol) :
    (t.withCollapses c).add root x = (t.add root x).map fun p => (p.1.withCollapses c, p.2) := by
  unfold add
  rw [find?_withCollapses, effectiveScope_root, effectiveScope_root]
  cases t.find? root x.id <;> rfl

theorem onlyRoot_new (c : Bool) : (new c).OnlyRoot := ⟨_, rfl, rfl⟩

theorem OnlyRoot.add (h : t.OnlyRoot) {target : Nat} (hadd : t.add root x = .ok (u, target)) :
    u.OnlyRoot := by
  obtain ⟨r, hscopes, hparent⟩ := h
  unfold SymbolTable.add at hadd
  rw [effectiveScope_root] at hadd
  split at hadd
  · cases hadd
  · obtain ⟨rfl, -⟩ := Prod.mk.inj (Except.ok.inj hadd)
    exact ⟨r.put (x.storedIn root), by simp only [hscopes]; rfl, hparent⟩

/-- Two tables with the root alone that hold the same, and so are shown alike and answer alike. -/
structure Alike (t u : SymbolTable) : Prop where
  onlyRoot : t.OnlyRoot
  scopes : u.scopes = t.scopes
  symbols : u.symbols root = t.symbols root
  render : u.render = t.render
  size : u.size = t.size
  findGlobal? : ∀ name, u.findGlobal? name = t.findGlobal? name

theorem OnlyRoot.alike (h : t.OnlyRoot) (c : Bool) : t.Alike (t.withCollapses c) :=
  ⟨h, rfl, rfl, rfl, rfl, find?_withCollapses t c root⟩

end SymbolTable

open SymbolTable (root)

variable {settings : Settings} {t : SymbolTable} {c : Bool}

namespace Declaration

theorem declare_withCollapses (settings : Settings) (c : Bool) (t : SymbolTable) (d : Declaration) :
    declare (settings.withCollapses c) root (t.withCollapses c) d =
      (declare settings root t d).map (·.withCollapses c) := by
  have hsymbol : d.symbol (settings.withCollapses c) = d.symbol settings := rfl
  unfold declare
  rw [hsymbol]
  cases d.symbol settings with
  | error fault => rfl
  | ok x =>
    simp only [SymbolTable.add_withCollapses]
    cases t.add root x <;> rfl

theorem declareAll_withCollapses (settings : Settings) (c : Bool) (t : SymbolTable)
    (ds : List Declaration) :
    declareAll (settings.withCollapses c) root (t.withCollapses c) ds =
      ((declareAll settings root t ds).1.withCollapses c, (declareAll settings root t ds).2) := by
  induction ds generalizing t with
  | nil => rfl
  | cons d ds ih =>
    rw [declareAll, declareAll, declare_withCollapses]
    cases declare settings root t d with
    | error fault => rfl
    | ok u => exact ih u

theorem onlyRoot_declare (h : t.OnlyRoot) {u : SymbolTable} {d : Declaration}
    (hdeclare : declare settings root t d = .ok u) : u.OnlyRoot := by
  unfold declare at hdeclare
  split at hdeclare
  · cases hdeclare
  · split at hdeclare
    · cases hdeclare
    · rename_i hadd
      obtain rfl := Except.ok.inj hdeclare
      exact h.add hadd

theorem onlyRoot_declareAll (h : t.OnlyRoot) (settings : Settings) (ds : List Declaration) :
    (declareAll settings root t ds).1.OnlyRoot := by
  induction ds generalizing t with
  | nil => exact h
  | cons d ds ih =>
    rw [declareAll]
    split
    · rename_i hdeclare
      exact ih (onlyRoot_declare h hdeclare)
    · exact h

end Declaration

namespace Instruction

theorem apply_withCollapses (i : Instruction) (settings : Settings) (c : Bool) (ps : List Token)
    (t : SymbolTable) :
    i.apply (settings.withCollapses c) ps root (t.withCollapses c) =
      ((i.apply settings ps root t).1.withCollapses c, (i.apply settings ps root t).2) := by
  rw [apply_eq, apply_eq, Declaration.declareAll_withCollapses]
  rcases Declaration.declareAll settings root t (i.declarations ps) with ⟨u, _ | f⟩ <;> rfl

theorem onlyRoot_apply (h : t.OnlyRoot) (i : Instruction) (settings : Settings) (ps : List Token) :
    (i.apply settings ps root t).1.OnlyRoot := by
  have hall := Declaration.onlyRoot_declareAll h settings (i.declarations ps)
  rw [apply_eq]
  split <;> rename_i heq <;> rwa [heq] at hall

/-- An instruction hands on the scope that it was given. -/
theorem eq_of_apply {i : Instruction} {ps : List Token} {s s' : Nat} {u : SymbolTable}
    (h : i.apply settings ps s t = (u, .ok s')) : s' = s := by
  rw [apply_eq] at h
  split at h
  · exact (Except.ok.inj (Prod.mk.inj h).2).symm
  · cases (Prod.mk.inj h).2

end Instruction

namespace Program

/-! ## Runs -/

/-- **Parsing is at the root** of a table with no other scope. -/
structure State.AtRoot (s : State) : Prop where
  scope : s.scope = root
  onlyRoot : s.table.OnlyRoot

/-- The state with a choice of collapsing. -/
def State.withCollapses (s : State) (c : Bool) : State := ⟨s.table.withCollapses c, s.scope⟩

variable {s s' : State} {l : Line} {ls : List Line}

theorem atRoot_initial (settings : Settings) : (State.initial settings).AtRoot :=
  ⟨rfl, SymbolTable.onlyRoot_new _⟩

/-- One line leaves parsing at the root. -/
theorem State.AtRoot.step (h : s.AtRoot) (hstep : step settings s l = .ok s') : s'.AtRoot := by
  obtain ⟨t, scope⟩ := s
  obtain ⟨rfl, honly⟩ := h
  unfold Program.step at hstep
  split at hstep
  · cases hstep
  · rename_i i _
    have happly := Instruction.onlyRoot_apply honly i settings l.parameters
    split at hstep
    · rename_i heq
      obtain rfl := Except.ok.inj hstep
      rw [heq] at happly
      exact ⟨Instruction.eq_of_apply heq, happly⟩
    · cases hstep

/-- **Parsing stays at the root**, line by line. -/
theorem State.AtRoot.run (h : s.AtRoot) (hrun : run settings s ls = .ok s') : s'.AtRoot := by
  induction ls generalizing s with
  | nil =>
    obtain rfl := Except.ok.inj hrun
    exact h
  | cons l ls ih =>
    rw [Program.run] at hrun
    split at hrun
    · rename_i hstep
      exact ih (h.step hstep) hrun
    · cases hrun

/-- **One line with the other choice** leaves the same, or has the same fault. -/
theorem step_withCollapses (h : s.AtRoot) (settings : Settings) (c : Bool) (l : Line) :
    step (settings.withCollapses c) (s.withCollapses c) l =
      (step settings s l).map (·.withCollapses c) := by
  obtain ⟨t, scope⟩ := s
  obtain ⟨rfl, -⟩ := h
  unfold step
  cases instruction? l with
  | none => rfl
  | some i =>
    simp only [State.withCollapses, Instruction.apply_withCollapses]
    rcases i.apply settings l.parameters root t with ⟨u, _ | scope⟩ <;> rfl

/-- **Lines with the other choice**, by induction: parsing is at the root before each of them. -/
theorem run_withCollapses (h : s.AtRoot) (settings : Settings) (c : Bool) (ls : List Line) :
    run (settings.withCollapses c) (s.withCollapses c) ls =
      (run settings s ls).map (·.withCollapses c) := by
  induction ls generalizing s with
  | nil => rfl
  | cons l ls ih =>
    rw [run, run, step_withCollapses h]
    cases hstep : step settings s l with
    | error e => rfl
    | ok s' => exact ih (h.step hstep)

/-! ## Whole sources -/

/-- **A source with the other choice** has the same table but for this choice, or the same error. -/
theorem parse_withCollapses (settings : Settings) (c : Bool) (source : Text) :
    parse (settings.withCollapses c) source = (parse settings source).map (·.withCollapses c) := by
  have hinitial : State.initial (settings.withCollapses c) =
      (State.initial settings).withCollapses c := rfl
  rw [parse, parse, hinitial, run_withCollapses (atRoot_initial settings)]
  cases run settings (State.initial settings) (Line.ofTokens (Token.scan source)) <;> rfl

theorem onlyRoot_of_parse {source : Text} (h : parse settings source = .ok t) : t.OnlyRoot := by
  unfold parse at h
  split at h
  · rename_i hrun
    obtain rfl := Except.ok.inj h
    exact ((atRoot_initial settings).run hrun).onlyRoot
  · cases h

/-- **Whether tables collapse makes no difference to a program.** With both choices a source is
accepted, and the tables have the root alone and hold the same; or it is refused with one error. At
every time of the run parsing is at the root, for whatever line comes next. -/
theorem parse_collapses_irrelevant (settings : Settings) (source : Text) :
    ((∃ t u, parse (settings.withCollapses true) source = .ok t ∧
        parse (settings.withCollapses false) source = .ok u ∧ t.Alike u) ∨
      ∃ e, parse (settings.withCollapses true) source = .error e ∧
        parse (settings.withCollapses false) source = .error e) ∧
      ∀ (c : Bool) (before : List Line) (s : State),
        before <+: Line.ofTokens (Token.scan source) →
          run (settings.withCollapses c) (.initial (settings.withCollapses c)) before = .ok s →
            s.AtRoot := by
  refine ⟨?_, fun c before s _ hrun => (atRoot_initial _).run hrun⟩
  have hfalse := parse_withCollapses (settings.withCollapses true) false source
  cases htrue : parse (settings.withCollapses true) source with
  | ok t =>
    rw [htrue] at hfalse
    exact Or.inl ⟨t, _, rfl, hfalse, (onlyRoot_of_parse htrue).alike false⟩
  | error e =>
    rw [htrue] at hfalse
    exact Or.inr ⟨e, rfl, hfalse⟩

/-- The third line is refused; before it parsing is at the root, and `x` is in the table. -/
theorem parse_collapses_irrelevant_third :
    ∃ s, run (Settings.default.withCollapses false)
        (.initial (Settings.default.withCollapses false))
        ((Line.ofTokens (Token.scan "var x\nset x 1\nvar X".toList)).take 2) = .ok s ∧
      s.table = tableOf false [⟨"x".toList, none⟩] ∧ s.AtRoot := by
  obtain ⟨-, hroot⟩ := parse_collapses_irrelevant .default "var x\nset x 1\nvar X".toList
  have htable : (run (Settings.default.withCollapses false)
      (.initial (Settings.default.withCollapses false))
      ((Line.ofTokens (Token.scan "var x\nset x 1\nvar X".toList)).take 2)).map State.table =
        .ok (tableOf false [⟨"x".toList, none⟩]) := by decide +kernel
  cases hrun : run (Settings.default.withCollapses false)
      (.initial (Settings.default.withCollapses false))
      ((Line.ofTokens (Token.scan "var x\nset x 1\nvar X".toList)).take 2) with
  | error e =>
    rw [hrun] at htable
    cases htable
  | ok s =>
    rw [hrun] at htable
    exact ⟨s, rfl, Except.ok.inj htable, hroot false _ s (List.take_prefix 2 _) hrun⟩

end Program

end LineLang
