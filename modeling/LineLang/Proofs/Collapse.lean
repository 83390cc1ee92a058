import LineLang.Proofs.Request

/-!
# Collapsing tables

A table that collapses is one flat namespace, however many scopes it has. Which scope a request goes
through makes no difference: not to what the table becomes, nor to what is answered.

About `add_symbol` and `find` of a `SymbolTable` where `collapses_to_global` holds.

* `Request.atRoot`: a request that goes through the root instead.
* `Request.answerAtRoot`: its answer.

Results:
* `Sound.find?_eq_findGlobal?`: lookups from all scopes are lookups from the root.
* `Sound.perform_atRoot`: one request through the root.
* `performAll_atRoot`: runs of requests through the root.
-/

namespace LineLang

/-- The request through the root, if it is to declare a symbol, to apply an instruction or to look a
name up. -/
def Request.atRoot : Request → Request
  | .add _ x => .add SymbolTable.root x
  | .apply _ settings i ps => .apply SymbolTable.root settings i ps
  | .find _ name => .find SymbolTable.root name
  | r => r

/-- The answer to the request through the root. An applied instruction hands on the scope that it
was given; all other answers are the same. -/
def Request.answerAtRoot : Request → Answer → Answer
  | .apply _ _ _ _, .scope _ => .scope SymbolTable.root
  | _, answer => answer

namespace SymbolTable

open LineLang.Symbol (normalize)

variable {t : SymbolTable} {s : Nat}

/-! ## Lookups -/

theorem Sound.stored?_of_ne_root (h : t.Sound) (hc : t.collapses = true)
    (hs : s ≠ SymbolTable.root) (key : Text) : t.stored? s key = none := by
  rw [stored?_eq, h.flat hc s hs, List.lookup_nil]

/-- **Lookups from all scopes are lookups from the root**, since on the way there nothing is
stored. -/
theorem Sound.find?_eq_findGlobal? (h : t.Sound) (hc : t.collapses = true)
    (hs : t.hasScope s = true) (name : Text) : t.find? s name = t.findGlobal? name := by
  induction s using Nat.strongRecOn with
  | ind s ih =>
    rcases h.root_or_parent hs with ⟨rfl, -⟩ | ⟨p, hp, hhas, hparent⟩
    · rfl
    · have hne : s ≠ SymbolTable.root := Nat.ne_of_gt (Nat.lt_of_le_of_lt (Nat.zero_le p) hp)
      rw [find?_of_chain_cons (chain_of_parent hparent hp), h.stored?_of_ne_root hc hne,
        Option.none_or, ih p hp hhas]

theorem effectiveScope_of_collapses (hc : t.collapses = true) (s : Nat) :
    t.effectiveScope s = root := if_pos hc

/-- Visible is what the root stores. -/
theorem Sound.visible_iff_mem_root (h : t.Sound) (hc : t.collapses = true)
    (hs : t.hasScope s = true) {key : Text} :
    t.Visible s key ↔ key ∈ (t.entries SymbolTable.root).map Prod.fst := by
  constructor
  · rintro ⟨u, -, hkey⟩
    by_cases hu : u = SymbolTable.root
    · rwa [hu] at hkey
    · rw [h.flat hc u hu] at hkey
      exact absurd hkey List.not_mem_nil
  · intro hkey
    exact ⟨SymbolTable.root, h.root_mem_chain hs, hkey⟩

/-- The same names are visible from all scopes. -/
theorem Sound.visible_eq_root (h : t.Sound) (hc : t.collapses = true) (hs : t.hasScope s = true) :
    t.Visible s = t.Visible SymbolTable.root := by
  funext key
  exact propext ((h.visible_iff_mem_root hc hs).trans (h.visible_iff_mem_root hc h.root.1).symm)

/-! ## Changes -/

theorem Sound.add_root (h : t.Sound) (hc : t.collapses = true) (hs : t.hasScope s = true)
    (x : Symbol) : t.add SymbolTable.root x = t.add s x := by
  have hfind : t.find? s x.id = t.find? SymbolTable.root x.id := h.find?_eq_findGlobal? hc hs x.id
  unfold add
  rw [hfind, effectiveScope_of_collapses hc, effectiveScope_of_collapses hc]

/-- What is added goes to the root. -/
theorem eq_root_of_add (hc : t.collapses = true) {x : Symbol} {u : SymbolTable} {target : Nat}
    (h : t.add s x = .ok (u, target)) : target = root := by
  unfold add at h
  split at h
  · cases h
  · obtain ⟨-, rfl⟩ := Prod.mk.inj (Except.ok.inj h)
    exact effectiveScope_of_collapses hc s

/-- An instruction makes the same declarations through the root, and hands the root on. -/
theorem Sound.apply_root (h : t.Sound) (hc : t.collapses = true) (hs : t.hasScope s = true)
    (i : Instruction) (settings : Settings) (ps : List Token) :
    i.apply settings ps SymbolTable.root t =
      ((i.apply settings ps s t).1,
        (i.apply settings ps s t).2.map fun _ => SymbolTable.root) := by
  have hvisible := h.visible_eq_root hc hs
  have hscope : t.effectiveScope SymbolTable.root = t.effectiveScope s := by
    rw [effectiveScope_of_collapses hc, effectiveScope_of_collapses hc]
  rcases Declaration.declarable_or_fails settings (t.Visible s) (i.declarations ps) with
    hds | ⟨before, d, after, f, hds, hbefore, hf⟩
  · have hds' := hvisible ▸ hds
    rw [Instruction.apply_of_declarable h hs hds, Instruction.apply_of_declarable h h.root.1 hds',
      hscope]
    rfl
  · have hbefore' := hvisible ▸ hbefore
    have hf' := hvisible ▸ hf
    rw [Instruction.apply_of_fails h hs hds hbefore hf,
      Instruction.apply_of_fails h h.root.1 hds hbefore' hf', hscope]
    rfl

/-! ## Requests -/

theorem Sound.performApply_root (h : t.Sound) (hc : t.collapses = true) (hs : t.hasScope s = true)
    (settings : Settings) (i : Instruction) (ps : List Token) :
    t.performApply SymbolTable.root settings i ps =
      ((t.performApply s settings i ps).1,
        Request.answerAtRoot (.apply s settings i ps) (t.performApply s settings i ps).2) := by
  unfold performApply
  rw [h.apply_root hc hs]
  obtain ⟨u, _ | _⟩ := i.apply settings ps s t <;> rfl

/-- **A request through the root** leaves the same table and has the same answer. -/
theorem Sound.perform_atRoot (h : t.Sound) (hc : t.collapses = true) {r : Request}
    (hs : t.hasScope r.scope = true) :
    t.perform r.atRoot = ((t.perform r).1, r.answerAtRoot (t.perform r).2) := by
  have hroot : t.hasScope r.atRoot.scope = true := by
    cases r with
    | add | apply | find => exact h.root.1
    | _ => exact hs
  rw [perform_of_hasScope hroot, perform_of_hasScope hs]
  cases r with
  | add s x =>
    rw [Request.atRoot, performHere, performAdd, h.add_root hc hs]
    rfl
  | apply s settings i ps => exact h.performApply_root hc hs settings i ps
  | find s name =>
    have hfind : t.find? s name = t.findGlobal? name := h.find?_eq_findGlobal? hc hs name
    rw [performHere, hfind]
    rfl
  | _ => rfl

/-- A request that is not refused for its scope goes through a scope of the table. -/
theorem hasScope_of_ne_noSuchScope {r : Request}
    (h : (t.perform r).2 ≠ .refused .noSuchScope) : t.hasScope r.scope = true := by
  by_contra hs
  rw [perform, if_neg hs] at h
  exact h rfl

/-! ## Runs -/

/-- **A run through the root** leaves the same table and has the same answers, by induction on the
requests: every one of them finds the same table in both runs. -/
theorem Sound.performAll_atRoot (h : t.Sound) (hc : t.collapses = true) {rs : List Request}
    (hrs : ∀ r ∈ rs, r.Named) (hscopes : .refused .noSuchScope ∉ (t.performAll rs).2) :
    t.performAll (rs.map Request.atRoot) =
      ((t.performAll rs).1, List.zipWith Request.answerAtRoot rs (t.performAll rs).2) := by
  induction rs generalizing t with
  | nil => rfl
  | cons r rs ih =>
    rw [List.forall_mem_cons] at hrs
    rw [SymbolTable.performAll, List.mem_cons, not_or] at hscopes
    have hs := hasScope_of_ne_noSuchScope (Ne.symm hscopes.1)
    obtain ⟨hsound, hcollapses⟩ := h.perform hrs.1
    have hrest := ih hsound (hcollapses.trans hc) hrs.2 hscopes.2
    simp only [List.map_cons, SymbolTable.performAll, h.perform_atRoot hc hs, hrest,
      List.zipWith_cons_cons]

/-- **A collapsing table is a flat namespace.** If no request of a run names a scope that the table
does not have, the run through the root leaves the same table, and every request has the same
answer, but for the scope that an applied instruction hands on. At every time of the run, looking a
name up from any scope is looking it up from the root, and whatever is added goes to the root. -/
theorem performAll_flat (rs : List Request) (hrs : ∀ r ∈ rs, r.Named)
    (hscopes : .refused .noSuchScope ∉ ((new true).performAll rs).2) :
    (new true).performAll (rs.map Request.atRoot) =
        (((new true).performAll rs).1,
          List.zipWith Request.answerAtRoot rs ((new true).performAll rs).2) ∧
      ∀ before, before <+: rs →
        let t := ((new true).performAll before).1
        (∀ s name, t.hasScope s = true → t.find? s name = t.findGlobal? name) ∧
          ∀ s x u target, t.add s x = .ok (u, target) → target = root := by
  refine ⟨(sound_new true).performAll_atRoot rfl hrs hscopes, fun before hbefore => ?_⟩
  obtain ⟨hsound, hcollapses⟩ :=
    (sound_new true).performAll fun r hr => hrs r (hbefore.subset hr)
  exact ⟨fun s name hs => hsound.find?_eq_findGlobal? hcollapses hs name,
    fun s x u target hadd => eq_root_of_add hcollapses hadd⟩

/-- A run through two inner scopes: an addition, an instruction that is refused at its third name, a
lookup and an addition that is refused. -/
def innerRequests : List Request :=
  [.newScope 0, .newScope 1, .add 2 (Symbol.ofName "a".toList),
    .apply 1 .default .var [⟨"b".toList, 0⟩, ⟨"[4]".toList, 1⟩, ⟨"A".toList, 5⟩], .find 2 "B".toList,
    .apply 2 .default .set [], .add 1 (Symbol.ofName "B".toList)]

/-- The run through the root has the same answers and leaves the same two symbols in the root. -/
theorem performAll_flat_inner :
    (∀ r ∈ innerRequests, r.Named) ∧
      .refused .noSuchScope ∉ ((new true).performAll innerRequests).2 ∧
      ((new true).performAll (innerRequests.map Request.atRoot)).1.symbols root =
        [⟨"a".toList, none, none, some 0⟩, ⟨"b".toList, some 4, none, some 0⟩] ∧
      ((new true).performAll (innerRequests.map Request.atRoot)).2 =
        [.scope 1, .scope 2, .scope 0,
          .refused (.declaration (.duplicate ⟨"a".toList⟩)),
          .symbol? (some ⟨"b".toList, some 4, none, some 0⟩), .scope 0,
          .refused (.declaration (.duplicate ⟨"b".toList⟩))] := by
  have hnamed : ∀ r ∈ innerRequests, r.Named := by
    simp only [innerRequests, List.forall_mem_cons]
    exact ⟨trivial, trivial, ⟨_, rfl⟩, trivial, trivial, trivial, ⟨_, rfl⟩, List.forall_mem_nil _⟩
  have hscopes : .refused .noSuchScope ∉ ((new true).performAll innerRequests).2 := by
    decide +kernel
  obtain ⟨hrun, -⟩ := performAll_flat innerRequests hnamed hscopes
  rw [hrun]
  exact ⟨hnamed, hscopes, by decide +kernel, by decide +kernel⟩

end SymbolTable

end LineLang
