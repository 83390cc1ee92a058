import LineLang.Proofs.Request

/-!
# Tables as logs

A table is the log of the additions that succeeded, told scope by scope. Storing a symbol puts it in
the place of one of the same name if there is one, but there never is one: the name would be visible
from the scope that it is added through, and the addition is refused.

About `new_scope`, `add_symbol`, `symbols`, `len` and `is_empty`.

* `Request.Builds`: a request to make a scope or to add a symbol.
* `additions`: the additions of a run that succeeded, with the scopes that stored the symbols.
* `storedIn`: what a log says of one scope.

Results:
* `Sound.perform_cases`: all that such a request can do.
* `Sound.symbols_performAll`, `Sound.size_performAll`: what a run stores, by scopes and in all.
* `Sound.performAll_carried`: a run without the requests that were refused.
* `performAll_additions`: new tables after any run.
-/

namespace LineLang

/-- A request to make a scope, or to add a symbol that was made of a name. -/
inductive Request.Builds : Request → Prop
  | newScope (p : Nat) : Builds (.newScope p)
  | add (s : Nat) {x : Symbol} (hx : x.Named) : Builds (.add s x)

theorem Request.Builds.named {r : Request} (h : r.Builds) : r.Named := by
  cases h with
  | newScope => trivial
  | add s hx => exact hx

/-- The answer is that a request was refused. -/
def Answer.isRefusal : Answer → Bool
  | .refused _ => true
  | _ => false

/-- The symbol that a request added, with the scope that stored it, if the answer confirms that. -/
def Request.stored? : Request → Answer → Option (Nat × Symbol)
  | .add _ x, .scope target => some (target, x)
  | _, _ => none

theorem Request.stored?_refused (r : Request) (f : RequestFault) :
    r.stored? (.refused f) = none := by
  cases r <;> rfl

namespace SymbolTable

variable {t : SymbolTable} {s target : Nat} {r : Request} {rs : List Request}

/-! ## Logs -/

/-- **The log of a run**: the additions that succeeded, in order, each with the scope that stored
the symbol. -/
def additions (run : List (Request × Answer)) : List (Nat × Symbol) :=
  run.filterMap fun step => step.1.stored? step.2

/-- The symbols that a log has for a scope. -/
def storedIn (log : List (Nat × Symbol)) (s : Nat) : List Symbol :=
  (log.filter (·.1 = s)).map fun e => e.2.storedIn s

theorem storedIn_append (log more : List (Nat × Symbol)) (s : Nat) :
    storedIn (log ++ more) s = storedIn log s ++ storedIn more s := by
  rw [storedIn, List.filter_append, List.map_append, storedIn, storedIn]

theorem additions_cons (r : Request) (a : Answer) (run : List (Request × Answer)) :
    additions ((r, a) :: run) = (r.stored? a).toList ++ additions run := by
  rw [additions, List.filterMap_cons, additions]
  cases r.stored? a <;> rfl

/-! ## Sizes -/

theorem size_newScope (t : SymbolTable) (p : Nat) : (t.newScope p).1.size = t.size := by
  rw [size, newScope, List.flatMap_append, size]
  simp [Scope.empty]

theorem size_extend (h : t.hasScope target = true) (xs : List Symbol) :
    (t.extend target xs).size = t.size + xs.length := by
  have hlt := hasScope_iff.1 h
  have hscopes : t.scopes =
      t.scopes.take target ++ t.scopes[target] :: t.scopes.drop (target + 1) := by
    rw [← List.drop_eq_getElem_cons hlt, List.take_append_drop]
  rw [size, extend, List.modify_eq_take_cons_drop hlt, size]
  conv_rhs => rw [hscopes]
  simp only [List.flatMap_append, List.flatMap_cons, List.length_append, List.length_map]
  omega

/-! ## One request -/

/-- **All that a request to build a table can do**: it is refused and nothing changes, or it makes a
scope, or it stores a symbol after the others of a scope. -/
theorem Sound.perform_cases (h : t.Sound) (hr : r.Builds) :
    (∃ f, t.perform r = (t, .refused f)) ∨
      (∃ p, r = .newScope p ∧ t.perform r = ((t.newScope p).1, .scope t.scopes.length)) ∨
      ∃ s x target, r = .add s x ∧ t.hasScope target = true ∧
        t.perform r = (t.extend target [x.storedIn target], .scope target) := by
  by_cases hs : t.hasScope r.scope = true
  · cases hr with
    | newScope p => exact Or.inr (Or.inl ⟨p, rfl, perform_of_hasScope hs⟩)
    | @add s x hx =>
      rw [perform_add (s := s) hs]
      by_cases hv : t.Visible s x.id
      · exact Or.inl ⟨_, performAdd_of_visible hx hv⟩
      · exact Or.inr (Or.inr ⟨s, x, t.effectiveScope s, rfl, h.hasScope_effectiveScope hs,
          h.performAdd_of_not_visible hs hx hv⟩)
  · exact Or.inl ⟨.noSuchScope, if_neg hs⟩

/-- A refused request leaves no trace. -/
theorem Sound.perform_of_isRefusal (h : t.Sound) (hr : r.Builds)
    (hrefused : (t.perform r).2.isRefusal = true) : (t.perform r).1 = t := by
  rcases h.perform_cases hr with
    ⟨f, hperform⟩ | ⟨p, rfl, hperform⟩ | ⟨v, x, target, rfl, htarget, hperform⟩
  · rw [hperform]
  · rw [hperform] at hrefused
    cases hrefused
  · rw [hperform] at hrefused
    cases hrefused

/-- **One request adds to each scope what its log has for it.** -/
theorem Sound.symbols_perform (h : t.Sound) (hr : r.Builds) (s : Nat) :
    (t.perform r).1.symbols s =
      t.symbols s ++ storedIn (r.stored? (t.perform r).2).toList s := by
  rcases h.perform_cases hr with
    ⟨f, hperform⟩ | ⟨p, rfl, hperform⟩ | ⟨v, x, target, rfl, htarget, hperform⟩
  · rw [hperform, r.stored?_refused]
    exact (List.append_nil _).symm
  · rw [hperform, symbols_newScope]
    exact (List.append_nil _).symm
  · rw [hperform, Request.stored?, Option.toList_some, storedIn, List.filter_singleton]
    by_cases hs : target = s
    · subst hs
      rw [symbols_extend_self htarget]
      simp
    · rw [symbols_extend_of_ne hs]
      simp [hs]

theorem Sound.size_perform (h : t.Sound) (hr : r.Builds) :
    (t.perform r).1.size = t.size + (r.stored? (t.perform r).2).toList.length := by
  rcases h.perform_cases hr with
    ⟨f, hperform⟩ | ⟨p, rfl, hperform⟩ | ⟨v, x, target, rfl, htarget, hperform⟩
  · rw [hperform, r.stored?_refused]
    rfl
  · rw [hperform, size_newScope]
    rfl
  · rw [hperform, size_extend htarget]
    rfl

/-! ## Runs -/

/-- **A run adds to each scope what its log has for it**, by induction on the requests. -/
theorem Sound.symbols_performAll (h : t.Sound) (hrs : ∀ r ∈ rs, r.Builds) (s : Nat) :
    (t.performAll rs).1.symbols s =
      t.symbols s ++ storedIn (additions (t.transcript rs)) s := by
  induction rs generalizing t with
  | nil => exact (List.append_nil _).symm
  | cons r rs ih =>
    rw [List.forall_mem_cons] at hrs
    have hrest := ih (h.perform hrs.1.named).1 hrs.2
    rw [transcript_cons, additions_cons, storedIn_append, ← List.append_assoc,
      ← h.symbols_perform hrs.1, ← hrest]
    rfl

/-- **A run adds as many symbols as its log has.** -/
theorem Sound.size_performAll (h : t.Sound) (hrs : ∀ r ∈ rs, r.Builds) :
    (t.performAll rs).1.size = t.size + (additions (t.transcript rs)).length := by
  induction rs generalizing t with
  | nil => rfl
  | cons r rs ih =>
    rw [List.forall_mem_cons] at hrs
    have hrest := ih (h.perform hrs.1.named).1 hrs.2
    rw [transcript_cons, additions_cons, List.length_append, ← Nat.add_assoc,
      ← h.size_perform hrs.1, ← hrest]
    rfl

/-- The requests of a run that were carried out, with their answers. -/
def carried (run : List (Request × Answer)) : List (Request × Answer) :=
  run.filter fun step => !step.2.isRefusal

theorem carried_cons (r : Request) (a : Answer) (run : List (Request × Answer)) :
    carried ((r, a) :: run) = if a.isRefusal then carried run else (r, a) :: carried run := by
  rw [carried, List.filter_cons, carried]
  cases a.isRefusal <;> rfl

/-- **A run without the requests that were refused** leaves the same table, and the others have the
same answers. -/
theorem Sound.performAll_carried (h : t.Sound) (hrs : ∀ r ∈ rs, r.Builds) :
    t.performAll ((carried (t.transcript rs)).map Prod.fst) =
      ((t.performAll rs).1, (carried (t.transcript rs)).map Prod.snd) := by
  induction rs generalizing t with
  | nil => rfl
  | cons r rs ih =>
    rw [List.forall_mem_cons] at hrs
    have hrest := ih (h.perform hrs.1.named).1 hrs.2
    rw [transcript_cons, carried_cons]
    cases hrefused : (t.perform r).2.isRefusal with
    | true =>
      rw [if_pos rfl, performAll_cons]
      rw [h.perform_of_isRefusal hrs.1 hrefused] at hrest ⊢
      exact hrest
    | false =>
      rw [if_neg Bool.false_ne_true, List.map_cons, List.map_cons, performAll_cons,
        performAll_cons, hrest]

/-- **A table is the log of its additions.** After any run of requests to make scopes and to add
symbols, each scope has the symbols that were stored in it, in the order of the requests and as they
were added, and there are as many symbols as additions that succeeded. The refused requests could
have been left out: the table would be the same, and so would the other answers. At all times of the
run, what a scope has by then is the beginning of what it has in the end. -/
theorem performAll_additions (collapses : Bool) (rs : List Request) (hrs : ∀ r ∈ rs, r.Builds) :
    let t := ((new collapses).performAll rs).1
    let run := (new collapses).transcript rs
    (∀ s, t.symbols s = storedIn (additions run) s) ∧
      t.size = (additions run).length ∧ (t.isEmpty = true ↔ additions run = []) ∧
      (new collapses).performAll ((carried run).map Prod.fst) =
        (t, (carried run).map Prod.snd) ∧
      ∀ before, before <+: rs →
        ∀ s, ((new collapses).performAll before).1.symbols s <+: t.symbols s := by
  intro t run
  have hsound := sound_new collapses
  have hsize : t.size = (additions run).length := by
    have hnone : (new collapses).size = 0 := rfl
    rw [← Nat.zero_add (additions run).length, ← hnone]
    exact hsound.size_performAll hrs
  refine ⟨fun s => ?_, hsize, ?_, hsound.performAll_carried hrs, ?_⟩
  · have hnone : (new collapses).symbols s = [] := by rw [symbols_eq, entries_new, List.map_nil]
    have hsymbols := hsound.symbols_performAll hrs s
    rwa [hnone, List.nil_append] at hsymbols
  · rw [isEmpty, beq_iff_eq, hsize, List.length_eq_zero_iff]
  · rintro before ⟨rest, rfl⟩ s
    have hnamed : ∀ r ∈ before ++ rest, r.Named := fun r hr => (hrs r hr).named
    rw [List.forall_mem_append] at hnamed
    have hgrown := (hsound.performAll hnamed.1).1.grown_performAll hnamed.2
    rw [← performAll_append] at hgrown
    exact hgrown.symbols_kept s

/-- A run in which a name is refused in its scope, a name of the root below it, and a scope that
does not exist. In the end the root takes a name that its child has. -/
def loggedRequests : List Request :=
  [.newScope 0, .add 1 ((Symbol.ofName "Àb".toList).withArraySize 3),
    .add 0 ((Symbol.ofName "c".toList).withValue 7), .add 1 (Symbol.ofName "àB".toList),
    .add 1 (Symbol.ofName "C".toList), .newScope 5, .add 0 (Symbol.ofName "àb".toList)]

/-- Three additions are in the log, and four requests were carried out. -/
theorem performAll_additions_refused :
    (∀ r ∈ loggedRequests, r.Builds) ∧
      (let t := ((new false).performAll loggedRequests).1
       let run := (new false).transcript loggedRequests
       t.symbols 0 = [⟨"c".toList, none, some 7, some 0⟩, ⟨"àb".toList, none, none, some 0⟩] ∧
         t.symbols 1 = [⟨"àb".toList, some 3, none, some 1⟩] ∧ t.size = 3 ∧
         (carried run).map Prod.snd = [.scope 1, .scope 1, .scope 0, .scope 0] ∧
         (new false).performAll ((carried run).map Prod.fst) =
           (t, (carried run).map Prod.snd)) := by
  have hbuilds : ∀ r ∈ loggedRequests, r.Builds := by
    simp only [loggedRequests, List.forall_mem_cons]
    exact ⟨.newScope _, .add _ ⟨_, rfl⟩, .add _ ⟨_, rfl⟩, .add _ ⟨_, rfl⟩, .add _ ⟨_, rfl⟩,
      .newScope _, .add _ ⟨_, rfl⟩, List.forall_mem_nil _⟩
  obtain ⟨hsymbols, hsize, -, hcarried, -⟩ := performAll_additions false loggedRequests hbuilds
  exact ⟨hbuilds, (hsymbols 0).trans (by decide +kernel), (hsymbols 1).trans (by decide +kernel),
    hsize.trans (by decide +kernel), by decide +kernel, hcarried⟩

end SymbolTable

end LineLang
