import LineLang.Proofs.Request

/-!
# Additions in unrelated scopes

Two scopes neither of which is the other or an ancestor of it have ancestors in common, and both
look there before they take a name. Neither of them stores anything there, so what is added through
one is out of sight of the other, and the two rows of additions may be mixed in any way.

About `add_symbol` through scopes that do not see each other.

* `Interleaving`: a row that is mixed from two rows.
* `Request.AddsThrough`: a request to add a symbol through a given scope.
* `Apart`: two unrelated scopes of a table that does not collapse.

Results:
* `visible_extend_of_not_mem_chain`: growing a scope is out of sight of scopes that are not below
  it.
* `Apart.perform_comm`: two additions, one through each scope.
* `Apart.performAll_comm`: an addition through one scope and a row of them through the other.
* `performAll_interleaving`: two rows of additions, mixed in any way.
-/

namespace LineLang

/-- **A row that is mixed from two rows**: the items of both, with those of each in their order. -/
inductive Interleaving {α : Type} : List α → List α → List α → Prop
  | done : Interleaving [] [] []
  | left (x : α) {xs ys zs : List α} (h : Interleaving xs ys zs) :
      Interleaving (x :: xs) ys (x :: zs)
  | right (y : α) {xs ys zs : List α} (h : Interleaving xs ys zs) :
      Interleaving xs (y :: ys) (y :: zs)

/-- A request to add a symbol through a scope. -/
def Request.AddsThrough (scope : Nat) (r : Request) : Prop :=
  ∃ x : Symbol, x.Named ∧ r = .add scope x

theorem Request.AddsThrough.named {scope : Nat} {r : Request} (h : r.AddsThrough scope) :
    r.Named := by
  obtain ⟨x, hx, rfl⟩ := h
  exact hx

namespace SymbolTable

variable {t : SymbolTable} {s u target : Nat}

/-! ## Growth out of sight -/

/-- **Growing a scope is out of sight** of the scopes that are not below it. -/
theorem visible_extend_of_not_mem_chain (h : target ∉ t.chain s) (xs : List Symbol) :
    (t.extend target xs).Visible s = t.Visible s := by
  funext key
  unfold Visible
  rw [chain_extend]
  refine propext (exists_congr fun v => and_congr_right fun hv => ?_)
  rw [entries_extend_of_ne (ne_of_mem_of_not_mem hv h).symm]

/-- Two scopes may grow in any order. -/
theorem extend_comm (h : s ≠ u) (t : SymbolTable) (xs ys : List Symbol) :
    (t.extend s xs).extend u ys = (t.extend u ys).extend s xs :=
  congrArg (SymbolTable.mk t.collapses) (List.modify_modify_ne _ _ t.scopes h)

/-! ## Unrelated scopes -/

/-- **Two unrelated scopes** of a table that does not collapse: neither of them is the other or an
ancestor of it. -/
structure Apart (t : SymbolTable) (s u : Nat) : Prop where
  sound : t.Sound
  collapses : t.collapses = false
  hasScope : t.hasScope s = true ∧ t.hasScope u = true
  unrelated : s ∉ t.chain u ∧ u ∉ t.chain s

variable {q r : Request} {ps qs zs : List Request}

namespace Apart

theorem symm (h : t.Apart s u) : t.Apart u s :=
  ⟨h.sound, h.collapses, h.hasScope.symm, h.unrelated.symm⟩

theorem ne (h : t.Apart s u) : s ≠ u := by
  rintro rfl
  exact h.unrelated.1 (mem_chain_self t s)

/-- Scopes stay unrelated. -/
theorem perform (h : t.Apart s u) (hr : r.Named) : (t.perform r).1.Apart s u := by
  have hg := h.sound.grows_perform hr
  refine ⟨hg.sound h.sound, hg.collapses.trans h.collapses,
    ⟨hg.hasScope h.hasScope.1, hg.hasScope h.hasScope.2⟩, ?_⟩
  rw [hg.chain h.hasScope.1, hg.chain h.hasScope.2]
  exact h.unrelated

theorem effectiveScope (h : t.Apart s u) : t.effectiveScope s = s := by
  rw [SymbolTable.effectiveScope, h.collapses]
  rfl

/-- Whatever becomes of an addition, no other scope changes. -/
theorem exists_perform_eq_extend (h : t.Apart s u) (hr : r.AddsThrough s) :
    ∃ xs, (t.perform r).1 = t.extend s xs := by
  obtain ⟨x, hx, rfl⟩ := hr
  rw [perform_add h.hasScope.1]
  by_cases hv : t.Visible s x.id
  · rw [performAdd_of_visible hx hv]
    exact ⟨[], (extend_nil t s).symm⟩
  · rw [h.sound.performAdd_of_not_visible h.hasScope.1 hx hv, h.effectiveScope]
    exact ⟨_, rfl⟩

/-- **An addition after the unrelated scope grew** has the same answer, and does the same. -/
theorem perform_extend (h : t.Apart s u) (hr : r.AddsThrough s) {ys : List Symbol}
    (hext : (t.extend u ys).Sound) :
    (t.extend u ys).perform r = ((t.perform r).1.extend u ys, (t.perform r).2) := by
  obtain ⟨x, hx, rfl⟩ := hr
  have hs := h.hasScope.1
  have hs' : (t.extend u ys).hasScope s = true := by rwa [hasScope_extend]
  have hvisible := visible_extend_of_not_mem_chain h.unrelated.2 ys
  rw [perform_add hs, perform_add hs']
  by_cases hv : t.Visible s x.id
  · rw [performAdd_of_visible hx hv, performAdd_of_visible hx (hvisible ▸ hv)]
  · rw [h.sound.performAdd_of_not_visible hs hx hv,
      hext.performAdd_of_not_visible hs' hx (hvisible ▸ hv), effectiveScope_extend,
      h.effectiveScope, extend_comm h.ne.symm]

/-- **Two additions through unrelated scopes** may change places. -/
theorem perform_comm (h : t.Apart s u) (hq : q.AddsThrough s) (hr : r.AddsThrough u) :
    ((t.perform r).1.perform q).1 = ((t.perform q).1.perform r).1 ∧
      ((t.perform r).1.perform q).2 = (t.perform q).2 := by
  obtain ⟨xs, hxs⟩ := h.exists_perform_eq_extend hq
  obtain ⟨ys, hys⟩ := h.symm.exists_perform_eq_extend hr
  have hafter_q := h.symm.perform_extend hr (hxs ▸ (h.perform hq.named).sound)
  have hafter_r := h.perform_extend hq (hys ▸ (h.perform hr.named).sound)
  rw [hys, hxs, hafter_q, hafter_r, hxs, hys, extend_comm h.ne]
  exact ⟨rfl, rfl⟩

/-- **An addition through one scope and a row of them through the other** may change places, by
induction on the row. -/
theorem performAll_comm (h : t.Apart s u) (hps : ∀ q ∈ ps, q.AddsThrough s)
    (hr : r.AddsThrough u) :
    ((t.perform r).1.performAll ps).1 = ((t.performAll ps).1.perform r).1 ∧
      (t.perform r).1.transcript ps = t.transcript ps ∧
      ((t.performAll ps).1.perform r).2 = (t.perform r).2 := by
  induction ps generalizing t with
  | nil => exact ⟨rfl, rfl, rfl⟩
  | cons q ps ih =>
    rw [List.forall_mem_cons] at hps
    obtain ⟨htable, hq⟩ := h.perform_comm hps.1 hr
    obtain ⟨hrest, htranscript, hr'⟩ := ih (h.perform hps.1.named) hps.2
    rw [← htable] at hrest htranscript
    refine ⟨hrest, ?_, hr'.trans (h.symm.perform_comm hr hps.1).2⟩
    rw [transcript_cons, transcript_cons, hq, htranscript]

/-- **Two rows of additions, mixed in any way**, by induction on how they are mixed. Where the first
request of all is from the second row, it is brought in front of the first row. -/
theorem performAll_interleaving (h : t.Apart s u) (hps : ∀ q ∈ ps, q.AddsThrough s)
    (hqs : ∀ r ∈ qs, r.AddsThrough u) (hzs : Interleaving ps qs zs) :
    (t.performAll zs).1 = ((t.performAll ps).1.performAll qs).1 ∧
      Interleaving (t.transcript ps) ((t.performAll ps).1.transcript qs) (t.transcript zs) := by
  induction hzs generalizing t with
  | done => exact ⟨rfl, .done⟩
  | left q _ ih =>
    rw [List.forall_mem_cons] at hps
    obtain ⟨htable, hmixed⟩ := ih (h.perform hps.1.named) hps.2 hqs
    exact ⟨htable, .left _ hmixed⟩
  | right r _ ih =>
    rw [List.forall_mem_cons] at hqs
    obtain ⟨htable, hmixed⟩ := ih (h.perform hqs.1.named) hps hqs.2
    obtain ⟨hmoved, htranscript, hanswer⟩ := h.performAll_comm hps hqs.1
    rw [hmoved] at htable hmixed
    rw [htranscript] at hmixed
    rw [transcript_cons, transcript_cons, hanswer]
    exact ⟨htable, .right _ hmixed⟩

end Apart

/-! ## Runs -/

/-- **Additions in unrelated scopes commute.** In a table that does not collapse, after any run, let
one row of additions go through a scope and another through a second scope, neither of which is the
other or an ancestor of it. However the rows are mixed, every addition has the answer that it has
when the rows are carried out one after the other, and the table in the end is the same. -/
theorem performAll_unrelated (rs : List Request) (hrs : ∀ r ∈ rs, r.Named) :
    let t := ((new false).performAll rs).1
    ∀ s u, t.hasScope s = true → t.hasScope u = true → ¬ t.Reaches s u → ¬ t.Reaches u s →
      ∀ ps qs zs : List Request, (∀ q ∈ ps, q.AddsThrough s) → (∀ r ∈ qs, r.AddsThrough u) →
        Interleaving ps qs zs →
          (t.performAll zs).1 = ((t.performAll ps).1.performAll qs).1 ∧
            Interleaving (t.transcript ps) ((t.performAll ps).1.transcript qs)
              (t.transcript zs) := by
  intro t s u hs hu hsu hus ps qs zs hps hqs hzs
  obtain ⟨hsound, hcollapses⟩ := (sound_new false).performAll hrs
  have hapart : t.Apart s u :=
    ⟨hsound, hcollapses, ⟨hs, hu⟩, fun hmem => hus ((hsound.mem_chain_iff hu).1 hmem),
      fun hmem => hsu ((hsound.mem_chain_iff hs).1 hmem)⟩
  exact hapart.performAll_interleaving hps hqs hzs

/-- A root with a name in it and two children. -/
def forkedRequests : List Request :=
  [.newScope 0, .newScope 0, .add 0 (Symbol.ofName "g".toList)]

/-- Both children take the same name, and both refuse that of the root. The second row begins before
the first one and ends inside of it. -/
theorem performAll_unrelated_forked :
    let t := ((new false).performAll forkedRequests).1
    let x := (Symbol.ofName "x".toList).withArraySize 2
    let ps := [Request.add 1 x, .add 1 (Symbol.ofName "G".toList), .add 1 x]
    let qs := [Request.add 2 (Symbol.ofName "X".toList), .add 2 (Symbol.ofName "g".toList)]
    let zs := [Request.add 2 (Symbol.ofName "X".toList), .add 1 x,
      .add 1 (Symbol.ofName "G".toList), .add 2 (Symbol.ofName "g".toList), .add 1 x]
    (∀ r ∈ forkedRequests, r.Named) ∧ t.hasScope 1 = true ∧ t.hasScope 2 = true ∧
      ¬ t.Reaches 1 2 ∧ ¬ t.Reaches 2 1 ∧ (∀ r ∈ ps, r.AddsThrough 1) ∧
      (∀ r ∈ qs, r.AddsThrough 2) ∧ Interleaving ps qs zs ∧
      (t.performAll zs).1 = ((t.performAll ps).1.performAll qs).1 ∧
      Interleaving (t.transcript ps) ((t.performAll ps).1.transcript qs) (t.transcript zs) ∧
      (t.performAll zs).2 = [.scope 2, .scope 1,
        .refused (.declaration (.duplicate ⟨"g".toList⟩)),
        .refused (.declaration (.duplicate ⟨"g".toList⟩)),
        .refused (.declaration (.duplicate ⟨"x".toList⟩))] := by
  intro t x ps qs zs
  have hnamed : ∀ r ∈ forkedRequests, r.Named := by
    simp only [forkedRequests, List.forall_mem_cons]
    exact ⟨trivial, trivial, ⟨_, rfl⟩, List.forall_mem_nil _⟩
  have hsound := ((sound_new false).performAll hnamed).1
  have hsu : ¬ t.Reaches 1 2 := by
    rw [← hsound.mem_chain_iff (by decide +kernel)]
    decide +kernel
  have hus : ¬ t.Reaches 2 1 := by
    rw [← hsound.mem_chain_iff (by decide +kernel)]
    decide +kernel
  have hps : ∀ r ∈ ps, r.AddsThrough 1 := by
    simp only [ps, List.forall_mem_cons]
    exact ⟨⟨_, ⟨_, rfl⟩, rfl⟩, ⟨_, ⟨_, rfl⟩, rfl⟩, ⟨_, ⟨_, rfl⟩, rfl⟩, List.forall_mem_nil _⟩
  have hqs : ∀ r ∈ qs, r.AddsThrough 2 := by
    simp only [qs, List.forall_mem_cons]
    exact ⟨⟨_, ⟨_, rfl⟩, rfl⟩, ⟨_, ⟨_, rfl⟩, rfl⟩, List.forall_mem_nil _⟩
  have hzs : Interleaving ps qs zs := .right _ (.left _ (.left _ (.right _ (.left _ .done))))
  obtain ⟨htable, hmixed⟩ := performAll_unrelated forkedRequests hnamed 1 2 (by decide +kernel)
    (by decide +kernel) hsu hus ps qs zs hps hqs hzs
  exact ⟨hnamed, by decide +kernel, by decide +kernel, hsu, hus, hps, hqs, hzs, htable, hmixed,
    by decide +kernel⟩

end SymbolTable

end LineLang
