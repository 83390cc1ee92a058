import LineLang.Proofs.Declaration
import LineLang.Proofs.Growth
import LineLang.SymbolTable.Request

/-!
# Runs of requests

Every table that requests make of a new one is sound. Requests may come in any order and go through
any scopes, and refused ones are among them.

About `new_scope`, `add_symbol` and `Instruction.apply` of a `SymbolTable`.

* `Request.Named`: the symbols that a request brings along were made of names.
* `transcript`: the requests of a run with their answers.

Results:
* `performAdd_of_visible`, `Sound.performAdd_of_not_visible`: the two outcomes of an addition.
* `Sound.grows_perform`: what one request can do to a table.
* `Sound.perform`: what one request preserves.
* `Sound.performAll`: what a run of requests preserves.
* `sound_performAll`: the tables that runs of requests lead to.
-/

namespace LineLang

open LineLang.Symbol (normalize)

/-- A symbol was made of a name, in whatever letters. -/
def Symbol.Named (x : Symbol) : Prop := ∃ name, x.id = normalize name

/-- The symbols that a request brings along were made of names. -/
def Request.Named : Request → Prop
  | .add _ x => x.Named
  | _ => True

theorem Symbol.Named.normalize_id {x : Symbol} (h : x.Named) : normalize x.id = x.id := by
  obtain ⟨name, hname⟩ := h
  rw [hname]
  exact Text.lower_lower name

namespace SymbolTable

variable {t : SymbolTable} {s : Nat}

/-! ## Steps -/

theorem perform_of_hasScope {r : Request} (hs : t.hasScope r.scope = true) :
    t.perform r = t.performHere r := if_pos hs

theorem perform_add (hs : t.hasScope s = true) (x : Symbol) :
    t.perform (.add s x) = t.performAdd s x :=
  perform_of_hasScope hs

/-- An addition of a name that is visible is refused, and the table stays as it is. -/
theorem performAdd_of_visible {x : Symbol} (hx : x.Named) (hv : t.Visible s x.id) :
    t.performAdd s x = (t, .refused (.declaration (.duplicate ⟨x.id⟩))) := by
  rw [performAdd, add_of_visible (hx.normalize_id.symm ▸ hv)]

/-- An addition of any other name stores the symbol. -/
theorem Sound.performAdd_of_not_visible (h : t.Sound) (hs : t.hasScope s = true) {x : Symbol}
    (hx : x.Named) (hv : ¬ t.Visible s x.id) :
    t.performAdd s x =
      (t.extend (t.effectiveScope s) [x.storedIn (t.effectiveScope s)],
        .scope (t.effectiveScope s)) := by
  rw [SymbolTable.performAdd, h.add_of_not_visible hs hx.normalize_id hv]

/-- A symbol whose name is not visible is fresh. -/
theorem fresh_singleton {x : Symbol} (hx : x.Named) (hv : ¬ t.Visible s x.id) :
    t.Fresh s [x.storedIn (t.effectiveScope s)] :=
  ⟨List.forall_mem_singleton.2 ⟨hx.normalize_id, rfl, hv⟩, List.nodup_singleton _⟩

theorem Sound.grows_performAdd (h : t.Sound) (hs : t.hasScope s = true) {x : Symbol}
    (hx : x.Named) : t.Grows (t.performAdd s x).1 := by
  by_cases hv : t.Visible s x.id
  · rw [performAdd_of_visible hx hv]
    exact .same
  · rw [h.performAdd_of_not_visible hs hx hv]
    exact .extend hs (fresh_singleton hx hv)

theorem Sound.grows_performApply (h : t.Sound) (hs : t.hasScope s = true) (settings : Settings)
    (i : Instruction) (ps : List Token) : t.Grows (t.performApply s settings i ps).1 := by
  have htable : (t.performApply s settings i ps).1 = (i.apply settings ps s t).1 := by
    unfold SymbolTable.performApply
    split
    · rename_i heq
      rw [heq]
    · rename_i heq
      rw [heq]
  obtain ⟨ds, -, hds, happly⟩ := Instruction.exists_apply_eq_extend h hs i settings ps
  rw [htable, happly]
  exact .extend hs (Declaration.fresh_declared hds)

/-- **Requests let a table grow** by one step. -/
theorem Sound.grows_perform (h : t.Sound) {r : Request} (hr : r.Named) :
    t.Grows (t.perform r).1 := by
  by_cases hs : t.hasScope r.scope = true
  · rw [perform_of_hasScope hs]
    cases r with
    | newScope p => exact .newScope hs
    | add s x => exact h.grows_performAdd hs hr
    | apply s settings i ps => exact h.grows_performApply hs settings i ps
    | _ => exact .same
  · rw [SymbolTable.perform, if_neg hs]
    exact .same

/-- **Requests keep a table sound**, and leave it as collapsing as it was. -/
theorem Sound.perform (h : t.Sound) {r : Request} (hr : r.Named) :
    (t.perform r).1.Sound ∧ (t.perform r).1.collapses = t.collapses :=
  ⟨(h.grows_perform hr).sound h, (h.grows_perform hr).collapses⟩

/-! ## Runs -/

/-- **Runs of requests keep a table sound**, by induction on the requests. -/
theorem Sound.performAll (h : t.Sound) {rs : List Request} (hrs : ∀ r ∈ rs, r.Named) :
    (t.performAll rs).1.Sound ∧ (t.performAll rs).1.collapses = t.collapses := by
  induction rs generalizing t with
  | nil => exact ⟨h, rfl⟩
  | cons r rs ih =>
    rw [List.forall_mem_cons] at hrs
    obtain ⟨hstep, hcollapses⟩ := h.perform hrs.1
    obtain ⟨hsound, hrest⟩ := ih hstep hrs.2
    exact ⟨hsound, hrest.trans hcollapses⟩

/-- **Runs of requests let a table grow.** -/
theorem Sound.grown_performAll (h : t.Sound) {rs : List Request} (hrs : ∀ r ∈ rs, r.Named) :
    t.Grown (t.performAll rs).1 := by
  induction rs generalizing t with
  | nil => exact .refl
  | cons r rs ih =>
    rw [List.forall_mem_cons] at hrs
    exact .head ⟨h, h.grows_perform hrs.1⟩ (ih (h.perform hrs.1).1 hrs.2)

theorem performAll_cons (t : SymbolTable) (r : Request) (rs : List Request) :
    t.performAll (r :: rs) =
      (((t.perform r).1.performAll rs).1,
        (t.perform r).2 :: ((t.perform r).1.performAll rs).2) := rfl

/-- The requests of a run, each with its answer. -/
def transcript (t : SymbolTable) (rs : List Request) : List (Request × Answer) :=
  rs.zip (t.performAll rs).2

theorem transcript_cons (t : SymbolTable) (r : Request) (rs : List Request) :
    t.transcript (r :: rs) = (r, (t.perform r).2) :: (t.perform r).1.transcript rs := rfl

/-- Requests are carried out one after another. -/
theorem performAll_append (t : SymbolTable) (rs qs : List Request) :
    (t.performAll (rs ++ qs)).1 = ((t.performAll rs).1.performAll qs).1 := by
  induction rs generalizing t with
  | nil => rfl
  | cons r rs ih => exact ih (t.perform r).1

/-- **The tables of runs are sound.** From a new table, any requests lead to one where only the root
has no parent, parents are older than their children, and the way from parent to parent leads from
every scope to the root. Symbols are stored under their names, which are in normal form, each in the
scope that it knows of and no name twice in one. Looking a name up meets no missing scope, and finds
every stored symbol from its scope. If the table collapses, only the root stores anything. -/
theorem sound_performAll (collapses : Bool) (rs : List Request) (h : ∀ r ∈ rs, r.Named) :
    let t := ((new collapses).performAll rs).1
    t.collapses = collapses ∧ t.Sound ∧
      (∀ s, t.hasScope s = true →
        (t.parent? s = none ↔ s = root) ∧
        Relation.ReflTransGen (fun s p => t.parent? s = some p) s root ∧
        ∀ name, t.Walk (normalize name) s (t.find? s name)) ∧
      ∀ s, ∀ x ∈ t.symbols s, t.find? s x.id = some x := by
  obtain ⟨hsound, hcollapses⟩ := (sound_new collapses).performAll h
  refine ⟨hcollapses, hsound, fun s hs => ?_, fun s x hx => hsound.find?_id hx⟩
  exact ⟨hsound.parent?_eq_none_iff hs, hsound.reaches_root hs, hsound.walk hs⟩

/-- A run with requests of every kind that changes a table, made and refused. -/
def mixedRequests : List Request :=
  [.newScope 0, .newScope 1, .newScope 7,
    .add 1 ((Symbol.ofName "Foo".toList).withArraySize 3),
    .apply 2 .default .var [⟨"x".toList, 0⟩, ⟨"[4]".toList, 1⟩, ⟨"FOO".toList, 5⟩],
    .add 0 ((Symbol.ofName "X".toList).withValue 1)]

/-- The run keeps the symbols of both inner scopes, and the array is found from its scope. -/
theorem sound_performAll_mixed :
    (∀ r ∈ mixedRequests, r.Named) ∧
      (let t := ((new false).performAll mixedRequests).1
       t.Sound ∧ t.scopes.length = 3 ∧
         t.find? 1 "foo".toList = some ⟨"foo".toList, some 3, none, some 1⟩ ∧
         t.find? 2 "x".toList = some ⟨"x".toList, some 4, none, some 2⟩) := by
  have hnamed : ∀ r ∈ mixedRequests, r.Named := by
    simp only [mixedRequests, List.forall_mem_cons]
    exact ⟨trivial, trivial, trivial, ⟨_, rfl⟩, trivial, ⟨_, rfl⟩, List.forall_mem_nil _⟩
  obtain ⟨-, hsound, -, hfind⟩ := sound_performAll false mixedRequests hnamed
  have hfoo := hfind 1 ⟨"foo".toList, some 3, none, some 1⟩ (by decide +kernel)
  have hx := hfind 2 ⟨"x".toList, some 4, none, some 2⟩ (by decide +kernel)
  exact ⟨hnamed, hsound, by decide +kernel, hfoo, hx⟩

end SymbolTable

end LineLang
