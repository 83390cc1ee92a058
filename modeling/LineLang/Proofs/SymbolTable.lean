import Mathlib.Data.List.Nodup
import Mathlib.Logic.Relation
import LineLang.SymbolTable

/-!
# Sound tables

What is true of every symbol table that grew from a new one: its scopes are a tree with the older
ones nearer to the root, and its symbols are kept under their own names, each name once in a scope.

About `new_scope`, `add_symbol` and `find`.

* `Sound`: the invariant.
* `Walk`: the search for a name as a loop, one scope after another.
* `Visible`: a key is stored on the way from a scope to the root.
* `extend`: a table with symbols added at the end of one scope.
* `Fresh`: symbols that can be stored together through a scope.

Results:
* `Sound.walk`: looking a name up is that loop, which meets no missing scope and ends.
* `Sound.reaches_root`: going from parent to parent leads to the root.
* `Sound.find?_id`: a stored symbol is found under its name.
* `add_of_visible`, `Sound.add_of_not_visible`: what adding a symbol does.
* `Sound.extend`, `Sound.newScope`: tables stay sound as they grow.
-/

namespace LineLang.SymbolTable

open LineLang.Symbol (normalize)

variable {t : SymbolTable} {s p a target : Nat}

/-! ## Entries of a scope -/

/-- The entries of a scope, and none where there is no such scope. -/
def entries (t : SymbolTable) (s : Nat) : List (Text × Symbol) :=
  match t.scopes[s]? with
  | some scope => scope.entries
  | none => []

theorem hasScope_iff : t.hasScope s = true ↔ s < t.scopes.length :=
  decide_eq_true_iff

theorem symbols_eq (t : SymbolTable) (s : Nat) : t.symbols s = (t.entries s).map Prod.snd := by
  unfold symbols entries
  cases t.scopes[s]? <;> rfl

theorem stored?_eq (t : SymbolTable) (s : Nat) (key : Text) :
    t.stored? s key = (t.entries s).lookup key := by
  unfold stored? entries
  cases t.scopes[s]? <;> rfl

theorem stored?_eq_none_iff {key : Text} :
    t.stored? s key = none ↔ key ∉ (t.entries s).map Prod.fst := by
  rw [stored?_eq, List.lookup_eq_none_iff, List.mem_map]
  constructor
  · rintro h ⟨e, he, rfl⟩
    exact bne_iff_ne.1 (h e he) rfl
  · intro h e he
    exact bne_iff_ne.2 fun heq => h ⟨e, he, heq.symm⟩

theorem lookup_of_mem {es : List (Text × Symbol)} (hn : (es.map Prod.fst).Nodup) {key : Text}
    {x : Symbol} (h : (key, x) ∈ es) : es.lookup key = some x := by
  obtain ⟨before, after, rfl⟩ := List.append_of_mem h
  rw [List.map_append, List.map_cons, List.nodup_append] at hn
  refine List.lookup_eq_some_iff.2 ⟨before, after, rfl, fun e he => ?_⟩
  have hne := hn.2.2 e.1 (List.mem_map_of_mem he) key List.mem_cons_self
  exact bne_iff_ne.2 (Ne.symm hne)

theorem putEntry_of_not_mem {key : Text} (x : Symbol) {es : List (Text × Symbol)}
    (h : key ∉ es.map Prod.fst) : Scope.putEntry key x es = es ++ [(key, x)] := by
  induction es with
  | nil => rfl
  | cons e es ih =>
    rw [List.map_cons, List.mem_cons, not_or] at h
    rw [Scope.putEntry, if_neg (Ne.symm h.1), ih h.2, List.cons_append]

/-! ## The way to the root -/

theorem chain_of_parent (h : t.parent? s = some p) (hp : p < s) :
    t.chain s = s :: t.chain p := by
  rw [chain, h]
  exact if_pos hp

theorem chain_of_no_parent (h : t.parent? s = none) : t.chain s = [s] := by
  rw [chain, h]

theorem chain_cases (t : SymbolTable) (s : Nat) :
    t.chain s = [s] ∨ ∃ p, t.parent? s = some p ∧ p < s ∧ t.chain s = s :: t.chain p := by
  rw [chain]
  split
  · rename_i p hparent
    split
    · rename_i hp
      exact Or.inr ⟨p, hparent, hp, rfl⟩
    · exact Or.inl rfl
  · exact Or.inl rfl

theorem exists_chain_eq_cons (t : SymbolTable) (s : Nat) : ∃ rest, t.chain s = s :: rest := by
  rcases chain_cases t s with hchain | ⟨p, -, -, hchain⟩
  · exact ⟨[], hchain⟩
  · exact ⟨t.chain p, hchain⟩

theorem mem_chain_self (t : SymbolTable) (s : Nat) : s ∈ t.chain s := by
  obtain ⟨rest, hchain⟩ := t.exists_chain_eq_cons s
  rw [hchain]
  exact List.mem_cons_self

/-- Ancestors are older. -/
theorem le_of_mem_chain (h : a ∈ t.chain s) : a ≤ s := by
  induction s using Nat.strongRecOn with
  | ind s ih =>
    rcases chain_cases t s with hchain | ⟨p, -, hp, hchain⟩
    · rw [hchain] at h
      exact Nat.le_of_eq (List.mem_singleton.1 h)
    · rw [hchain] at h
      rcases List.mem_cons.1 h with rfl | h
      · exact Nat.le_refl _
      · exact Nat.le_of_lt (Nat.lt_of_le_of_lt (ih p hp h) hp)

/-- The ancestors of an ancestor are ancestors. -/
theorem chain_subset (h : a ∈ t.chain s) : t.chain a ⊆ t.chain s := by
  induction s using Nat.strongRecOn with
  | ind s ih =>
    rcases chain_cases t s with hchain | ⟨p, -, hp, hchain⟩
    · rw [hchain] at h
      rw [List.mem_singleton.1 h]
      exact List.Subset.refl _
    · rw [hchain] at h
      rcases List.mem_cons.1 h with rfl | h
      · exact List.Subset.refl _
      · rw [hchain]
        exact List.subset_cons_of_subset s (ih p hp h)

theorem chain_congr {u : SymbolTable} (h : ∀ s, u.parent? s = t.parent? s) (s : Nat) :
    u.chain s = t.chain s := by
  induction s using Nat.strongRecOn with
  | ind s ih =>
    rw [chain, chain, h]
    cases t.parent? s with
    | none => rfl
    | some p =>
      by_cases hp : p < s
      · simp only [if_pos hp, ih p hp]
      · simp only [if_neg hp]

/-! ## Visible keys -/

/-- A key is stored on the way from a scope to the root. -/
def Visible (t : SymbolTable) (s : Nat) (key : Text) : Prop :=
  ∃ u ∈ t.chain s, key ∈ (t.entries u).map Prod.fst

/-- What is visible from an ancestor is visible. -/
theorem Visible.of_mem_chain {key : Text} (h : t.Visible a key) (ha : a ∈ t.chain s) :
    t.Visible s key := by
  obtain ⟨v, hv, hkey⟩ := h
  exact ⟨v, chain_subset ha hv, hkey⟩

theorem find?_eq_none_iff {name : Text} :
    t.find? s name = none ↔ ¬ t.Visible s (normalize name) := by
  simp only [find?, List.findSome?_eq_none_iff, stored?_eq_none_iff, Visible, not_exists, not_and]

/-! ## The invariant -/

/-- **A sound table**: scopes have older parents, and symbols are stored under their own names. -/
structure Sound (t : SymbolTable) : Prop where
  /-- There is a root, and it has no parent. -/
  root : t.hasScope root = true ∧ t.parent? root = none
  /-- Every other scope has a parent, which is older. -/
  parent_lt : ∀ s, t.hasScope s = true → s ≠ SymbolTable.root → ∃ p, t.parent? s = some p ∧ p < s
  /-- A symbol is stored under its name, which is in normal form, and knows its scope. -/
  entry : ∀ s key x, (key, x) ∈ t.entries s →
    key = x.id ∧ normalize x.id = x.id ∧ x.scope = some s
  /-- No scope holds a name twice. -/
  nodup : ∀ s, ((t.entries s).map Prod.fst).Nodup
  /-- A table that collapses keeps everything in its root. -/
  flat : t.collapses = true → ∀ s, s ≠ SymbolTable.root → t.entries s = []

/-- A scope of a sound table is the root, or one step further from it than its parent. -/
theorem Sound.root_or_parent (h : t.Sound) (hs : t.hasScope s = true) :
    (s = SymbolTable.root ∧ t.parent? s = none) ∨
      ∃ p, p < s ∧ t.hasScope p = true ∧ t.parent? s = some p := by
  by_cases hroot : s = SymbolTable.root
  · exact Or.inl ⟨hroot, hroot ▸ h.root.2⟩
  · obtain ⟨p, hparent, hp⟩ := h.parent_lt s hs hroot
    exact Or.inr ⟨p, hp, hasScope_iff.2 (Nat.lt_trans hp (hasScope_iff.1 hs)), hparent⟩

theorem Sound.parent?_eq_none_iff (h : t.Sound) (hs : t.hasScope s = true) :
    t.parent? s = none ↔ s = SymbolTable.root := by
  rcases h.root_or_parent hs with ⟨hroot, hnone⟩ | ⟨p, hp, -, hparent⟩
  · exact ⟨fun _ => hroot, fun _ => hnone⟩
  · rw [hparent]
    constructor
    · intro hnone
      cases hnone
    · rintro rfl
      exact absurd hp (Nat.not_lt_zero p)

theorem Sound.root_mem_chain (h : t.Sound) (hs : t.hasScope s = true) :
    SymbolTable.root ∈ t.chain s := by
  induction s using Nat.strongRecOn with
  | ind s ih =>
    rcases h.root_or_parent hs with ⟨rfl, -⟩ | ⟨p, hp, hhas, hparent⟩
    · exact mem_chain_self t _
    · rw [chain_of_parent hparent hp]
      exact List.mem_cons_of_mem s (ih p hp hhas)

/-- **All ways lead to the root**, going from parent to parent. -/
theorem Sound.reaches_root (h : t.Sound) (hs : t.hasScope s = true) :
    Relation.ReflTransGen (fun s p => t.parent? s = some p) s SymbolTable.root := by
  induction s using Nat.strongRecOn with
  | ind s ih =>
    rcases h.root_or_parent hs with ⟨rfl, -⟩ | ⟨p, hp, hhas, hparent⟩
    · exact .refl
    · exact .head hparent (ih p hp hhas)

@[simp] theorem effectiveScope_root (t : SymbolTable) : t.effectiveScope root = root := ite_self _

/-- What is added through a scope goes to a scope on its way to the root. -/
theorem Sound.effectiveScope_mem_chain (h : t.Sound) (hs : t.hasScope s = true) :
    t.effectiveScope s ∈ t.chain s := by
  unfold effectiveScope
  split
  · exact h.root_mem_chain hs
  · exact mem_chain_self t s

theorem Sound.hasScope_effectiveScope (h : t.Sound) (hs : t.hasScope s = true) :
    t.hasScope (t.effectiveScope s) = true := by
  unfold effectiveScope
  split
  · exact h.root.1
  · exact hs

/-! ## Searching -/

/-- The search for a key, from a scope on: in the scope itself, and if the key is not there, from
its parent on. A search that meets a number without a scope has no outcome. -/
inductive Walk (t : SymbolTable) (key : Text) : Nat → Option Symbol → Prop
  | here {s : Nat} {scope : Scope} {x : Symbol} (hscope : t.scopes[s]? = some scope)
      (hget : scope.get? key = some x) : Walk t key s (some x)
  | up {s p : Nat} {scope : Scope} {result : Option Symbol} (hscope : t.scopes[s]? = some scope)
      (hget : scope.get? key = none) (hparent : scope.parent = some p)
      (rest : Walk t key p result) : Walk t key s result
  | stop {s : Nat} {scope : Scope} (hscope : t.scopes[s]? = some scope)
      (hget : scope.get? key = none) (hparent : scope.parent = none) : Walk t key s none

theorem find?_of_chain_singleton (h : t.chain s = [s]) (name : Text) :
    t.find? s name = t.stored? s (normalize name) := by
  rw [find?, h, List.findSome?_cons, List.findSome?_nil]
  cases t.stored? s (normalize name) <;> rfl

theorem find?_of_chain_cons (h : t.chain s = s :: t.chain p) (name : Text) :
    t.find? s name = (t.stored? s (normalize name)).or (t.find? p name) := by
  rw [find?, h, List.findSome?_cons]
  cases t.stored? s (normalize name) <;> rfl

/-- **Looking a name up is searching for it**: the search has an outcome from every scope, and it is
the symbol that the name stands for. -/
theorem Sound.walk (h : t.Sound) (hs : t.hasScope s = true) (name : Text) :
    t.Walk (normalize name) s (t.find? s name) := by
  induction s using Nat.strongRecOn with
  | ind s ih =>
    obtain ⟨scope, hscope⟩ : ∃ scope, t.scopes[s]? = some scope :=
      ⟨_, List.getElem?_eq_getElem (hasScope_iff.1 hs)⟩
    have hstored : t.stored? s (normalize name) = scope.get? (normalize name) := by
      rw [stored?, hscope, Option.bind_some]
    have hscopeParent : t.parent? s = scope.parent := by
      rw [parent?, hscope, Option.bind_some]
    rcases h.root_or_parent hs with ⟨-, hparent⟩ | ⟨p, hp, hhas, hparent⟩
    · rw [find?, chain_of_no_parent hparent, List.findSome?_cons, hstored]
      rw [hscopeParent] at hparent
      cases hget : scope.get? (normalize name) with
      | some x => exact .here hscope hget
      | none => exact .stop hscope hget hparent
    · rw [find?, chain_of_parent hparent hp, List.findSome?_cons, hstored]
      rw [hscopeParent] at hparent
      cases hget : scope.get? (normalize name) with
      | some x => exact .here hscope hget
      | none => exact .up hscope hget hparent (ih p hp hhas)

/-- **A stored symbol is found** from its scope under its name. -/
theorem Sound.find?_id (h : t.Sound) {x : Symbol} (hx : x ∈ t.symbols s) :
    t.find? s x.id = some x := by
  rw [symbols_eq] at hx
  obtain ⟨⟨key, y⟩, hmem, rfl⟩ := List.mem_map.1 hx
  obtain ⟨rfl, hnormal, -⟩ := h.entry s key y hmem
  have hstored : t.stored? s y.id = some y := by
    rw [stored?_eq]
    exact lookup_of_mem (h.nodup s) hmem
  obtain ⟨rest, hchain⟩ := t.exists_chain_eq_cons s
  rw [find?, hnormal, hchain, List.findSome?_cons, hstored]

/-! ## Growing at the end of a scope -/

/-- A table with symbols added under their names at the end of a scope. -/
def extend (t : SymbolTable) (target : Nat) (xs : List Symbol) : SymbolTable :=
  { t with
    scopes := t.scopes.modify target fun scope =>
      { scope with entries := scope.entries ++ xs.map fun x => (x.id, x) } }

variable {xs : List Symbol}

@[simp] theorem collapses_extend (t : SymbolTable) (target : Nat) (xs : List Symbol) :
    (t.extend target xs).collapses = t.collapses := rfl

@[simp] theorem hasScope_extend (t : SymbolTable) (target s : Nat) (xs : List Symbol) :
    (t.extend target xs).hasScope s = t.hasScope s := by
  unfold hasScope extend
  rw [List.length_modify]

@[simp] theorem effectiveScope_extend (t : SymbolTable) (target s : Nat) (xs : List Symbol) :
    (t.extend target xs).effectiveScope s = t.effectiveScope s := rfl

theorem getElem?_extend (t : SymbolTable) (target s : Nat) (xs : List Symbol) :
    (t.extend target xs).scopes[s]? =
      t.scopes[s]?.map fun scope =>
        if target = s then { scope with entries := scope.entries ++ xs.map fun x => (x.id, x) }
        else scope := by
  unfold extend
  rw [List.getElem?_modify]
  by_cases h : target = s
  · simp only [if_pos h]
    rfl
  · simp only [if_neg h]
    rfl

@[simp] theorem parent?_extend (t : SymbolTable) (target s : Nat) (xs : List Symbol) :
    (t.extend target xs).parent? s = t.parent? s := by
  unfold parent?
  rw [getElem?_extend]
  cases t.scopes[s]? with
  | none => rfl
  | some scope =>
    by_cases h : target = s
    · simp only [if_pos h, Option.map_some, Option.bind_some]
    · simp only [if_neg h, Option.map_some, Option.bind_some]

@[simp] theorem chain_extend (t : SymbolTable) (target s : Nat) (xs : List Symbol) :
    (t.extend target xs).chain s = t.chain s :=
  chain_congr (fun s => parent?_extend t target s xs) s

theorem entries_extend_self (h : t.hasScope target = true) (xs : List Symbol) :
    (t.extend target xs).entries target = t.entries target ++ xs.map fun x => (x.id, x) := by
  unfold entries
  rw [getElem?_extend, List.getElem?_eq_getElem (hasScope_iff.1 h), Option.map_some, if_pos rfl]

theorem entries_extend_of_ne (h : target ≠ s) (t : SymbolTable) (xs : List Symbol) :
    (t.extend target xs).entries s = t.entries s := by
  unfold entries
  rw [getElem?_extend]
  cases t.scopes[s]? with
  | none => rfl
  | some scope => rw [Option.map_some, if_neg h]

@[simp] theorem extend_nil (t : SymbolTable) (target : Nat) : t.extend target [] = t := by
  have hscopes : (t.extend target []).scopes = t.scopes := by
    apply List.ext_getElem?
    intro s
    rw [getElem?_extend]
    simp
  exact congrArg (SymbolTable.mk t.collapses) hscopes

/-- Growing in two steps is growing in one. -/
@[simp] theorem extend_extend (t : SymbolTable) (target : Nat) (xs ys : List Symbol) :
    (t.extend target xs).extend target ys = t.extend target (xs ++ ys) := by
  unfold extend
  simp only [List.modify_modify_eq, Function.comp_def, List.map_append, List.append_assoc]

theorem keys_extend_self (h : t.hasScope target = true) (xs : List Symbol) :
    ((t.extend target xs).entries target).map Prod.fst =
      (t.entries target).map Prod.fst ++ xs.map Symbol.id := by
  rw [entries_extend_self h, List.map_append, List.map_map]
  rfl

/-- Storing a symbol under a new name is growing by it. -/
theorem modify_put (h : t.hasScope target = true) {x : Symbol}
    (hx : x.id ∉ (t.entries target).map Prod.fst) :
    { t with scopes := t.scopes.modify target (·.put x) } = t.extend target [x] := by
  have hlt := hasScope_iff.1 h
  rw [entries, List.getElem?_eq_getElem hlt] at hx
  have hput : t.scopes[target].put x =
      { t.scopes[target] with entries := t.scopes[target].entries ++ [(x.id, x)] } :=
    congrArg (Scope.mk _) (putEntry_of_not_mem x hx)
  rw [extend, List.modify_eq_take_cons_drop hlt, List.modify_eq_take_cons_drop hlt, hput]
  rfl

/-- What becomes visible as a scope grows. -/
theorem visible_extend (h : t.hasScope target = true) (hchain : target ∈ t.chain s) {key : Text} :
    (t.extend target xs).Visible s key ↔ t.Visible s key ∨ key ∈ xs.map Symbol.id := by
  unfold Visible
  rw [chain_extend]
  constructor
  · rintro ⟨u, hu, hkey⟩
    by_cases htarget : target = u
    · subst htarget
      rw [keys_extend_self h, List.mem_append] at hkey
      exact hkey.imp (fun hkey => ⟨target, hu, hkey⟩) id
    · rw [entries_extend_of_ne htarget] at hkey
      exact Or.inl ⟨u, hu, hkey⟩
  · rintro (⟨u, hu, hkey⟩ | hkey)
    · refine ⟨u, hu, ?_⟩
      by_cases htarget : target = u
      · subst htarget
        rw [keys_extend_self h]
        exact List.mem_append_left _ hkey
      · rwa [entries_extend_of_ne htarget]
    · refine ⟨target, hchain, ?_⟩
      rw [keys_extend_self h]
      exact List.mem_append_right _ hkey

/-- **Symbols that can be stored together** through a scope: they know where, and their names are in
normal form, not visible yet and all different. -/
structure Fresh (t : SymbolTable) (s : Nat) (xs : List Symbol) : Prop where
  each : ∀ x ∈ xs, normalize x.id = x.id ∧ x.scope = some (t.effectiveScope s) ∧
    ¬ t.Visible s x.id
  nodup : (xs.map Symbol.id).Nodup

/-- **Tables stay sound as they grow** by fresh symbols. -/
theorem Sound.extend (h : t.Sound) (hs : t.hasScope s = true) (hxs : t.Fresh s xs) :
    (t.extend (t.effectiveScope s) xs).Sound := by
  have hhas := h.hasScope_effectiveScope hs
  have hmem := h.effectiveScope_mem_chain hs
  constructor
  case root => simpa using h.root
  case parent_lt => simpa using h.parent_lt
  case entry =>
    intro u key x hx
    by_cases hu : t.effectiveScope s = u
    · subst hu
      rw [entries_extend_self hhas, List.mem_append] at hx
      rcases hx with hx | hx
      · exact h.entry _ key x hx
      · obtain ⟨y, hy, heq⟩ := List.mem_map.1 hx
        obtain ⟨rfl, rfl⟩ := Prod.mk.inj heq
        exact ⟨rfl, (hxs.each y hy).1, (hxs.each y hy).2.1⟩
    · rw [entries_extend_of_ne hu] at hx
      exact h.entry u key x hx
  case nodup =>
    intro u
    by_cases hu : t.effectiveScope s = u
    · subst hu
      rw [keys_extend_self hhas]
      refine List.nodup_append.2 ⟨h.nodup _, hxs.nodup, ?_⟩
      rintro key hkey _ hnew rfl
      obtain ⟨x, hx, rfl⟩ := List.mem_map.1 hnew
      exact (hxs.each x hx).2.2 ⟨_, hmem, hkey⟩
    · rw [entries_extend_of_ne hu]
      exact h.nodup u
  case flat =>
    intro hcollapses u hu
    have heff : t.effectiveScope s = SymbolTable.root := if_pos hcollapses
    rw [entries_extend_of_ne (by rw [heff]; exact Ne.symm hu)]
    exact h.flat hcollapses u hu

/-! ## Adding a symbol -/

/-- A name that is visible from a scope is refused. -/
theorem add_of_visible {x : Symbol} (hv : t.Visible s (normalize x.id)) :
    t.add s x = .error ⟨x.id⟩ := by
  cases hfind : t.find? s x.id with
  | none => exact absurd hv (find?_eq_none_iff.1 hfind)
  | some y => rw [add, hfind]

/-- **A new name is stored** at the end of the scope that takes what is added. -/
theorem Sound.add_of_not_visible (h : t.Sound) (hs : t.hasScope s = true) {x : Symbol}
    (hx : normalize x.id = x.id) (hv : ¬ t.Visible s x.id) :
    t.add s x =
      .ok (t.extend (t.effectiveScope s) [x.storedIn (t.effectiveScope s)],
        t.effectiveScope s) := by
  have hfind : t.find? s x.id = none := find?_eq_none_iff.2 (hx.symm ▸ hv)
  have hnot : x.id ∉ (t.entries (t.effectiveScope s)).map Prod.fst := fun hmem =>
    hv ⟨_, h.effectiveScope_mem_chain hs, hmem⟩
  rw [add, hfind]
  exact congrArg (fun u => Except.ok (u, t.effectiveScope s))
    (modify_put (h.hasScope_effectiveScope hs) hnot)

/-! ## Growing by a scope -/

theorem getElem?_newScope (t : SymbolTable) (p s : Nat) :
    (t.newScope p).1.scopes[s]? =
      if s = t.scopes.length then some (.empty (some p)) else t.scopes[s]? := by
  rw [newScope, List.getElem?_append]
  by_cases hlt : s < t.scopes.length
  · rw [if_pos hlt, if_neg (Nat.ne_of_lt hlt)]
  · rw [if_neg hlt]
    by_cases heq : s = t.scopes.length
    · rw [if_pos heq, heq, Nat.sub_self]
      rfl
    · rw [if_neg heq, List.getElem?_eq_none (by simp; omega), List.getElem?_eq_none (by omega)]

theorem hasScope_newScope (t : SymbolTable) (p s : Nat) :
    (t.newScope p).1.hasScope s = true ↔ t.hasScope s = true ∨ s = t.scopes.length := by
  rw [hasScope_iff, hasScope_iff, newScope, List.length_append]
  simp
  omega

theorem entries_newScope (t : SymbolTable) (p s : Nat) :
    (t.newScope p).1.entries s = t.entries s := by
  unfold entries
  rw [getElem?_newScope]
  by_cases h : s = t.scopes.length
  · rw [if_pos h, List.getElem?_eq_none (Nat.le_of_eq h.symm)]
    rfl
  · rw [if_neg h]

theorem parent?_newScope_self (t : SymbolTable) (p : Nat) :
    (t.newScope p).1.parent? t.scopes.length = some p := by
  unfold parent?
  rw [getElem?_newScope, if_pos rfl]
  rfl

theorem parent?_newScope (hs : t.hasScope s = true) (p : Nat) :
    (t.newScope p).1.parent? s = t.parent? s := by
  unfold parent?
  rw [getElem?_newScope, if_neg (Nat.ne_of_lt (hasScope_iff.1 hs))]

/-- **Tables stay sound as they get more scopes.** -/
theorem Sound.newScope (h : t.Sound) (hp : t.hasScope p = true) : (t.newScope p).1.Sound := by
  constructor
  case root =>
    refine ⟨(hasScope_newScope t p _).2 (Or.inl h.root.1), ?_⟩
    rw [parent?_newScope h.root.1]
    exact h.root.2
  case parent_lt =>
    intro s hs hroot
    rcases (hasScope_newScope t p s).1 hs with hs | rfl
    · rw [parent?_newScope hs]
      exact h.parent_lt s hs hroot
    · exact ⟨p, parent?_newScope_self t p, hasScope_iff.1 hp⟩
  case entry =>
    intro s key x hx
    rw [entries_newScope] at hx
    exact h.entry s key x hx
  case nodup =>
    intro s
    rw [entries_newScope]
    exact h.nodup s
  case flat =>
    intro hcollapses s hs
    rw [entries_newScope]
    exact h.flat hcollapses s hs

/-! ## New tables -/

theorem entries_new (collapses : Bool) (s : Nat) : (new collapses).entries s = [] := by
  cases s <;> rfl

/-- **A new table is sound.** -/
theorem sound_new (collapses : Bool) : (new collapses).Sound := by
  constructor
  case root => exact ⟨rfl, rfl⟩
  case parent_lt =>
    intro s hs hroot
    exact absurd (Nat.lt_one_iff.1 (hasScope_iff.1 hs)) hroot
  case entry =>
    intro s key x hx
    rw [entries_new] at hx
    exact absurd hx List.not_mem_nil
  case nodup =>
    intro s
    rw [entries_new]
    exact List.nodup_nil
  case flat =>
    intro _ s _
    exact entries_new collapses s

theorem not_visible_new (collapses : Bool) (s : Nat) (key : Text) :
    ¬ (new collapses).Visible s key := by
  rintro ⟨u, -, hkey⟩
  rw [entries_new] at hkey
  exact List.not_mem_nil hkey

end LineLang.SymbolTable
