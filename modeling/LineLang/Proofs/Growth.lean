import LineLang.Proofs.SymbolTable

/-!
# How tables grow

Whatever is asked of a table, it stays as it is, or gets one more scope, or gets new names at the
end of one scope. What is true of a table at all later times is shown by these three cases.

About `new_scope` and `add_symbol`.

* `Reaches`: from a scope to itself or to an ancestor.
* `Grows`, `Grown`: one step of growth, and any number of them.

Results:
* `Sound.mem_chain_iff`: a scope and its ancestors are its chain.
* `Grows.sound`, `Grows.chain`, `Grows.symbols_kept`: growing tables stay sound, and keep the
  ancestors of every scope and the symbols in it.
-/

namespace LineLang.SymbolTable

open LineLang.Symbol (normalize)

variable {t u : SymbolTable} {s a p target : Nat} {xs : List Symbol}

/-! ## Ancestors -/

/-- Going from parent to parent leads from a scope to another one: to itself or to an ancestor. -/
def Reaches (t : SymbolTable) (s a : Nat) : Prop :=
  Relation.ReflTransGen (fun s p => t.parent? s = some p) s a

/-- **A scope and its ancestors are its chain.** -/
theorem Sound.mem_chain_iff (h : t.Sound) (hs : t.hasScope s = true) :
    a ∈ t.chain s ↔ t.Reaches s a := by
  induction s using Nat.strongRecOn with
  | ind s ih =>
    rw [Reaches, Relation.ReflTransGen.cases_head_iff]
    rcases h.root_or_parent hs with ⟨-, hparent⟩ | ⟨p, hp, hhas, hparent⟩
    · rw [chain_of_no_parent hparent, List.mem_singleton]
      simp [hparent, eq_comm]
    · rw [chain_of_parent hparent hp, List.mem_cons, ih p hp hhas]
      simp [hparent, Reaches, eq_comm]

/-- The keys of a scope are the names of its symbols. -/
theorem Sound.keys_eq (h : t.Sound) (s : Nat) :
    (t.entries s).map Prod.fst = (t.symbols s).map Symbol.id := by
  rw [symbols_eq, List.map_map]
  exact List.map_congr_left fun e he => (h.entry s e.1 e.2 he).1

/-- A key is visible if the scope or an ancestor stores a symbol of this name. -/
theorem Sound.visible_iff (h : t.Sound) (hs : t.hasScope s = true) {key : Text} :
    t.Visible s key ↔ ∃ a, t.Reaches s a ∧ ∃ x ∈ t.symbols a, x.id = key := by
  simp only [Visible, h.mem_chain_iff hs, h.keys_eq, List.mem_map]

/-! ## Symbols of a grown table -/

theorem symbols_extend_self (h : t.hasScope target = true) (xs : List Symbol) :
    (t.extend target xs).symbols target = t.symbols target ++ xs := by
  rw [symbols_eq, symbols_eq, entries_extend_self h, List.map_append, List.map_map]
  exact congrArg _ (List.map_id xs)

theorem symbols_extend_of_ne (h : target ≠ s) (t : SymbolTable) (xs : List Symbol) :
    (t.extend target xs).symbols s = t.symbols s := by
  rw [symbols_eq, symbols_eq, entries_extend_of_ne h]

theorem symbols_newScope (t : SymbolTable) (p s : Nat) :
    (t.newScope p).1.symbols s = t.symbols s := by
  rw [symbols_eq, symbols_eq, entries_newScope]

/-! ## One step -/

/-- **One step of growth.** -/
inductive Grows (t : SymbolTable) : SymbolTable → Prop
  /-- Nothing happens. -/
  | same : Grows t t
  /-- A scope gets a child. -/
  | newScope {p : Nat} (hp : t.hasScope p = true) : Grows t (t.newScope p).1
  /-- Symbols are stored through a scope. -/
  | extend {s : Nat} {xs : List Symbol} (hs : t.hasScope s = true) (hxs : t.Fresh s xs) :
      Grows t (t.extend (t.effectiveScope s) xs)

theorem Grows.sound (hg : Grows t u) (h : t.Sound) : u.Sound := by
  cases hg with
  | same => exact h
  | newScope hp => exact h.newScope hp
  | extend hs hxs => exact h.extend hs hxs

theorem Grows.collapses (hg : Grows t u) : u.collapses = t.collapses := by
  cases hg <;> rfl

theorem Grows.hasScope (hg : Grows t u) (hs : t.hasScope s = true) : u.hasScope s = true := by
  cases hg with
  | same => exact hs
  | newScope hp => exact (hasScope_newScope t _ s).2 (Or.inl hs)
  | extend => rwa [hasScope_extend]

theorem chain_newScope (hs : t.hasScope s = true) (p : Nat) :
    (t.newScope p).1.chain s = t.chain s := by
  induction s using Nat.strongRecOn with
  | ind s ih =>
    rw [chain, chain, parent?_newScope hs]
    cases t.parent? s with
    | none => rfl
    | some q =>
      by_cases hq : q < s
      · have hhas : t.hasScope q = true := hasScope_iff.2 (Nat.lt_trans hq (hasScope_iff.1 hs))
        simp only [if_pos hq, ih q hq hhas]
      · simp only [if_neg hq]

/-- Scopes keep their ancestors. -/
theorem Grows.chain (hg : Grows t u) (hs : t.hasScope s = true) : u.chain s = t.chain s := by
  cases hg with
  | same => rfl
  | newScope hp => exact chain_newScope hs _
  | extend => rw [chain_extend]

/-- **Scopes keep their symbols**, and new ones come after them. -/
theorem Grows.symbols_kept (hg : Grows t u) (h : t.Sound) (s : Nat) :
    t.symbols s <+: u.symbols s := by
  cases hg with
  | same => exact List.prefix_rfl
  | newScope hp => exact (symbols_newScope t _ s).symm ▸ List.prefix_rfl
  | @extend p xs hp hxs =>
    by_cases htarget : t.effectiveScope p = s
    · subst htarget
      rw [symbols_extend_self (h.hasScope_effectiveScope hp)]
      exact List.prefix_append _ _
    · exact (symbols_extend_of_ne htarget t xs).symm ▸ List.prefix_rfl

/-! ## Any number of steps -/

/-- **Growth** in any number of steps, each from a sound table. -/
def Grown : SymbolTable → SymbolTable → Prop :=
  Relation.ReflTransGen fun t u => t.Sound ∧ t.Grows u

theorem Grown.hasScope (hg : t.Grown u) (hs : t.hasScope s = true) : u.hasScope s = true := by
  induction hg with
  | refl => exact hs
  | tail _ hstep ih => exact hstep.2.hasScope ih

theorem Grown.symbols_kept (hg : t.Grown u) (s : Nat) : t.symbols s <+: u.symbols s := by
  induction hg with
  | refl => exact List.prefix_rfl
  | tail _ hstep ih => exact ih.trans (hstep.2.symbols_kept hstep.1 s)

end LineLang.SymbolTable
