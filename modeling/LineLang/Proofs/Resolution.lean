import LineLang.Proofs.Request

/-!
# Name resolution

What names stand for, from every scope, as a table grows. An addition gives a meaning to one name
and in those scopes only from which it had none, so a name keeps its meaning for good once it has
one.

About `add_symbol` and `find`.

* `Gains`: what one symbol in one scope changes for all lookups.
* `AddEffect`: what adding a symbol does to a table.

Results:
* `Sound.find?_extend`: looking names up in a table that grew.
* `Sound.find?_grows`: one step of growth keeps what was found.
* `Sound.mem_symbols_of_grows`: no scope takes a name that an ancestor has.
* `performAll_resolution`: additions to the tables of all runs, and what later requests keep.
-/

namespace LineLang.SymbolTable

open LineLang.Symbol (normalize)

variable {t u : SymbolTable} {s a p target : Nat} {xs : List Symbol} {name : Text}

/-! ## Lookups in a table that grew -/

theorem lookup_map_id (xs : List Symbol) (key : Text) :
    (xs.map fun x => (x.id, x)).lookup key = xs.find? (·.id = key) := by
  induction xs with
  | nil => rfl
  | cons x xs ih =>
    rw [List.map_cons, List.lookup_cons, List.find?_cons, ih]
    by_cases h : x.id = key
    · simp [h]
    · have hne : (key == x.id) = false := beq_false_of_ne (Ne.symm h)
      simp [h, hne]

theorem stored?_extend (htarget : t.hasScope target = true) (xs : List Symbol) (s : Nat)
    (key : Text) :
    (t.extend target xs).stored? s key =
      (t.stored? s key).or (if target = s then xs.find? (·.id = key) else none) := by
  rw [stored?_eq, stored?_eq]
  by_cases h : target = s
  · subst h
    rw [if_pos rfl, entries_extend_self htarget, List.lookup_append, lookup_map_id]
  · rw [if_neg h, entries_extend_of_ne h, Option.or_none]

/-- A fresh name is not found from the scope that is to store it. -/
theorem Sound.find?_eq_none_of_fresh (h : t.Sound) (hs : t.hasScope s = true) (hxs : t.Fresh s xs)
    {x : Symbol} (hx : xs.find? (·.id = normalize name) = some x) :
    t.find? (t.effectiveScope s) name = none := by
  have hid : x.id = normalize name := by simpa using List.find?_some hx
  refine find?_eq_none_iff.2 fun hvisible => ?_
  rw [← hid] at hvisible
  exact (hxs.each x (List.mem_of_find?_eq_some hx)).2.2
    (hvisible.of_mem_chain (h.effectiveScope_mem_chain hs))

/-- **Looking a name up in a table that grew** by fresh symbols: what was found before is found
again, and where nothing was found, a new symbol is, if its scope is on the way. -/
theorem Sound.find?_extend (h : t.Sound) (hs : t.hasScope s = true) (hxs : t.Fresh s xs) (v : Nat)
    (name : Text) :
    (t.extend (t.effectiveScope s) xs).find? v name =
      (t.find? v name).or
        (if t.effectiveScope s ∈ t.chain v then xs.find? (·.id = normalize name) else none) := by
  have hhas := h.hasScope_effectiveScope hs
  induction v using Nat.strongRecOn with
  | ind v ih =>
    rcases chain_cases t v with hchain | ⟨p, -, hp, hchain⟩
    · have hchain' := (chain_extend t (t.effectiveScope s) v xs).trans hchain
      rw [find?_of_chain_singleton hchain', find?_of_chain_singleton hchain, stored?_extend hhas,
        hchain]
      simp only [List.mem_singleton]
    · have hchain' : (t.extend (t.effectiveScope s) xs).chain v =
          v :: (t.extend (t.effectiveScope s) xs).chain p := by
        rw [chain_extend, chain_extend, hchain]
      rw [find?_of_chain_cons hchain', find?_of_chain_cons hchain, stored?_extend hhas, ih p hp,
        hchain]
      by_cases htarget : t.effectiveScope s = v
      · have hnot : v ∉ t.chain p := fun hmem => absurd (le_of_mem_chain hmem) (Nat.not_le.2 hp)
        rw [htarget, if_pos rfl, if_pos List.mem_cons_self, if_neg hnot, Option.or_none]
        cases hnew : xs.find? (·.id = normalize name) with
        | none => rw [Option.or_none, Option.or_none]
        | some x =>
          -- the name is new to this scope and to its ancestors
          have hnone := h.find?_eq_none_of_fresh hs hxs hnew
          rw [htarget, find?_of_chain_cons hchain, Option.or_eq_none_iff] at hnone
          rw [hnone.1, hnone.2]
          rfl
      · rw [if_neg htarget, Option.or_none, Option.or_assoc]
        simp only [List.mem_cons, htarget, false_or]

/-- **Growing keeps what was found.** -/
theorem Sound.find?_grows (h : t.Sound) (hg : t.Grows u) (hs : t.hasScope s = true) {x : Symbol}
    (hfind : t.find? s name = some x) : u.find? s name = some x := by
  cases hg with
  | same => exact hfind
  | newScope hp =>
    rw [find?, chain_newScope hs]
    simp only [stored?_eq, entries_newScope]
    simp only [← stored?_eq]
    exact hfind
  | extend hp hxs => rw [h.find?_extend hp hxs, hfind, Option.some_or]

/-! ## One addition -/

/-- **What a table gains by one symbol** in a scope: names keep their meanings, and the symbol is
what its name stands for in those scopes on whose way it is, if the name stood for nothing there. -/
structure Gains (t u : SymbolTable) (target : Nat) (x : Symbol) : Prop where
  kept : ∀ s name y, t.hasScope s = true → t.find? s name = some y → u.find? s name = some y
  found : ∀ s name, t.hasScope s = true → t.find? s name = none → normalize name = x.id →
    t.Reaches s target → u.find? s name = some (x.storedIn target)
  absent : ∀ s name, t.hasScope s = true → t.find? s name = none →
    ¬ (normalize name = x.id ∧ t.Reaches s target) → u.find? s name = none

theorem Sound.gains (h : t.Sound) (hs : t.hasScope s = true) {x : Symbol}
    (hx : t.Fresh s [x.storedIn (t.effectiveScope s)]) :
    t.Gains (t.extend (t.effectiveScope s) [x.storedIn (t.effectiveScope s)])
      (t.effectiveScope s) x := by
  constructor
  case kept =>
    intro v name y _ hfind
    rw [h.find?_extend hs hx, hfind, Option.some_or]
  case found =>
    intro v name hv hfind hname hreaches
    have hid : (x.storedIn (t.effectiveScope s)).id = normalize name := hname.symm
    rw [h.find?_extend hs hx, hfind, Option.none_or, if_pos ((h.mem_chain_iff hv).2 hreaches),
      List.find?_singleton, if_pos (decide_eq_true hid)]
  case absent =>
    intro v name hv hfind hnot
    rw [h.find?_extend hs hx, hfind, Option.none_or, List.find?_singleton]
    split
    · rename_i hchain
      refine if_neg fun hid => hnot ⟨?_, (h.mem_chain_iff hv).1 hchain⟩
      exact (of_decide_eq_true hid).symm
    · rfl

/-- **What adding a symbol does.** -/
structure AddEffect (t : SymbolTable) (s : Nat) (x : Symbol) : Prop where
  /-- The symbol is refused exactly if the scope or an ancestor stores its name. -/
  refused_iff : t.add s x = .error ⟨x.id⟩ ↔ ∃ a, t.Reaches s a ∧ ∃ y ∈ t.symbols a, y.id = x.id
  /-- Then the table stays as it is. -/
  unchanged : t.add s x = .error ⟨x.id⟩ →
    t.perform (.add s x) = (t, .refused (.declaration (.duplicate ⟨x.id⟩)))
  /-- Otherwise it is stored. -/
  stored : t.add s x ≠ .error ⟨x.id⟩ →
    ∃ u, t.add s x = .ok (u, t.effectiveScope s) ∧
      t.perform (.add s x) = (u, .scope (t.effectiveScope s)) ∧ t.Gains u (t.effectiveScope s) x

theorem Sound.addEffect (h : t.Sound) (hs : t.hasScope s = true) {x : Symbol} (hx : x.Named) :
    t.AddEffect s x := by
  have hrefused : t.Visible s x.id → t.add s x = .error ⟨x.id⟩ := fun hv =>
    add_of_visible (hx.normalize_id.symm ▸ hv)
  have hstored := h.add_of_not_visible hs hx.normalize_id
  constructor
  case refused_iff =>
    rw [← h.visible_iff hs]
    refine ⟨fun hadd => ?_, hrefused⟩
    by_contra hv
    rw [hstored hv] at hadd
    cases hadd
  case unchanged =>
    intro hadd
    rw [perform_add hs, performAdd, hadd]
  case stored =>
    intro hadd
    have hv : ¬ t.Visible s x.id := fun hv => hadd (hrefused hv)
    exact ⟨_, hstored hv, by rw [perform_add hs, h.performAdd_of_not_visible hs hx hv],
      h.gains hs (fresh_singleton hx hv)⟩

/-! ## Scopes before their ancestors -/

theorem hasScope_of_mem_symbols {x : Symbol} (h : x ∈ t.symbols s) : t.hasScope s = true := by
  by_contra hs
  rw [hasScope_iff] at hs
  rw [symbols, List.getElem?_eq_none (Nat.not_lt.1 hs)] at h
  exact List.not_mem_nil h

/-- **No scope takes a name that an ancestor has**: where both store it after a step, the scope did
so before. -/
theorem Sound.mem_symbols_of_grows (h : t.Sound) (hg : t.Grows u) {x y : Symbol}
    (ha : a ∈ u.chain s) (hne : a ≠ s) (hx : x ∈ u.symbols s) (hy : y ∈ u.symbols a)
    (hid : y.id = x.id) : x ∈ t.symbols s := by
  cases hg with
  | same => exact hx
  | newScope hp => rwa [symbols_newScope] at hx
  | @extend p xs hp hxs =>
    by_cases htarget : t.effectiveScope p = s
    · subst htarget
      rw [symbols_extend_self (h.hasScope_effectiveScope hp), List.mem_append] at hx
      rw [chain_extend] at ha
      rw [symbols_extend_of_ne (Ne.symm hne)] at hy
      refine hx.resolve_right fun hx => ?_
      have hvisible : t.Visible (t.effectiveScope p) y.id :=
        ⟨a, ha, by rw [h.keys_eq]; exact List.mem_map_of_mem hy⟩
      rw [hid] at hvisible
      exact (hxs.each x hx).2.2 (hvisible.of_mem_chain (h.effectiveScope_mem_chain hp))
    · rwa [symbols_extend_of_ne htarget] at hx

/-! ## Runs -/

/-- What is found stays found, however the table grows. -/
theorem Grown.find?_eq_some (hg : t.Grown u) (hs : t.hasScope s = true) {x : Symbol}
    (hfind : t.find? s name = some x) : u.find? s name = some x := by
  induction hg with
  | refl => exact hfind
  | tail hbefore hstep ih => exact hstep.1.find?_grows hstep.2 (Grown.hasScope hbefore hs) ih

/-- A scope and an ancestor that store one name at the end of a run: at some time during the run
only the scope did. By induction on the run, with the last request taken off: if the ancestor stored
the name before it too, the time is an earlier one. -/
theorem exists_time_before_ancestor (collapses : Bool) {rs : List Request}
    (hrs : ∀ r ∈ rs, r.Named) {x : Symbol}
    (ha : a ∈ ((new collapses).performAll rs).1.chain s) (hne : a ≠ s)
    (hx : x ∈ ((new collapses).performAll rs).1.symbols s)
    (hy : ∃ y ∈ ((new collapses).performAll rs).1.symbols a, y.id = x.id) :
    ∃ before, before <+: rs ∧ x ∈ ((new collapses).performAll before).1.symbols s ∧
      ∀ y ∈ ((new collapses).performAll before).1.symbols a, y.id ≠ x.id := by
  induction rs using List.reverseRecOn with
  | nil =>
    have hnone : (new collapses).symbols s = [] := by rw [symbols_eq, entries_new, List.map_nil]
    rw [performAll, hnone] at hx
    exact absurd hx List.not_mem_nil
  | append_singleton rs r ih =>
    rw [List.forall_mem_append, List.forall_mem_singleton] at hrs
    rw [performAll_append] at ha hx hy
    have hsound := ((sound_new collapses).performAll hrs.1).1
    have hstep := hsound.grows_perform hrs.2
    obtain ⟨y, hy, hid⟩ := hy
    have hx' := hsound.mem_symbols_of_grows hstep ha hne hx hy hid
    by_cases hy' : ∃ y ∈ ((new collapses).performAll rs).1.symbols a, y.id = x.id
    · have hchain := hstep.chain (hasScope_of_mem_symbols hx')
      obtain ⟨before, hbefore, htime⟩ := ih hrs.1 (hchain ▸ ha) hx' hy'
      exact ⟨before, hbefore.trans (List.prefix_append _ _), htime⟩
    · refine ⟨rs, List.prefix_append _ _, hx', fun z hz hzid => hy' ⟨z, hz, hzid⟩⟩

/-- **Name resolution is stable.** In the table of any run, adding a symbol is refused exactly if
the scope or an ancestor stores its name, and changes nothing then; otherwise it gives the name a
meaning where it had none and nothing else changes. Whatever is requested afterwards, scopes keep
their symbols and names that stand for something go on to stand for it. Where a scope and a proper
ancestor store one name, the scope came first: at some time during the run only the scope did. -/
theorem performAll_resolution (collapses : Bool) (rs : List Request) (hrs : ∀ r ∈ rs, r.Named) :
    let t := ((new collapses).performAll rs).1
    (∀ s x, t.hasScope s = true → x.Named → t.AddEffect s x) ∧
      (∀ more : List Request, (∀ r ∈ more, r.Named) → ∀ s, t.hasScope s = true →
        t.symbols s <+: (t.performAll more).1.symbols s ∧
        ∀ name x, t.find? s name = some x → (t.performAll more).1.find? s name = some x) ∧
      ∀ s a, t.Reaches s a → a ≠ s → ∀ x ∈ t.symbols s, (∃ y ∈ t.symbols a, y.id = x.id) →
        ∃ before, before <+: rs ∧ x ∈ ((new collapses).performAll before).1.symbols s ∧
          ∀ y ∈ ((new collapses).performAll before).1.symbols a, y.id ≠ x.id := by
  intro t
  have hsound : t.Sound := ((sound_new collapses).performAll hrs).1
  refine ⟨fun s x hs hx => hsound.addEffect hs hx, fun more hmore s hs => ?_, ?_⟩
  · have hgrown := hsound.grown_performAll hmore
    exact ⟨hgrown.symbols_kept s, fun name x hfind => hgrown.find?_eq_some hs hfind⟩
  · intro s a hreaches hne x hx hy
    have hchain := (hsound.mem_chain_iff (hasScope_of_mem_symbols hx)).2 hreaches
    exact exists_time_before_ancestor collapses hrs hchain hne hx hy

/-- A run in which an inner scope takes a name, and the root takes it afterwards. -/
def nestedRequests : List Request :=
  [.newScope 0, .newScope 0, .add 1 ((Symbol.ofName "x".toList).withArraySize 2),
    .add 0 (Symbol.ofName "X".toList)]

/-- The inner scope keeps its array and refuses the name, and it came first. In its sibling the name
stands for the symbol of the root, for which it stood for nothing before. -/
theorem performAll_resolution_nested :
    (∀ r ∈ nestedRequests, r.Named) ∧
      (let t := ((new false).performAll nestedRequests).1
       t.find? 1 "X".toList = some ⟨"x".toList, some 2, none, some 1⟩ ∧
         t.find? 2 "X".toList = some ⟨"x".toList, none, none, some 0⟩ ∧
         t.add 1 (Symbol.ofName "X".toList) = .error ⟨"x".toList⟩ ∧
         ∃ before, before <+: nestedRequests ∧
           ⟨"x".toList, some 2, none, some 1⟩ ∈ ((new false).performAll before).1.symbols 1 ∧
           ∀ y ∈ ((new false).performAll before).1.symbols 0, y.id ≠ "x".toList) := by
  have hnamed : ∀ r ∈ nestedRequests, r.Named := by
    simp only [nestedRequests, List.forall_mem_cons]
    exact ⟨trivial, trivial, ⟨_, rfl⟩, ⟨_, rfl⟩, List.forall_mem_nil _⟩
  obtain ⟨hadd, -, hfirst⟩ := performAll_resolution false nestedRequests hnamed
  have hreaches : ((new false).performAll nestedRequests).1.Reaches 1 0 :=
    .single (by decide +kernel)
  refine ⟨hnamed, by decide +kernel, by decide +kernel, ?_, ?_⟩
  · refine (hadd 1 (Symbol.ofName "X".toList) (by decide +kernel) ⟨_, rfl⟩).refused_iff.2 ?_
    exact ⟨1, .refl, ⟨"x".toList, some 2, none, some 1⟩, by decide +kernel, by decide +kernel⟩
  · refine hfirst 1 0 hreaches (by decide) ⟨"x".toList, some 2, none, some 1⟩ ?_ ?_
    · decide +kernel
    · exact ⟨⟨"x".toList, none, none, some 0⟩, by decide +kernel, rfl⟩

end LineLang.SymbolTable
