import LineLang.Proofs.Request

/-!
# What a declaring instruction leaves

`var` makes the declarations of its parameters from left to right and stops at the first that cannot
be made; those before it stay. Though the names that are visible change on the way, the place where
it stops can be told from the table that it begins with and from the row of declarations.

About `Instruction.apply` and `declare`.

* `Declaration.at?`: the declaration at a place of a row of tokens.
* `Declaration.inPlaces`: the declarations of a row of tokens, place by place.
* `Declaration.BadAt`: a declaration of a row that cannot be made.

Results:
* `ofTokens_eq_inPlaces`: what the instruction reads off its parameters.
* `badAt_iff`: what is known of a name when its declaration is reached.
* `declarable_take`: the declarations before the first that cannot be made.
* `apply_var`: the effect of the instruction on every table that requests lead to.
-/

namespace LineLang

namespace Declaration

/-! ## Declarations by place -/

/-- The declaration at a place of a row of tokens: an identifier, with the size suffix that directly
follows it. -/
def at? (ts : List Token) (i : Nat) : Option Declaration :=
  (ts[i]?.filter (·.is .identifier)).map fun k =>
    ⟨k.text, (ts[i + 1]?.filter (·.is .sizeSuffix)).map Token.text⟩

/-- The declarations of a row of tokens, place by place. -/
def inPlaces (ts : List Token) : List Declaration := (List.range ts.length).filterMap (at? ts)

theorem leadingSuffix?_eq (ts : List Token) :
    leadingSuffix? ts = (ts[0]?.filter (·.is .sizeSuffix)).map Token.text := by
  cases ts with
  | nil => rfl
  | cons k ts =>
    rw [leadingSuffix?, List.getElem?_cons_zero, Option.filter_some]
    split <;> rfl

theorem at?_zero (k : Token) (ts : List Token) :
    at? (k :: ts) 0 = if k.is .identifier then some ⟨k.text, leadingSuffix? ts⟩ else none := by
  rw [at?, List.getElem?_cons_zero, Option.filter_some, leadingSuffix?_eq]
  split <;> rfl

/-- **What is read off a row of tokens** is what stands at its places. -/
theorem ofTokens_eq_inPlaces (ts : List Token) : ofTokens ts = inPlaces ts := by
  induction ts with
  | nil => rfl
  | cons k ts ih =>
    have hshift : at? (k :: ts) ∘ Nat.succ = at? ts := rfl
    rw [inPlaces, List.length_cons, List.range_succ_eq_map, List.filterMap_cons,
      List.filterMap_map, hshift, at?_zero, ofTokens, ih]
    split <;> rfl

/-! ## Declarations that cannot be made -/

variable {settings : Settings} {t : SymbolTable} {s k : Nat} {d : Declaration}
  {ds : List Declaration}

/-- **The declaration at a place of a row cannot be made** through a scope of a table: its size is
not allowed, or its name is visible in the table, or it was declared earlier in the row. -/
def BadAt (settings : Settings) (t : SymbolTable) (s : Nat) (ds : List Declaration) (k : Nat) :
    Prop :=
  ∃ d, ds[k]? = some d ∧
    (¬ d.Allowed settings ∨ t.find? s d.name ≠ none ∨ ∃ j < k, ∃ e, ds[j]? = some e ∧ e.key = d.key)

theorem mem_map_key_take {key : Text} :
    key ∈ (ds.take k).map Declaration.key ↔ ∃ j < k, ∃ e, ds[j]? = some e ∧ e.key = key := by
  rw [List.mem_map]
  constructor
  · rintro ⟨e, he, rfl⟩
    obtain ⟨j, hj⟩ := List.mem_iff_getElem?.1 he
    rw [List.getElem?_take] at hj
    split at hj
    · exact ⟨j, ‹j < k›, e, hj, rfl⟩
    · cases hj
  · rintro ⟨j, hlt, e, he, rfl⟩
    exact ⟨e, List.mem_iff_getElem?.2 ⟨j, by rw [List.getElem?_take_of_lt hlt, he]⟩, rfl⟩

instance (settings : Settings) (d : Declaration) : Decidable (d.Allowed settings) :=
  inferInstanceAs (Decidable (∀ suffix ∈ d.suffix, _))

instance (settings : Settings) (t : SymbolTable) (s : Nat) (ds : List Declaration) (k : Nat) :
    Decidable (BadAt settings t s ds k) :=
  decidable_of_iff
    (∃ d ∈ ds[k]?, ¬ d.Allowed settings ∨ t.find? s d.name ≠ none ∨ d.key ∈ (ds.take k).map key)
    (by simp only [BadAt, mem_map_key_take, Option.mem_def])

/-- What was declared before is known when a declaration is reached, besides what is visible. -/
theorem badAt_iff (hd : ds[k]? = some d) :
    BadAt settings t s ds k ↔
      ¬ (d.Allowed settings ∧ ¬ (t.Visible s d.key ∨ d.key ∈ (ds.take k).map key)) := by
  have hvisible : t.find? s d.name ≠ none ↔ t.Visible s d.key := by
    rw [ne_eq, SymbolTable.find?_eq_none_iff, not_not]
    rfl
  rw [not_and_or, not_not, mem_map_key_take, ← hvisible]
  constructor
  · rintro ⟨e, he, hbad⟩
    obtain rfl := Option.some.inj (hd.symm.trans he)
    exact hbad
  · exact fun hbad => ⟨d, hd, hbad⟩

/-- **The declarations before the first that cannot be made** can all be made, by induction on their
number. -/
theorem declarable_take (h : ∀ j < k, ¬ BadAt settings t s ds j) :
    Declarable settings (t.Visible s) (ds.take k) := by
  induction k with
  | zero => exact declarable_nil
  | succ k ih =>
    have hds := ih fun j hj => h j (Nat.lt_succ_of_lt hj)
    rw [List.take_add_one]
    cases hd : ds[k]? with
    | none => rwa [Option.toList_none, List.append_nil]
    | some d =>
      obtain ⟨hallowed, hnew⟩ := not_not.1 (mt (badAt_iff hd).2 (h k (Nat.lt_succ_self k)))
      exact declarable_append.2 ⟨hds, declarable_singleton hallowed hnew⟩

theorem SizeFault.not_allowed {suffix : Text} {f : ValueFault} (h : SizeFault settings suffix f)
    (hsuffix : d.suffix = some suffix) : ¬ d.Allowed settings := by
  intro hallowed
  have hrange := hallowed suffix hsuffix
  cases h with
  | notASize hbig => exact absurd settings.most.toNat_lt_size (by omega)
  | outOfRange _ hnot => exact hnot hrange

/-- **A declaration that cannot be made fails**, for its size if that is not allowed, and otherwise
for its name. -/
theorem exists_fails (hd : ds[k]? = some d) (h : BadAt settings t s ds k) :
    ∃ f, Fails settings (fun key' => t.Visible s key' ∨ key' ∈ (ds.take k).map key) d f ∧
      (d.Allowed settings → f = .duplicate ⟨d.key⟩) ∧
      (¬ d.Allowed settings → ∃ suffix v, d.suffix = some suffix ∧
        SizeFault settings suffix v ∧ f = .value v) := by
  rcases allowed_or_fails settings (fun key' => t.Visible s key' ∨ key' ∈ (ds.take k).map key) d
    with hmade | ⟨f, hf⟩
  · exact absurd hmade ((badAt_iff hd).1 h)
  · refine ⟨f, hf, ?_⟩
    cases hf with
    | value hsuffix hv =>
      exact ⟨fun hallowed => absurd hallowed (hv.not_allowed hsuffix),
        fun _ => ⟨_, _, hsuffix, hv, rfl⟩⟩
    | duplicate hallowed _ => exact ⟨fun _ => rfl, fun hnot => absurd hallowed hnot⟩

end Declaration

namespace Instruction

open Declaration

/-- **What `var` leaves**, through any scope of any table that requests lead to, whatever its
parameters are. If all its declarations can be made, then their symbols are added in order to the
scope that stores what is added, and the scope stays. If `k` is the first that cannot be made, then
the symbols of those before it are added, and the fault is that of its size if that is not allowed,
and otherwise that its name is known. Parameters with the same declarations have the same effect. -/
theorem apply_var (collapses : Bool) (rs : List Request) (hrs : ∀ r ∈ rs, r.Named)
    (s : Nat) (hs : ((SymbolTable.new collapses).performAll rs).1.hasScope s = true)
    (settings : Settings) (ps : List Token) :
    let t := ((SymbolTable.new collapses).performAll rs).1
    let target := t.effectiveScope s
    let ds := inPlaces ps
    ((∀ k, ¬ BadAt settings t s ds k) →
      var.apply settings ps s t = (t.extend target (ds.map (entry target)), .ok s)) ∧
    (∀ k, BadAt settings t s ds k → (∀ j < k, ¬ BadAt settings t s ds j) →
      ∃ d f, ds[k]? = some d ∧
        var.apply settings ps s t = (t.extend target ((ds.take k).map (entry target)), .error f) ∧
        (d.Allowed settings → f = .duplicate ⟨d.key⟩) ∧
        (¬ d.Allowed settings → ∃ suffix v, d.suffix = some suffix ∧
          SizeFault settings suffix v ∧ f = .value v)) ∧
    ∀ qs, inPlaces qs = ds → var.apply settings qs s t = var.apply settings ps s t := by
  intro t target ds
  obtain ⟨ht, -⟩ := (SymbolTable.sound_new collapses).performAll hrs
  have hdeclared : ∀ ps, var.declarations ps = inPlaces ps := ofTokens_eq_inPlaces
  refine ⟨fun hgood => ?_, fun k hbad hfirst => ?_, fun qs hqs => ?_⟩
  · have hall : Declarable settings (t.Visible s) ds := by
      rw [← List.take_length (l := ds)]
      exact declarable_take fun j _ => hgood j
    rw [apply_of_declarable ht hs (hdeclared ps ▸ hall), hdeclared]
  · obtain ⟨d, hd, -⟩ := id hbad
    obtain ⟨f, hf, hfault⟩ := exists_fails hd hbad
    obtain ⟨hlt, hget⟩ := List.getElem?_eq_some_iff.1 hd
    have hsplit : ds.take k ++ d :: ds.drop (k + 1) = ds := by
      rw [← hget, ← List.drop_eq_getElem_cons hlt, List.take_append_drop]
    refine ⟨d, f, hd, ?_, hfault⟩
    exact apply_of_fails ht hs ((hdeclared ps).trans hsplit.symm) (declarable_take hfirst) hf
  · rw [apply_eq, apply_eq, hdeclared, hdeclared, hqs]

/-- The parameters hold sizes that follow no name and a comment. The third declaration asks for too
many cells and has a name that is visible from the scope: the fault is its size, and the first two
stay. -/
theorem apply_var_partial :
    let rs : List Request := [.newScope 0, .newScope 1, .add 1 (Symbol.ofName "Foo".toList)]
    let t := ((SymbolTable.new false).performAll rs).1
    let ps : List Token := ["[7]", "A", "b", "[3]", "[4]", "# c", "foo", "[9999]", "d"].map
      fun text => ⟨text.toList, 0⟩
    (∀ r ∈ rs, r.Named) ∧ t.hasScope 2 = true ∧
      var.apply .default ps 2 t =
        (t.extend 2 [⟨"a".toList, none, none, some 2⟩, ⟨"b".toList, some 3, none, some 2⟩],
          .error (.value (.sizeOutOfRange 9999 1 256))) := by
  intro rs t ps
  have hnamed : ∀ r ∈ rs, r.Named := by
    simp only [rs, List.forall_mem_cons]
    exact ⟨trivial, trivial, ⟨_, rfl⟩, List.forall_mem_nil _⟩
  have hs : t.hasScope 2 = true := by decide +kernel
  obtain ⟨-, hstop, -⟩ := apply_var false rs hnamed 2 hs .default ps
  obtain ⟨d, f, hd, heffect, -, hvalue⟩ := hstop 2 (by decide +kernel) (by decide +kernel)
  obtain rfl : ⟨"foo".toList, some "[9999]".toList⟩ = d :=
    Option.some.inj (Eq.trans (by decide +kernel) hd)
  obtain ⟨suffix, v, hsuffix, hv, rfl⟩ := hvalue (by decide +kernel)
  obtain rfl := Option.some.inj hsuffix
  cases hv with
  | notASize hbig => exact absurd hbig (by decide +kernel)
  | outOfRange _ _ => exact ⟨hnamed, hs, heffect.trans (by decide +kernel)⟩

end Instruction

end LineLang
