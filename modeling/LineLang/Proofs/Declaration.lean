import Mathlib.Data.List.Induction
import LineLang.Instruction
import LineLang.Proofs.Category
import LineLang.Proofs.Lowercase
import LineLang.Proofs.SymbolTable

/-!
# Making declarations

Which declarations can be made through a scope, in what way the others fail, and what is left in the
table. Sizes are numbers of any length here: a suffix may ask for more cells than 64 bits can count.

About `declare` and `array_size`.

* `Allowed`: a declaration asks for no size, or for one within the settings.
* `Declarable`: declarations that can all be made, one after another, where some names are known.
* `Fails`: the way in which one declaration fails.

Results:
* `declare_of_allowed`, `declare_of_fails`: one declaration.
* `declareAll_of_declarable`, `declareAll_of_fails`: a row of declarations.
* `declarable_or_fails`: a row of declarations can be made, or has a first one that fails.
* `apply_of_declarable`, `apply_of_fails`: an instruction that makes a row of declarations.
* `sound_declared`: tables stay sound.
-/

namespace LineLang

open Category (sizeSuffix)

/-- A property of rows that can only be lost by one more item is true of a row, or there is a first
item at which it is lost. -/
theorem holds_or_first_failure {α β : Type} {holds : List α → Prop} {fails : List α → α → β → Prop}
    (hnil : holds []) (hstep : ∀ xs x, holds xs → holds (xs ++ [x]) ∨ ∃ f, fails xs x f)
    (xs : List α) :
    holds xs ∨ ∃ before x after f, xs = before ++ x :: after ∧ holds before ∧ fails before x f := by
  induction xs using List.reverseRecOn with
  | nil => exact Or.inl hnil
  | append_singleton xs x ih =>
    rcases ih with hxs | ⟨before, y, after, f, rfl, hbefore, hf⟩
    · rcases hstep xs x hxs with hx | ⟨f, hf⟩
      · exact Or.inl hx
      · exact Or.inr ⟨xs, x, [], f, rfl, hxs, hf⟩
    · refine Or.inr ⟨before, y, after ++ [x], f, ?_, hbefore, hf⟩
      rw [List.append_assoc, List.cons_append]

namespace Declaration

variable {settings : Settings} {d : Declaration} {ds : List Declaration} {known : Text → Prop}

/-! ## Sizes -/

/-- The number between the brackets of a suffix, of any length. -/
def cells (suffix : Text) : Nat := Text.Decimal.value (suffix.drop 1).dropLast

/-- What is wrong with a suffix under the given settings. -/
inductive SizeFault (settings : Settings) (suffix : Text) : ValueFault → Prop
  | notASize (h : UInt64.size ≤ cells suffix) : SizeFault settings suffix (.notASize suffix)
  | outOfRange (h : cells suffix < UInt64.size)
      (hrange : ¬ (settings.least.toNat ≤ cells suffix ∧ cells suffix ≤ settings.most.toNat)) :
      SizeFault settings suffix
        (.sizeOutOfRange (UInt64.ofNat (cells suffix)) settings.least settings.most)

theorem dropLast_drop_bracketed (digits : Text) :
    (('[' :: digits ++ [']']).drop 1).dropLast = digits :=
  List.dropLast_concat

theorem cells_bracketed (digits : Text) :
    cells ('[' :: digits ++ [']']) = Text.Decimal.value digits := by
  rw [cells, dropLast_drop_bracketed]

theorem dropSign_digit {c : Char} (h : CharClass.digit.contains c = true) (t : Text) :
    Text.Decimal.dropSign (c :: t) = c :: t := by
  unfold Text.Decimal.dropSign
  split
  · rename_i heq
    obtain ⟨rfl, -⟩ := List.cons.inj heq
    exact absurd h (by decide)
  · rfl

/-- A row of digits is read as the number that it denotes, if that has 64 bits. -/
theorem readWord?_of_row {t : Text}
    (h : Category.Row .digit .digit (Text.Decimal.dropSign t)) :
    Text.Decimal.readWord? t =
      if Text.Decimal.value (Text.Decimal.dropSign t) < UInt64.size then
        some (UInt64.ofNat (Text.Decimal.value (Text.Decimal.dropSign t)))
      else none := by
  obtain ⟨hne, hdigits⟩ := Category.row_self_iff.1 h
  have hall : (Text.Decimal.dropSign t).all Char.isDigit = true := by
    simp only [List.all_eq_true, ← CharClass.contains_digit]
    exact hdigits
  have hempty : (Text.Decimal.dropSign t).isEmpty = false := List.isEmpty_eq_false_iff.2 hne
  unfold Text.Decimal.readWord?
  simp only [hall, hempty, Bool.not_false, Bool.true_and, decide_eq_true_eq]

/-- A suffix denotes the number between its brackets, if that has 64 bits. -/
theorem sizeOfSuffix?_eq {suffix : Text} (h : sizeSuffix.pattern.Accepts suffix) :
    sizeOfSuffix? suffix =
      if cells suffix < UInt64.size then some (UInt64.ofNat (cells suffix)) else none := by
  obtain ⟨_, ⟨c, rest, rfl, hc, hrest⟩, rfl⟩ := Category.accepts_sizeSuffix.1 h
  have hsign := dropSign_digit hc rest
  rw [sizeOfSuffix?, cells_bracketed, dropLast_drop_bracketed,
    readWord?_of_row (hsign.symm ▸ ⟨c, rest, rfl, hc, hrest⟩), hsign]

theorem allows_ofNat_iff {n : Nat} (h : n < UInt64.size) :
    settings.allows (UInt64.ofNat n) = true ↔
      settings.least.toNat ≤ n ∧ n ≤ settings.most.toNat := by
  simp only [Settings.allows, Bool.and_eq_true, decide_eq_true_eq, UInt64.le_iff_toNat_le,
    UInt64.toNat_ofNat_of_lt' h]

theorem readSize_of_sizeFault {suffix : Text} (h : sizeSuffix.pattern.Accepts suffix)
    {f : ValueFault} (hf : SizeFault settings suffix f) : readSize settings suffix = .error f := by
  unfold readSize
  rw [sizeOfSuffix?_eq h]
  cases hf with
  | notASize hbig => rw [if_neg (Nat.not_lt.2 hbig)]
  | outOfRange hlt hrange =>
    have hnot : ¬ settings.allows (UInt64.ofNat (cells suffix)) = true := fun hallows =>
      hrange ((allows_ofNat_iff hlt).1 hallows)
    rw [if_pos hlt]
    exact if_neg hnot

theorem readSize_of_le {suffix : Text} (h : sizeSuffix.pattern.Accepts suffix)
    (hrange : settings.least.toNat ≤ cells suffix ∧ cells suffix ≤ settings.most.toNat) :
    readSize settings suffix = .ok (UInt64.ofNat (cells suffix)) := by
  have hlt : cells suffix < UInt64.size := Nat.lt_of_le_of_lt hrange.2 settings.most.toNat_lt_size
  have hallows := (allows_ofNat_iff hlt).2 hrange
  unfold readSize
  rw [sizeOfSuffix?_eq h, if_pos hlt]
  exact if_pos hallows

/-! ## One declaration -/

/-- The name under which a declaration is stored. -/
def key (d : Declaration) : Text := Symbol.normalize d.name

/-- The symbol that a declaration leaves in a scope. -/
def entry (scope : Nat) (d : Declaration) : Symbol :=
  ⟨d.key, d.suffix.map fun suffix => UInt64.ofNat (cells suffix), none, some scope⟩

/-- The size of a declaration, if it asks for one, is within the settings. -/
def Allowed (settings : Settings) (d : Declaration) : Prop :=
  ∀ suffix ∈ d.suffix,
    settings.least.toNat ≤ cells suffix ∧ cells suffix ≤ settings.most.toNat

/-- The suffix of a declaration is one. -/
def Proper (d : Declaration) : Prop := ∀ suffix ∈ d.suffix, sizeSuffix.pattern.Accepts suffix

/-- The way in which a declaration fails where some names are known: its size is looked at first. -/
inductive Fails (settings : Settings) (known : Text → Prop) (d : Declaration) :
    DeclarationFault → Prop
  | value {suffix : Text} {f : ValueFault} (hsuffix : d.suffix = some suffix)
      (hf : SizeFault settings suffix f) : Fails settings known d (.value f)
  | duplicate (hallowed : d.Allowed settings) (hknown : known d.key) :
      Fails settings known d (.duplicate ⟨d.key⟩)

/-- A declaration can be made, or fails in some way. -/
theorem allowed_or_fails (settings : Settings) (known : Text → Prop) (d : Declaration) :
    (d.Allowed settings ∧ ¬ known d.key) ∨ ∃ f, Fails settings known d f := by
  by_cases hallowed : d.Allowed settings
  · by_cases hknown : known d.key
    · exact Or.inr ⟨_, .duplicate hallowed hknown⟩
    · exact Or.inl ⟨hallowed, hknown⟩
  · simp only [Allowed, not_forall] at hallowed
    obtain ⟨suffix, hsuffix, hrange⟩ := hallowed
    by_cases hlt : cells suffix < UInt64.size
    · exact Or.inr ⟨_, .value hsuffix (.outOfRange hlt hrange)⟩
    · exact Or.inr ⟨_, .value hsuffix (.notASize (Nat.not_lt.1 hlt))⟩

theorem symbol_of_allowed (hp : d.Proper) (h : d.Allowed settings) :
    ∃ x, d.symbol settings = .ok x ∧ x.id = d.key ∧ ∀ scope, x.storedIn scope = d.entry scope := by
  unfold symbol
  cases hsuffix : d.suffix with
  | none => exact ⟨_, rfl, rfl, fun scope => by rw [entry, hsuffix]; rfl⟩
  | some suffix =>
    simp only [readSize_of_le (hp suffix hsuffix) (h suffix hsuffix)]
    exact ⟨_, rfl, rfl, fun scope => by rw [entry, hsuffix]; rfl⟩

theorem normalize_key (d : Declaration) : Symbol.normalize d.key = d.key :=
  Text.lower_lower d.name

section Table

variable {t : SymbolTable} {s : Nat}

/-- **A declaration that can be made** is stored at the end of its scope. -/
theorem declare_of_allowed (ht : t.Sound) (hs : t.hasScope s = true) (hp : d.Proper)
    (hallowed : d.Allowed settings) (hnew : ¬ t.Visible s d.key) :
    declare settings s t d =
      .ok (t.extend (t.effectiveScope s) [d.entry (t.effectiveScope s)]) := by
  obtain ⟨x, hsymbol, hid, hstored⟩ := symbol_of_allowed hp hallowed
  have hnormal : Symbol.normalize x.id = x.id := by rw [hid, normalize_key]
  unfold declare
  rw [hsymbol]
  simp only [ht.add_of_not_visible hs hnormal (hid ▸ hnew), hstored]

/-- **A declaration that fails**, and how. -/
theorem declare_of_fails (hp : d.Proper) {f : DeclarationFault}
    (hf : Fails settings (t.Visible s) d f) : declare settings s t d = .error f := by
  unfold declare
  cases hf with
  | @value suffix f hsuffix hf =>
    have hsymbol : d.symbol settings = .error f := by
      unfold symbol
      rw [hsuffix]
      simp only [readSize_of_sizeFault (hp suffix hsuffix) hf]
    rw [hsymbol]
  | duplicate hallowed hknown =>
    obtain ⟨x, hsymbol, hid, -⟩ := symbol_of_allowed hp hallowed
    rw [hsymbol]
    have hvisible : t.Visible s (Symbol.normalize x.id) := by rwa [hid, normalize_key]
    simp only [SymbolTable.add_of_visible hvisible, hid]

end Table

/-! ## Rows of declarations -/

/-- **Declarations that can all be made** where some names are known. -/
structure Declarable (settings : Settings) (known : Text → Prop) (ds : List Declaration) :
    Prop where
  /-- All sizes are within the settings. -/
  sizes : ∀ d ∈ ds, d.Allowed settings
  /-- No name is known. -/
  fresh : ∀ d ∈ ds, ¬ known d.key
  /-- No name occurs twice. -/
  distinct : (ds.map key).Nodup

theorem declarable_nil : Declarable settings known [] :=
  ⟨List.forall_mem_nil _, List.forall_mem_nil _, List.nodup_nil⟩

theorem declarable_singleton (hallowed : d.Allowed settings) (hnew : ¬ known d.key) :
    Declarable settings known [d] :=
  ⟨List.forall_mem_singleton.2 hallowed, List.forall_mem_singleton.2 hnew, List.nodup_singleton _⟩

/-- Declarations are made one after another: what was declared first is known afterwards. -/
theorem declarable_append {es : List Declaration} :
    Declarable settings known (ds ++ es) ↔
      Declarable settings known ds ∧
        Declarable settings (fun k => known k ∨ k ∈ ds.map key) es := by
  constructor
  · rintro ⟨hsizes, hfresh, hdistinct⟩
    rw [List.map_append, List.nodup_append] at hdistinct
    obtain ⟨hds, hes, hapart⟩ := hdistinct
    refine ⟨⟨fun d hd => hsizes d (List.mem_append_left _ hd),
      fun d hd => hfresh d (List.mem_append_left _ hd), hds⟩,
      fun e he => hsizes e (List.mem_append_right _ he), fun e he => ?_, hes⟩
    rintro (hknown | hmem)
    · exact hfresh e (List.mem_append_right _ he) hknown
    · exact hapart _ hmem _ (List.mem_map_of_mem he) rfl
  · rintro ⟨⟨hsizes, hfresh, hds⟩, hsizes', hfresh', hes⟩
    refine ⟨fun d hd => (List.mem_append.1 hd).elim (hsizes d) (hsizes' d), fun d hd => ?_, ?_⟩
    · rcases List.mem_append.1 hd with hd | hd
      · exact hfresh d hd
      · exact fun hknown => hfresh' d hd (Or.inl hknown)
    · rw [List.map_append]
      refine List.nodup_append.2 ⟨hds, hes, ?_⟩
      rintro k hk _ hk' rfl
      obtain ⟨e, he, rfl⟩ := List.mem_map.1 hk'
      exact hfresh' e he (Or.inr hk)

/-- **A row of declarations can be made, or has a first one that fails.** -/
theorem declarable_or_fails (settings : Settings) (known : Text → Prop) (ds : List Declaration) :
    Declarable settings known ds ∨
      ∃ before d after f, ds = before ++ d :: after ∧ Declarable settings known before ∧
        Fails settings (fun k => known k ∨ k ∈ before.map key) d f := by
  refine holds_or_first_failure declarable_nil (fun ds d hds => ?_) ds
  rcases allowed_or_fails settings (fun k => known k ∨ k ∈ ds.map key) d with ⟨ha, hn⟩ | hf
  · exact Or.inl (declarable_append.2 ⟨hds, declarable_singleton ha hn⟩)
  · exact Or.inr hf

section Table

variable {t : SymbolTable} {s : Nat}

theorem map_id_entry (scope : Nat) (ds : List Declaration) :
    (ds.map (entry scope)).map Symbol.id = ds.map key := by
  rw [List.map_map]
  rfl

/-- What is visible after some declarations. -/
theorem visible_declared (ht : t.Sound) (hs : t.hasScope s = true) (ds : List Declaration) :
    (t.extend (t.effectiveScope s) (ds.map (entry (t.effectiveScope s)))).Visible s =
      fun k => t.Visible s k ∨ k ∈ ds.map key := by
  funext k
  rw [SymbolTable.visible_extend (ht.hasScope_effectiveScope hs) (ht.effectiveScope_mem_chain hs),
    map_id_entry]

/-- Declarations that can all be made leave fresh symbols. -/
theorem fresh_declared (h : Declarable settings (t.Visible s) ds) :
    t.Fresh s (ds.map (entry (t.effectiveScope s))) := by
  constructor
  · intro x hx
    obtain ⟨d, hd, rfl⟩ := List.mem_map.1 hx
    exact ⟨normalize_key d, rfl, h.fresh d hd⟩
  · rw [map_id_entry]
    exact h.distinct

/-- **Tables stay sound** as declarations are made. -/
theorem sound_declared (ht : t.Sound) (hs : t.hasScope s = true)
    (h : Declarable settings (t.Visible s) ds) :
    (t.extend (t.effectiveScope s) (ds.map (entry (t.effectiveScope s)))).Sound :=
  ht.extend hs (fresh_declared h)

theorem declareAll_append {u : SymbolTable} {ds es : List Declaration}
    (h : declareAll settings s t ds = (u, none)) :
    declareAll settings s t (ds ++ es) = declareAll settings s u es := by
  induction ds generalizing t with
  | nil =>
    obtain ⟨rfl, -⟩ := Prod.mk.inj h
    rfl
  | cons d ds ih =>
    rw [declareAll] at h
    rw [List.cons_append, declareAll]
    split at h
    · exact ih h
    · cases h

/-- **Declarations that can all be made** are stored in order at the end of their scope. -/
theorem declareAll_of_declarable (ht : t.Sound) (hs : t.hasScope s = true)
    (hp : ∀ d ∈ ds, d.Proper) (h : Declarable settings (t.Visible s) ds) :
    declareAll settings s t ds =
      (t.extend (t.effectiveScope s) (ds.map (entry (t.effectiveScope s))), none) := by
  induction ds using List.reverseRecOn with
  | nil => rw [declareAll, List.map_nil, SymbolTable.extend_nil]
  | append_singleton ds d ih =>
    obtain ⟨hds, hd⟩ := declarable_append.1 h
    rw [List.forall_mem_append, List.forall_mem_singleton] at hp
    have hsound := sound_declared ht hs hds
    rw [← visible_declared ht hs ds] at hd
    have hnew := hd.fresh d List.mem_cons_self
    rw [declareAll_append (ih hp.1 hds), declareAll,
      declare_of_allowed hsound (by simpa using hs) hp.2 (hd.sizes d List.mem_cons_self) hnew]
    simp [declareAll]

/-- **The first declaration that fails** ends a row; those before it stay. -/
theorem declareAll_of_fails (ht : t.Sound) (hs : t.hasScope s = true) {after : List Declaration}
    (hp : ∀ e ∈ ds ++ d :: after, e.Proper) (h : Declarable settings (t.Visible s) ds)
    {f : DeclarationFault} (hf : Fails settings (fun k => t.Visible s k ∨ k ∈ ds.map key) d f) :
    declareAll settings s t (ds ++ d :: after) =
      (t.extend (t.effectiveScope s) (ds.map (entry (t.effectiveScope s))), some f) := by
  rw [List.forall_mem_append, List.forall_mem_cons] at hp
  rw [← visible_declared ht hs ds] at hf
  rw [declareAll_append (declareAll_of_declarable ht hs hp.1 h), declareAll,
    declare_of_fails hp.2.1 hf]

end Table

/-! ## Declarations of a row of tokens -/

/-- Only size suffixes are taken for one. -/
theorem proper_of_mem_ofTokens {ts : List Token} (h : d ∈ ofTokens ts) : d.Proper := by
  induction ts with
  | nil => exact absurd h List.not_mem_nil
  | cons k ts ih =>
    rw [ofTokens] at h
    split at h
    · rcases List.mem_cons.1 h with rfl | h
      · intro suffix hsuffix
        cases ts with
        | nil => cases hsuffix
        | cons l ts =>
          simp only [leadingSuffix?, Option.mem_def] at hsuffix
          split at hsuffix
          · rename_i hl
            obtain rfl := Option.some.inj hsuffix
            exact Category.accepts_iff.1 hl
          · cases hsuffix
      · exact ih h
    · exact ih h

end Declaration

/-! ## Instructions -/

namespace Instruction

open Declaration

variable {settings : Settings} {t : SymbolTable} {s : Nat} {ps : List Token} {d : Declaration}
  {before after : List Declaration} {f : DeclarationFault}

/-- The declarations that an instruction makes of its parameters. -/
def declarations : Instruction → List Token → List Declaration
  | var, ps => ofTokens ps
  | set, _ => []
  | inc, _ => []

theorem proper_of_mem_declarations {i : Instruction} (h : d ∈ i.declarations ps) : d.Proper := by
  cases i with
  | var => exact proper_of_mem_ofTokens h
  | set => exact absurd h List.not_mem_nil
  | inc => exact absurd h List.not_mem_nil

/-- To apply an instruction is to make its declarations. -/
theorem apply_eq (i : Instruction) (settings : Settings) (ps : List Token) (s : Nat)
    (t : SymbolTable) :
    i.apply settings ps s t =
      match declareAll settings s t (i.declarations ps) with
      | (u, none) => (u, .ok s)
      | (u, some f) => (u, .error f) := by
  cases i <;> rfl

/-- **An instruction whose declarations can all be made** makes them and keeps the scope. -/
theorem apply_of_declarable (ht : t.Sound) (hs : t.hasScope s = true) {i : Instruction}
    (h : Declarable settings (t.Visible s) (i.declarations ps)) :
    i.apply settings ps s t =
      (t.extend (t.effectiveScope s) ((i.declarations ps).map (entry (t.effectiveScope s))),
        .ok s) := by
  rw [apply_eq, declareAll_of_declarable ht hs (fun d hd => proper_of_mem_declarations hd) h]

/-- **An instruction with a declaration that fails** makes those before the first such one. -/
theorem apply_of_fails (ht : t.Sound) (hs : t.hasScope s = true) {i : Instruction}
    (hds : i.declarations ps = before ++ d :: after)
    (h : Declarable settings (t.Visible s) before)
    (hf : Fails settings (fun k => t.Visible s k ∨ k ∈ before.map key) d f) :
    i.apply settings ps s t =
      (t.extend (t.effectiveScope s) (before.map (entry (t.effectiveScope s))), .error f) := by
  have hp : ∀ e ∈ before ++ d :: after, e.Proper := fun e he =>
    proper_of_mem_declarations (hds ▸ he)
  rw [apply_eq, hds, declareAll_of_fails ht hs hp h hf]

/-- **An instruction makes a first part of its declarations**, whatever becomes of the others. -/
theorem exists_apply_eq_extend (ht : t.Sound) (hs : t.hasScope s = true) (i : Instruction)
    (settings : Settings) (ps : List Token) :
    ∃ ds, ds <+: i.declarations ps ∧ Declarable settings (t.Visible s) ds ∧
      (i.apply settings ps s t).1 =
        t.extend (t.effectiveScope s) (ds.map (entry (t.effectiveScope s))) := by
  rcases declarable_or_fails settings (t.Visible s) (i.declarations ps) with
    h | ⟨before, d, after, f, hds, h, hf⟩
  · exact ⟨_, List.prefix_rfl, h, by rw [apply_of_declarable ht hs h]⟩
  · exact ⟨before, hds ▸ List.prefix_append _ _, h, by rw [apply_of_fails ht hs hds h hf]⟩

end Instruction

end LineLang
