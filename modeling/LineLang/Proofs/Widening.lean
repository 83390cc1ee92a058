import LineLang.Proofs.Program

/-!
# Wider ranges of sizes

A range of sizes may be widened at both ends. Arrays that were allowed stay so, and whatever else
can be wrong with a declaration does not depend on the range. So a wider range takes away errors
about sizes out of range, and changes nothing else.

About `array_sizes` of a `ParserConfig`, and `Parser.parse`.

* `Settings.Widens`: settings with a wider range, and otherwise the same.
* `ProgramFault.isOutOfRange`: the only faults that depend on the range.

Results:
* `Declarable.widen`, `Fails.widen`: rows of declarations, and one that fails.
* `Acceptable.widen`, `Faulty.widen`: rows of lines, and one with a fault.
* `parse_eq_or_outOfRange`: a source is parsed alike, or has an error about a size out of range.
* `parse_of_wider_range`: parsing with both ranges.
-/

namespace LineLang

/-! ## Settings -/

/-- Settings with a wider range of sizes than others, and otherwise the same. -/
structure Settings.Widens (wide narrow : Settings) : Prop where
  collapses : wide.collapses = narrow.collapses
  least : wide.least ≤ narrow.least
  most : narrow.most ≤ wide.most

/-- Settings that are built have the choices that they are built with. -/
theorem Settings.eq_of_build {c : Bool} {least most : UInt64} {settings : Settings}
    (h : build c least most = .ok settings) :
    settings.collapses = c ∧ settings.least = least ∧ settings.most = most := by
  unfold build at h
  split at h
  · split at h
    · obtain rfl := Except.ok.inj h
      exact ⟨rfl, rfl, rfl⟩
    · cases h
  · cases h

variable {narrow wide : Settings}

theorem Settings.widens_of_build {c : Bool} {least most least' most' : UInt64}
    (hnarrow : build c least most = .ok narrow) (hwide : build c least' most' = .ok wide)
    (hleast : least' ≤ least) (hmost : most ≤ most') : wide.Widens narrow := by
  obtain ⟨hc, rfl, rfl⟩ := eq_of_build hnarrow
  obtain ⟨hc', rfl, rfl⟩ := eq_of_build hwide
  exact ⟨hc'.trans hc.symm, hleast, hmost⟩

/-- A fault is that an array would have more or fewer cells than allowed. -/
def ProgramFault.isOutOfRange : ProgramFault → Bool
  | .declaration (.value (.sizeOutOfRange _ _ _)) => true
  | _ => false

/-! ## Declarations -/

namespace Declaration

variable {known : Text → Prop} {d : Declaration} {ds : List Declaration} {f : DeclarationFault}

/-- Sizes that were allowed stay so. -/
theorem Allowed.widen (h : wide.Widens narrow) (hd : d.Allowed narrow) : d.Allowed wide := by
  intro suffix hsuffix
  have hleast := UInt64.le_iff_toNat_le.1 h.least
  have hmost := UInt64.le_iff_toNat_le.1 h.most
  obtain ⟨hlow, hhigh⟩ := hd suffix hsuffix
  exact ⟨Nat.le_trans hleast hlow, Nat.le_trans hhigh hmost⟩

theorem Declarable.widen (h : wide.Widens narrow) (hds : Declarable narrow known ds) :
    Declarable wide known ds :=
  ⟨fun d hd => (hds.sizes d hd).widen h, hds.fresh, hds.distinct⟩

/-- **A declaration that fails in another way fails in the same way.** A number that 64 bits cannot
hold is no size with any range, and a name is looked at only where the size is allowed. -/
theorem Fails.widen (h : wide.Widens narrow) (hf : Fails narrow known d f)
    (hrange : (ProgramFault.declaration f).isOutOfRange = false) : Fails wide known d f := by
  cases hf with
  | value hsuffix hvalue =>
    cases hvalue with
    | notASize hbig => exact .value hsuffix (.notASize hbig)
    | outOfRange => cases hrange
  | duplicate hallowed hknown => exact .duplicate (hallowed.widen h) hknown

end Declaration

namespace Program

variable {known : Text → Prop} {lines : List (List Text)} {l : List Text} {f : ProgramFault}

/-! ## Lines -/

/-- Lines that make up a program still do. -/
theorem Acceptable.widen (h : wide.Widens narrow) (hlines : Acceptable narrow lines) :
    Acceptable wide lines :=
  ⟨hlines.wellFormed, fun d hd => (hlines.sizes d hd).widen h, hlines.distinct⟩

/-- A line with another fault has the same fault: the declarations before the one that fails can be
made as before. -/
theorem Faulty.widen (h : wide.Widens narrow) (hf : Faulty narrow known l f)
    (hrange : f.isOutOfRange = false) : Faulty wide known l f := by
  cases hf with
  | malformed hl => exact .malformed hl
  | declaration hl hds hbefore hf =>
    exact .declaration hl hds (hbefore.widen h) (hf.widen h hrange)

/-! ## Sources -/

/-- **A source is parsed alike with the wider range**, unless it has an error about a size out of
the narrower one. -/
theorem parse_eq_or_outOfRange (h : wide.Widens narrow) (source : Text) :
    parse wide source = parse narrow source ∨
      ∃ e, parse narrow source = .error e ∧ e.fault.isOutOfRange = true := by
  cases hparse : parse narrow source with
  | ok t =>
    obtain ⟨hlines, rfl⟩ := acceptable_of_parse hparse
    left
    rw [parse_of_acceptable (hlines.widen h), h.collapses]
  | error e =>
    obtain ⟨before, l, after, hsource, hbefore, hf, hstart, hoffset⟩ := faulty_of_parse hparse
    cases hrange : e.fault.isOutOfRange with
    | true => exact Or.inr ⟨e, rfl, hrange⟩
    | false =>
      left
      rw [parse_of_faulty hsource (hbefore.widen h) (hf.widen h hrange), ← hstart, ← hoffset]

/-- **Widening the range of sizes only removes errors about sizes out of range.** With the wider
range an accepted source has the same table, and a source that is refused for any other reason is
refused with the same error. -/
theorem parse_of_wider_range {c : Bool} {least most least' most' : UInt64}
    (hnarrow : Settings.build c least most = .ok narrow)
    (hwide : Settings.build c least' most' = .ok wide) (hleast : least' ≤ least)
    (hmost : most ≤ most') (source : Text) :
    (∀ t, parse narrow source = .ok t → parse wide source = .ok t) ∧
      ∀ e, parse narrow source = .error e → e.fault.isOutOfRange = false →
        parse wide source = .error e := by
  have hwidens := Settings.widens_of_build hnarrow hwide hleast hmost
  rcases parse_eq_or_outOfRange hwidens source with heq | ⟨e, he, hrange⟩
  · rw [heq]
    exact ⟨fun t ht => ht, fun e he _ => he⟩
  · constructor
    · intro t ht
      rw [he] at ht
      cases ht
    · intro e' he' hother
      obtain rfl := Except.error.inj (he.symm.trans he')
      rw [hrange] at hother
      cases hother

/-- The second line asks for more cells than 64 bits can count. With both ranges this is the error;
the third line, with a size that only the wider range has, does not come into it. -/
theorem parse_of_wider_range_huge :
    let source := "var x[3]\n  var y[4], z[18446744073709551616]\nvar z[300]".toList
    let e : ProgramError :=
      ⟨.declaration (.value (.notASize "[18446744073709551616]".toList)), 4, 11⟩
    parse ⟨false, 2, 4, by decide, by decide⟩ source = .error e ∧
      parse ⟨false, 1, 300, by decide, by decide⟩ source = .error e := by
  intro source e
  have hnarrow : Settings.build false 2 4 = .ok ⟨false, 2, 4, by decide, by decide⟩ := rfl
  have hwide : Settings.build false 1 300 = .ok ⟨false, 1, 300, by decide, by decide⟩ := rfl
  have herror : parse ⟨false, 2, 4, by decide, by decide⟩ source = .error e := by decide +kernel
  obtain ⟨-, hother⟩ := parse_of_wider_range hnarrow hwide (by decide) (by decide) source
  exact ⟨herror, hother e herror rfl⟩

end Program

end LineLang
