import LineLang.Proofs.Resolution

/-!
# Names that differ by case alone

Two names whose characters are the same one by one, each lower-cased on its own, need not be the
same in lower case, since the small form of a capital sigma depends on its neighbours: at the end of
a word it is the final small sigma, while a small sigma stays as it is. Where words end is the same
in both names, because letters that share a small letter are all cased and none of them is passed
over. So the names agree exactly if no word ends in a capital sigma in one of them and in a small
one in the other.

About `normalize`, `add_symbol` and `find`.

* `CodeRange.allBits`: the code points of some ranges, as the bits of a number.
* `lowerEach`: the characters of a text, each lower-cased on its own.
* `EndsWord`: a word ends at a place of a text.

Results:
* `isCased_congr`: characters that differ by case alone look the same to a sigma near them.
* `endsWord_congr`: words end at the same places in texts that differ by case alone.
* `lower_eq_iff`: when two texts that differ by case alone are the same in lower case.
* `performAll_spelling`: when two names that differ by case alone name one symbol.
-/

namespace LineLang.Text

/-! ## Ranges as numbers -/

namespace CodeRange

/-- The code points of a range, as the bits of a number. -/
def bits (r : CodeRange) : Nat := (1 <<< (r.last + 1 - r.first) - 1) <<< r.first

/-- The code points of some ranges, as the bits of a number. -/
def allBits (rs : List CodeRange) : Nat := rs.foldr (fun r n => r.bits ||| n) 0

variable {rs ss : List CodeRange} {c : Char}

theorem testBit_bits (r : CodeRange) (c : Char) : r.bits.testBit c.toNat = r.contains c := by
  rw [bits, Nat.one_shiftLeft, Nat.testBit_shiftLeft, Nat.testBit_two_pow_sub_one, contains]
  by_cases h : r.first ≤ c.toNat
  · rw [decide_eq_true h, Bool.true_and, Bool.true_and]
    exact decide_eq_decide.2 (by omega)
  · rw [decide_eq_false h, Bool.false_and, Bool.false_and]

theorem testBit_allBits (rs : List CodeRange) (c : Char) :
    (allBits rs).testBit c.toNat = anyContains rs c := by
  induction rs with
  | nil => exact Nat.zero_testBit _
  | cons r rs ih =>
    rw [allBits, List.foldr_cons, ← allBits, Nat.testBit_or, testBit_bits, ih]
    rfl

theorem anyContains_of_subset (h : allBits rs &&& allBits ss = allBits rs)
    (hc : anyContains rs c = true) : anyContains ss c = true := by
  have hbit := congrArg (Nat.testBit · c.toNat) h
  simp only [Nat.testBit_and, testBit_allBits, hc, Bool.true_and] at hbit
  exact hbit

theorem anyContains_of_disjoint (h : allBits rs &&& allBits ss = 0)
    (hc : anyContains rs c = true) : anyContains ss c = false := by
  have hbit := congrArg (Nat.testBit · c.toNat) h
  simp only [Nat.testBit_and, testBit_allBits, hc, Bool.true_and, Nat.zero_testBit] at hbit
  exact hbit

end CodeRange

/-! ## Letters of the table -/

namespace CaseRun

variable {r : CaseRun} {start : Nat} {c d : Char}

/-- The numbers that stand to `start` as the capitals of a run to their first. -/
def places (r : CaseRun) (start : Nat) : List CodeRange :=
  (List.range ((r.last - r.first) / r.step + 1)).map fun i =>
    ⟨start + i * r.step, start + i * r.step⟩

theorem exists_mem_places (hc : r.contains c = true)
    (hd : d.toNat = start + (c.toNat - r.first)) :
    ∃ q ∈ r.places start, q.contains d = true := by
  obtain ⟨-, hlast, hstep⟩ := contains_iff.1 hc
  have hmul := Nat.div_mul_cancel (Nat.dvd_of_mod_eq_zero hstep)
  have hle := Nat.div_le_div_right (c := r.step) (Nat.sub_le_sub_right hlast r.first)
  refine ⟨⟨d.toNat, d.toNat⟩, List.mem_map.2 ⟨(c.toNat - r.first) / r.step, ?_, ?_⟩, ?_⟩
  · exact List.mem_range.2 (Nat.lt_succ_of_le hle)
  · rw [hmul, ← hd]
  · rw [CodeRange.contains, decide_eq_true (Nat.le_refl _), Bool.and_self]

/-- Whether the small letters of a run are characters. -/
def imagesAreChars (r : CaseRun) : Bool :=
  Nat.blt (r.target + (r.last - r.first)) 0xd800 ||
    (Nat.blt 0xdfff r.target && Nat.blt (r.target + (r.last - r.first)) 0x110000)

theorem toNat_image (hc : r.contains c = true) (h : r.imagesAreChars = true) :
    (r.image c).toNat = r.target + (c.toNat - r.first) := by
  obtain ⟨hfirst, hlast, -⟩ := contains_iff.1 hc
  simp only [imagesAreChars, Bool.or_eq_true, Bool.and_eq_true, Nat.blt_eq] at h
  have hvalid : (r.target + (c.toNat - r.first)).isValidChar :=
    h.imp (fun h => by omega) fun h => by omega
  rw [image, Char.ofNat, dif_pos hvalid]
  rfl

end CaseRun

theorem capitals_imagesAreChars : (capitals.all (·.imagesAreChars)) = true := by decide +kernel

/-- The capitals of the table and their small letters. -/
def letterRanges : List CodeRange :=
  capitals.flatMap fun r => r.places r.first ++ r.places r.target

theorem letterRanges_cased :
    CodeRange.allBits letterRanges &&& CodeRange.allBits casedRanges =
      CodeRange.allBits letterRanges := by
  decide +kernel

theorem letterRanges_not_ignorable :
    CodeRange.allBits letterRanges &&& CodeRange.allBits caseIgnorableRanges = 0 := by
  decide +kernel

/-- A character at which the search for the end of a word stops, inside of the word: it is cased and
not passed over. -/
def IsLetter (c : Char) : Prop := isCased c = true ∧ isCaseIgnorable c = false

theorem isLetter_of_mem {q : CodeRange} {c : Char} (hq : q ∈ letterRanges)
    (hc : q.contains c = true) : IsLetter c :=
  have hany := List.any_eq_true.2 ⟨q, hq, hc⟩
  ⟨CodeRange.anyContains_of_subset letterRanges_cased hany,
    CodeRange.anyContains_of_disjoint letterRanges_not_ignorable hany⟩

/-- A capital of the table and its small letter are letters. -/
theorem isLetter_of_contains {r : CaseRun} {c : Char} (hr : r ∈ capitals)
    (hc : r.contains c = true) : IsLetter c ∧ IsLetter (r.image c) := by
  have himage := CaseRun.toNat_image hc (List.all_eq_true.1 capitals_imagesAreChars r hr)
  have hself : c.toNat = r.first + (c.toNat - r.first) :=
    (Nat.add_sub_of_le (CaseRun.contains_iff.1 hc).1).symm
  obtain ⟨p, hp, hcapital⟩ := CaseRun.exists_mem_places hc hself
  obtain ⟨q, hq, hsmall⟩ := CaseRun.exists_mem_places hc himage
  exact ⟨isLetter_of_mem (List.mem_flatMap.2 ⟨r, hr, List.mem_append_left _ hp⟩) hcapital,
    isLetter_of_mem (List.mem_flatMap.2 ⟨r, hr, List.mem_append_right _ hq⟩) hsmall⟩

/-! ## Characters that differ by case alone -/

theorem lowerChar_sigma : lowerChar 'Σ' = ['σ'] := by decide +kernel

/-- A character on its own is lower-cased by the table, a capital sigma too. -/
theorem lower_singleton (c : Char) : lower [c] = lowerChar c := by
  rw [lower, lowerAfter, lowerAfter, List.append_nil, lowerBetween]
  split
  · next h =>
    rw [h, lowerChar_sigma]
    rfl
  · rfl

/-- A character other than the dotted I has one small form: itself, unless both are letters. -/
theorem lower_singleton_cases (c : Char) :
    c = '\u0130' ∨ ∃ d, lower [c] = [d] ∧ (d = c ∨ IsLetter c ∧ IsLetter d) := by
  rw [lower_singleton, lowerChar]
  by_cases hdotted : c = '\u0130'
  · exact Or.inl hdotted
  · rw [if_neg hdotted]
    refine Or.inr ?_
    cases hfind : capitals.find? (·.contains c) with
    | none => exact ⟨c, rfl, Or.inl rfl⟩
    | some r =>
      have hc : r.contains c = true := by simpa using List.find?_some hfind
      exact ⟨r.image c, rfl, Or.inr (isLetter_of_contains (List.mem_of_find?_eq_some hfind) hc)⟩

/-- The dotted I is the only character whose small form has two characters. -/
theorem lower_dotted_ne (d : Char) : lower ['\u0130'] ≠ [d] := by
  intro h
  have hlength : (lower ['\u0130']).length = 2 := by
    rw [lower_singleton]
    rfl
  rw [h] at hlength
  cases hlength

/-- Two characters that differ by case alone are the same, or both are letters. -/
theorem eq_or_isLetter {c d : Char} (h : lower [c] = lower [d]) :
    c = d ∨ IsLetter c ∧ IsLetter d := by
  rcases lower_singleton_cases c with rfl | ⟨e, hc, hce⟩
  · rcases lower_singleton_cases d with rfl | ⟨e, hd, -⟩
    · exact Or.inl rfl
    · exact absurd (h.trans hd) (lower_dotted_ne e)
  · rcases lower_singleton_cases d with rfl | ⟨e', hd, hde⟩
    · exact absurd (h.symm.trans hc) (lower_dotted_ne e)
    · -- two capitals of one small letter, a capital and its small letter, or the same character
      obtain rfl := List.singleton_inj.1 (hc.symm.trans (h.trans hd))
      rcases hce with rfl | hce
      · exact hde.imp id And.symm
      · rcases hde with rfl | hde
        · exact Or.inr hce
        · exact Or.inr ⟨hce.1, hde.1⟩

/-- **Characters that differ by case alone look the same** to a sigma near them. -/
theorem isCased_congr {c d : Char} (h : lower [c] = lower [d]) :
    isCased c = isCased d ∧ isCaseIgnorable c = isCaseIgnorable d := by
  rcases eq_or_isLetter h with rfl | ⟨hc, hd⟩
  · exact ⟨rfl, rfl⟩
  · exact ⟨hc.1.trans hd.1.symm, hc.2.trans hd.2.symm⟩

/-! ## Where words end -/

/-- The characters of a text, each lower-cased on its own. -/
def lowerEach (t : Text) : List Text := t.map fun c => lower [c]

/-- A word ends between two texts; the first is read backwards. -/
def EndsBetween (before after : Text) : Prop :=
  startsCased before = true ∧ startsCased after = false

/-- **A word ends at a place of a text**: what stands before the place belongs to it, and what
stands after does not. `before` is the text in front of all, read backwards. -/
def EndsWord (before t : Text) (i : Nat) : Prop :=
  EndsBetween ((t.take i).reverse ++ before) (t.drop (i + 1))

variable {x y before before' : Text} {c d : Char}

theorem startsCased_cons (c : Char) (t : Text) :
    startsCased (c :: t) = if isCaseIgnorable c then startsCased t else isCased c := by
  unfold startsCased
  rw [List.dropWhile_cons]
  by_cases h : isCaseIgnorable c = true
  · rw [if_pos h, if_pos h]
  · rw [if_neg h, if_neg h]

/-- Texts that differ by case alone look the same to a sigma beside them. -/
theorem startsCased_congr (h : lowerEach x = lowerEach y) : startsCased x = startsCased y := by
  induction x generalizing y with
  | nil => rw [List.map_eq_nil_iff.1 h.symm]
  | cons c x ih =>
    obtain ⟨d, y, rfl, hd, hy⟩ := List.map_eq_cons_iff.1 h.symm
    obtain ⟨hcased, hignorable⟩ := isCased_congr hd
    rw [startsCased_cons, startsCased_cons, ih hy.symm, hcased, hignorable]

theorem endsBetween_congr (hbefore : lowerEach before = lowerEach before')
    (hafter : lowerEach x = lowerEach y) : EndsBetween before x ↔ EndsBetween before' y := by
  rw [EndsBetween, EndsBetween, startsCased_congr hbefore, startsCased_congr hafter]

/-- **Words end at the same places** in texts that differ by case alone. -/
theorem endsWord_congr (h : lowerEach x = lowerEach y) (i : Nat) :
    EndsWord [] x i ↔ EndsWord [] y i := by
  apply endsBetween_congr
  · simp only [lowerEach, List.append_nil, List.map_reverse, List.map_take] at h ⊢
    rw [h]
  · simp only [lowerEach, List.map_drop] at h ⊢
    rw [h]

theorem endsWord_succ (before : Text) (c : Char) (t : Text) (i : Nat) :
    EndsWord before (c :: t) (i + 1) ↔ EndsWord (c :: before) t i := by
  simp [EndsWord]

/-! ## Texts in lower case -/

/-- A capital sigma that ends a word becomes the final small sigma. -/
theorem lowerBetween_of_ends (hc : c = 'Σ') (h : EndsBetween before x) :
    lowerBetween before c x = ['ς'] := by
  rw [lowerBetween, if_pos hc, h.1, h.2]
  rfl

/-- Any other character has the small form that it has on its own. -/
theorem lowerBetween_of_not_ends (h : c = 'Σ' → ¬ EndsBetween before x) :
    lowerBetween before c x = lower [c] := by
  rw [lower_singleton, lowerBetween]
  split
  · next hc =>
    rw [hc, lowerChar_sigma, if_neg]
    intro hends
    rw [Bool.and_eq_true, Bool.not_eq_true'] at hends
    exact h hc hends
  · rfl

theorem length_lowerBetween (before : Text) (c : Char) (after : Text) :
    (lowerBetween before c after).length = (lower [c]).length := by
  by_cases h : c = 'Σ' ∧ EndsBetween before after
  · rw [lowerBetween_of_ends h.1 h.2, h.1, lower_singleton, lowerChar_sigma]
    rfl
  · rw [lowerBetween_of_not_ends (not_and.1 h)]

/-- The final small sigma is not what a capital sigma becomes on its own. -/
theorem lower_sigma_ne : lower ['Σ'] ≠ ['ς'] := by
  rw [lower_singleton, lowerChar_sigma]
  decide

/-- Two characters that differ by case alone, between neighbours that do: their small forms differ
exactly if a word ends there and only one of them is a capital sigma. -/
theorem lowerBetween_eq_iff (h : lower [c] = lower [d])
    (hbefore : lowerEach before = lowerEach before') (hafter : lowerEach x = lowerEach y) :
    lowerBetween before c x = lowerBetween before' d y ↔
      (EndsBetween before x → (c = 'Σ' ↔ d = 'Σ')) := by
  have hcongr := endsBetween_congr hbefore hafter
  by_cases hends : EndsBetween before x
  · have hends' := hcongr.1 hends
    rw [imp_iff_right hends]
    by_cases hc : c = 'Σ'
    · rw [lowerBetween_of_ends hc hends]
      by_cases hd : d = 'Σ'
      · rw [lowerBetween_of_ends hd hends']
        exact iff_of_true rfl (iff_of_true hc hd)
      · rw [lowerBetween_of_not_ends fun h => absurd h hd, ← h, hc]
        exact iff_of_false lower_sigma_ne.symm fun hiff => hd (hiff.1 rfl)
    · rw [lowerBetween_of_not_ends fun h => absurd h hc]
      by_cases hd : d = 'Σ'
      · rw [lowerBetween_of_ends hd hends', h, hd]
        exact iff_of_false lower_sigma_ne fun hiff => hc (hiff.2 rfl)
      · rw [lowerBetween_of_not_ends fun h => absurd h hd]
        exact iff_of_true h (iff_of_false hc hd)
  · rw [lowerBetween_of_not_ends fun _ => hends,
      lowerBetween_of_not_ends fun _ => hends ∘ hcongr.2]
    exact iff_of_true h fun h => absurd h hends

/-- By induction on the texts, whatever stands in front of them. -/
theorem lowerAfter_eq_iff (hbefore : lowerEach before = lowerEach before')
    (h : lowerEach x = lowerEach y) :
    lowerAfter before x = lowerAfter before' y ↔
      ∀ i, EndsWord before x i → (x[i]? = some 'Σ' ↔ y[i]? = some 'Σ') := by
  induction x generalizing before before' y with
  | nil =>
    rw [List.map_eq_nil_iff.1 h.symm]
    exact iff_of_true rfl fun _ _ => Iff.rfl
  | cons c x ih =>
    obtain ⟨d, y, rfl, hd, hy⟩ := List.map_eq_cons_iff.1 h.symm
    have hrest : lowerAfter (c :: before) x = lowerAfter (d :: before') y ↔ _ :=
      ih (congrArg₂ List.cons hd.symm hbefore) hy.symm
    have hfirst := lowerBetween_eq_iff hd.symm hbefore hy.symm
    rw [lowerAfter, lowerAfter, ← Nat.and_forall_add_one]
    simp only [endsWord_succ, List.getElem?_cons_succ, List.getElem?_cons_zero, Option.some_inj]
    rw [← hrest]
    refine Iff.trans ⟨fun heq => ?_, ?_⟩ (and_congr_left' hfirst)
    · exact List.append_inj heq (by rw [length_lowerBetween, length_lowerBetween, hd])
    · rintro ⟨hsame, hsames⟩
      rw [hsame, hsames]

/-- **When two texts that differ by case alone are the same in lower case**: no word ends in a
capital sigma in one of them only. -/
theorem lower_eq_iff (h : lowerEach x = lowerEach y) :
    lower x = lower y ↔ ∀ i, EndsWord [] x i → (x[i]? = some 'Σ' ↔ y[i]? = some 'Σ') :=
  lowerAfter_eq_iff rfl h

end LineLang.Text

namespace LineLang.SymbolTable

open LineLang.Text (lowerEach EndsWord)

/-- A symbol is refused if a name of it stands for something. -/
theorem add_of_find? {t : SymbolTable} {s : Nat} {x z : Symbol} {name : Text}
    (hid : x.id = Symbol.normalize name) (hfind : t.find? s name = some z) :
    t.add s x = .error ⟨x.id⟩ := by
  apply add_of_visible
  by_contra hvisible
  rw [Symbol.Named.normalize_id ⟨name, hid⟩, hid] at hvisible
  rw [find?_eq_none_iff.2 hvisible] at hfind
  cases hfind

/-- **Names that differ by case alone**, in the table of any run, after one of them was added. Words
end at the same places in both, and they are names of one symbol exactly if no word ends in a
capital sigma in one of them only. Then the second name stands for the symbol that was added under
the first, and it is refused. Otherwise the second name stands for what it stood for before. -/
theorem performAll_spelling (collapses : Bool) (rs : List Request) (hrs : ∀ r ∈ rs, r.Named) :
    let t := ((new collapses).performAll rs).1
    ∀ s, t.hasScope s = true → ∀ x y : Text, lowerEach x = lowerEach y →
      (∀ i, EndsWord [] x i ↔ EndsWord [] y i) ∧
        ((Symbol.ofName x).id = (Symbol.ofName y).id ↔
          ∀ i, EndsWord [] x i → (x[i]? = some 'Σ' ↔ y[i]? = some 'Σ')) ∧
        ∀ u target, t.add s (Symbol.ofName x) = .ok (u, target) →
          ((Symbol.ofName x).id = (Symbol.ofName y).id →
            u.find? s y = some ((Symbol.ofName x).storedIn target) ∧
              u.add s (Symbol.ofName y) = .error ⟨(Symbol.ofName y).id⟩) ∧
          ((Symbol.ofName x).id ≠ (Symbol.ofName y).id → u.find? s y = t.find? s y) := by
  intro t s hs x y halike
  have hsound : t.Sound := ((sound_new collapses).performAll hrs).1
  refine ⟨Text.endsWord_congr halike, Text.lower_eq_iff halike, fun u target hadd => ?_⟩
  have hx : (Symbol.ofName x).Named := ⟨x, rfl⟩
  obtain ⟨v, hadd', -, hgains⟩ := (hsound.addEffect hs hx).stored fun hrefused => by
    rw [hrefused] at hadd
    cases hadd
  obtain ⟨rfl, rfl⟩ := Prod.mk.inj (Except.ok.inj (hadd.symm.trans hadd'))
  have hreaches := (hsound.mem_chain_iff hs).1 (hsound.effectiveScope_mem_chain hs)
  cases hfind : t.find? s y with
  | none =>
    refine ⟨fun hid => ?_, fun hid => hgains.absent s y hs hfind fun h => hid h.1.symm⟩
    have hfound := hgains.found s y hs hfind hid.symm hreaches
    exact ⟨hfound, add_of_find? rfl hfound⟩
  | some z =>
    refine ⟨fun hid => ?_, fun _ => hgains.kept s y z hs hfind⟩
    rw [add_of_find? hid hfind] at hadd
    cases hadd

/-- A word that ends in a capital sigma in both names; its first letter is a sigma too, and the
names differ in it. -/
theorem performAll_spelling_inner :
    let rs := [Request.newScope 0]
    let t := ((new false).performAll rs).1
    let x := "ΣΑΣ".toList
    let y := "σαΣ".toList
    (∀ r ∈ rs, r.Named) ∧ t.hasScope 1 = true ∧ lowerEach x = lowerEach y ∧
      ∃ u, t.add 1 (Symbol.ofName x) = .ok (u, 1) ∧
        u.find? 1 y = some ⟨"σας".toList, none, none, some 1⟩ ∧
        u.add 1 (Symbol.ofName y) = .error ⟨"σας".toList⟩ := by
  intro rs t x y
  have hnamed : ∀ r ∈ rs, r.Named := List.forall_mem_singleton.2 trivial
  have hscope : t.hasScope 1 = true := rfl
  have halike : lowerEach x = lowerEach y := by decide +kernel
  have hid : (Symbol.ofName x).id = (Symbol.ofName y).id := by decide +kernel
  have hx : Symbol.ofName x = ⟨"σας".toList, none, none, none⟩ := by decide +kernel
  obtain ⟨-, -, hadded⟩ := performAll_spelling false rs hnamed 1 hscope x y halike
  have hadd : t.add 1 (Symbol.ofName x) =
      .ok (t.extend 1 [⟨"σας".toList, none, none, some 1⟩], 1) := by decide +kernel
  obtain ⟨hfind, hrefused⟩ := (hadded _ 1 hadd).1 hid
  rw [hx] at hfind
  rw [← hid, hx] at hrefused
  exact ⟨hnamed, hscope, halike, _, hadd, hfind, hrefused⟩

/-- **A word that ends in a sigma**, a capital one in one name and a small one in the other. The
names differ by case alone and both of them can be added: neither of them stands for the other. -/
theorem ofName_id_ne_of_last_sigma :
    let x := "ΑΣ".toList
    let y := "ασ".toList
    lowerEach x = lowerEach y ∧ (Symbol.ofName x).id ≠ (Symbol.ofName y).id ∧
      ∃ u, (new true).add root (Symbol.ofName x) = .ok (u, root) ∧ u.find? root y = none ∧
        ∃ v, u.add root (Symbol.ofName y) = .ok (v, root) ∧
          v.find? root x ≠ v.find? root y := by
  refine ⟨by decide +kernel, by decide +kernel,
    (new true).extend root [⟨"ας".toList, none, none, some root⟩], by decide +kernel,
    by decide +kernel,
    (new true).extend root [⟨"ας".toList, none, none, some root⟩,
      ⟨"ασ".toList, none, none, some root⟩], by decide +kernel, by decide +kernel⟩

end LineLang.SymbolTable
