import LineLang.Text.Lowercase

/-!
# Lower case is stable

Small letters are no capitals themselves. A text in lower case therefore stays as it is when it is
lower-cased once more, wherever its letters stand: the final small sigma is as stable as the plain
one.

The table of capitals is looked at by pairs of runs and not by single characters. Two runs that
overlap as ranges still do not meet when the capitals of the second lie between the small letters of
the first, every other one, as in the Latin alphabets beyond ASCII.

About `normalize`.

Results:
* `contains_image_of_apart`: what being apart says of the characters of two runs.
* `isSmall_of_mem_lower`: a text in lower case holds small characters only.
* `lower_lower`: lower-casing twice is lower-casing once.
* `lower_of_ascii`: texts of ASCII characters.
-/

namespace LineLang.Text

/-! ## Runs of capitals -/

namespace CaseRun

/-- Whether the small letters of one run are no capitals of another: they lie outside its range, or
between its capitals, on the numbers of the other parity. -/
def apart (r s : CaseRun) : Bool :=
  Nat.blt (r.target + (r.last - r.first)) s.first || Nat.blt s.last r.target ||
    (s.step == 2 && (r.step == 2 || r.first == r.last) && (r.target + s.first) % 2 == 1)

theorem contains_iff {r : CaseRun} {c : Char} :
    r.contains c = true ↔
      r.first ≤ c.toNat ∧ c.toNat ≤ r.last ∧ (c.toNat - r.first) % r.step = 0 := by
  simp [contains, and_assoc]

/-- A number that is no code point stands for the first character. -/
theorem toNat_ofNat_eq_or (n : Nat) : (Char.ofNat n).toNat = n ∨ (Char.ofNat n).toNat = 0 := by
  rw [Char.ofNat]
  by_cases h : n.isValidChar
  · rw [dif_pos h]
    exact Or.inl rfl
  · rw [dif_neg h]
    exact Or.inr rfl

/-- **Apart runs do not meet**: no small letter of the first is a capital of the second. -/
theorem contains_image_of_apart {r s : CaseRun} {c : Char} (hc : r.contains c = true)
    (h : r.apart s = true) (hs : 0 < s.first) : s.contains (r.image c) = false := by
  obtain ⟨hfirst, hlast, hstep⟩ := contains_iff.1 hc
  rw [Bool.eq_false_iff]
  intro hd
  obtain ⟨hdfirst, hdlast, hdstep⟩ := contains_iff.1 hd
  have hn : (r.image c).toNat = r.target + (c.toNat - r.first) := by
    rcases toNat_ofNat_eq_or (r.target + (c.toNat - r.first)) with hn | hn
    · exact hn
    · have : (r.image c).toNat = 0 := hn
      omega
  rw [hn] at hdfirst hdlast hdstep
  simp only [apart, Bool.or_eq_true, Bool.and_eq_true, Nat.blt_eq, beq_iff_eq] at h
  rcases h with (h | h) | ⟨⟨hs2, hr⟩, hparity⟩
  · omega
  · omega
  · -- the image keeps the parity of `target`, so it falls between the capitals of `s`
    have heven : (c.toNat - r.first) % 2 = 0 := by
      rcases hr with hr | hr
      · rwa [hr] at hstep
      · have : c.toNat - r.first = 0 := by omega
        rw [this]
    rw [hs2] at hdstep
    omega

end CaseRun

/-- No small letter of a capital is a capital. -/
theorem capitals_apart :
    (capitals.all fun r => capitals.all fun s => r.apart s && Nat.blt 0 s.first) = true := by
  decide +kernel

/-- The capital dotted I is outside all runs, as a run of its own. -/
theorem capitals_apart_dotted : (capitals.all (·.apart ⟨0x130, 0x130, 1, 0x69⟩)) = true := by
  decide +kernel

/-! ## Small characters -/

/-- A character that is its own small form and no capital sigma: lower-casing keeps it wherever it
stands. -/
def IsSmall (c : Char) : Prop := c ≠ 'Σ' ∧ lowerChar c = [c]

/-- Whether a character is one of the capitals of the table. -/
def isCapital (c : Char) : Bool := capitals.any (·.contains c)

/-- A character outside the table of capitals is small, apart from the dotted I. -/
theorem isSmall_of_isCapital_eq_false {c : Char} (hdotted : c ≠ '\u0130')
    (h : isCapital c = false) : IsSmall c := by
  constructor
  · rintro rfl
    exact absurd h (by decide +kernel)
  · have hfind : capitals.find? (·.contains c) = none :=
      List.find?_eq_none.2 fun r hr => List.any_eq_false.1 h r hr
    rw [lowerChar, if_neg hdotted, hfind]

theorem isSmall_image {r : CaseRun} {c : Char} (hr : r ∈ capitals) (hc : r.contains c = true) :
    IsSmall (r.image c) := by
  apply isSmall_of_isCapital_eq_false
  · intro hd
    have h := List.all_eq_true.1 capitals_apart_dotted r hr
    have hnot := CaseRun.contains_image_of_apart hc h (by decide)
    rw [hd] at hnot
    exact absurd hnot (by decide)
  · refine List.any_eq_false.2 fun s hs => ?_
    have h := List.all_eq_true.1 (List.all_eq_true.1 capitals_apart r hr) s hs
    rw [Bool.and_eq_true, Nat.blt_eq] at h
    rw [CaseRun.contains_image_of_apart hc h.1 h.2]
    exact Bool.false_ne_true

theorem isSmall_of_mem_lowerChar {c d : Char} (h : d ∈ lowerChar c) : IsSmall d := by
  unfold lowerChar at h
  split at h
  · have hd : d = 'i' ∨ d = '\u0307' := by simpa using h
    rcases hd with rfl | rfl
    · exact isSmall_of_isCapital_eq_false (by decide) (by decide +kernel)
    · exact isSmall_of_isCapital_eq_false (by decide) (by decide +kernel)
  · rename_i hdotted
    split at h
    · rename_i r hfind
      have hc : r.contains c = true := by simpa using List.find?_some hfind
      rw [List.mem_singleton.1 h]
      exact isSmall_image (List.mem_of_find?_eq_some hfind) hc
    · rename_i hfind
      rw [List.mem_singleton.1 h]
      exact isSmall_of_isCapital_eq_false hdotted
        (List.any_eq_false.2 fun r hr => List.find?_eq_none.1 hfind r hr)

theorem isSmall_of_mem_lowerBetween {before after : Text} {c d : Char}
    (h : d ∈ lowerBetween before c after) : IsSmall d := by
  unfold lowerBetween at h
  split at h
  · -- a capital sigma turns into one of the two small ones
    rw [List.mem_singleton] at h
    rw [h]
    split
    · exact isSmall_of_isCapital_eq_false (by decide) (by decide +kernel)
    · exact isSmall_of_isCapital_eq_false (by decide) (by decide +kernel)
  · exact isSmall_of_mem_lowerChar h

/-! ## ASCII -/

/-- All runs but the first are beyond ASCII. -/
theorem capitals_tail : (capitals.tail.all fun r => Nat.ble 0x80 r.first) = true := by
  decide +kernel

theorem toNat_toLower (c : Char) :
    c.toLower.toNat = if 65 ≤ c.toNat ∧ c.toNat ≤ 90 then c.toNat + 32 else c.toNat := by
  unfold Char.toLower
  simp only [Char.toNat, ge_iff_le, UInt32.le_iff_toNat_le, Char.reduceVal, UInt32.reduceToNat]
  split
  · rename_i h
    simp only [UInt32.reduceSub, UInt32.toNat_add, UInt32.reduceToNat]
    omega
  · rfl

/-- On ASCII characters the table is the usual one. -/
theorem lowerChar_of_ascii {c : Char} (h : c.toNat < 0x80) : lowerChar c = [c.toLower] := by
  have hdotted : c ≠ '\u0130' := by
    rintro rfl
    exact absurd h (by decide)
  have htail : capitals.tail.find? (·.contains c) = none := by
    rw [List.find?_eq_none]
    intro r hr hc
    have hbeyond := Nat.le_of_ble_eq_true (List.all_eq_true.1 capitals_tail r hr)
    have hfirst := (CaseRun.contains_iff.1 hc).1
    omega
  have hcapitals : capitals = ⟨0x41, 0x5a, 1, 0x61⟩ :: capitals.tail := rfl
  rw [lowerChar, if_neg hdotted, hcapitals, List.find?_cons, htail]
  cases hc : CaseRun.contains ⟨0x41, 0x5a, 1, 0x61⟩ c with
  | true =>
    obtain ⟨hfirst, hlast, -⟩ := CaseRun.contains_iff.1 hc
    have himage : (0x61 + (c.toNat - 0x41)).isValidChar := Or.inl (by omega)
    refine congrArg (fun d => [d]) (Char.toNat_inj.1 ?_)
    rw [toNat_toLower, if_pos ⟨hfirst, hlast⟩, CaseRun.image, Char.ofNat, dif_pos himage]
    have hle : 0x41 ≤ c.toNat := hfirst
    change 0x61 + (c.toNat - 0x41) = c.toNat + 32
    omega
  | false =>
    have hrange : ¬ (65 ≤ c.toNat ∧ c.toNat ≤ 90) := fun ⟨hfirst, hlast⟩ =>
      Bool.eq_false_iff.1 hc (CaseRun.contains_iff.2 ⟨hfirst, hlast, Nat.mod_one _⟩)
    refine congrArg (fun d => [d]) (Char.toNat_inj.1 ?_)
    rw [toNat_toLower, if_neg hrange]

/-! ## Texts in lower case -/

theorem isSmall_of_mem_lowerAfter {before t : Text} {d : Char} (h : d ∈ lowerAfter before t) :
    IsSmall d := by
  induction t generalizing before with
  | nil => exact absurd h List.not_mem_nil
  | cons c t ih =>
    rw [lowerAfter, List.mem_append] at h
    rcases h with h | h
    · exact isSmall_of_mem_lowerBetween h
    · exact ih h

/-- A text in lower case holds small characters only. -/
theorem isSmall_of_mem_lower {t : Text} {d : Char} (h : d ∈ lower t) : IsSmall d :=
  isSmall_of_mem_lowerAfter h

/-- Where each character has one small form whatever its neighbours are, a text is lower-cased
character by character. -/
theorem lowerAfter_eq_map {f : Char → Char} {before t : Text}
    (h : ∀ c ∈ t, c ≠ 'Σ' ∧ lowerChar c = [f c]) : lowerAfter before t = t.map f := by
  induction t generalizing before with
  | nil => rfl
  | cons c t ih =>
    obtain ⟨hsigma, hlower⟩ := h c List.mem_cons_self
    rw [lowerAfter, ih fun d hd => h d (List.mem_cons_of_mem c hd), lowerBetween, if_neg hsigma,
      hlower]
    rfl

/-- **Lower case is stable**: lower-casing twice is lower-casing once. -/
theorem lower_lower (t : Text) : lower (lower t) = lower t := by
  rw [lower, lowerAfter_eq_map (f := id) fun _ => isSmall_of_mem_lower, List.map_id]

/-- **ASCII texts** are lower-cased as anywhere else. -/
theorem lower_of_ascii {t : Text} (h : ∀ c ∈ t, c.toNat < 0x80) : lower t = t.map Char.toLower := by
  refine lowerAfter_eq_map fun c hc => ⟨?_, lowerChar_of_ascii (h c hc)⟩
  rintro rfl
  exact absurd (h _ hc) (by decide)

end LineLang.Text
