import LineLang.Proofs.Pattern
import LineLang.Token.Cursor

/-!
# The recognisers of the categories

Each category is recognised by hand, and its pattern says what it should recognise.

About `Lexeme.matches` and the scanner of `Lexer`, against `Lexeme.pattern`.

Results:
* `munch?_eq_first?`: a recogniser takes what a matcher takes that reads the pattern left to right.
* `length_le_of_munch?`: no longer first part of the text belongs to the category.
* `accepts_iff`: a whole text is recognised exactly if the pattern denotes it.
* `munchFirst?_eq_first?`: trying the recognisers in scanning order is matching the choice between
  all patterns.
* `munchFirst?_eq_some_iff`: the first category in scanning order takes the longest first part of a
  text that belongs to any category.
* `munchFirst?_append_of_before`: text that nothing reaches into does not change what is taken.
* `munchFirst?_append_newline`: what is taken before a newline does not depend on what follows it.
-/

namespace LineLang

/-! ## Classes of characters -/

namespace CharClass

theorem letter_iff {c : Char} :
    letter.contains c = true ↔
      (97 ≤ c.toNat ∧ c.toNat ≤ 122) ∨ (65 ≤ c.toNat ∧ c.toNat ≤ 90) := by
  simp [contains, letter, ClassItem.contains, Char.le_def, UInt32.le_iff_toNat_le]

theorem digit_iff {c : Char} :
    digit.contains c = true ↔ 48 ≤ c.toNat ∧ c.toNat ≤ 57 := by
  simp [contains, digit, ClassItem.contains, Char.le_def, UInt32.le_iff_toNat_le]

theorem contains_digit (c : Char) : digit.contains c = c.isDigit := by
  rw [Bool.eq_iff_iff, digit_iff, Char.isDigit_iff_toNat]
  rfl

theorem contains_letter (c : Char) : letter.contains c = c.isAlpha := by
  have hupper : c.isUpper = true ↔ 65 ≤ c.toNat ∧ c.toNat ≤ 90 := decide_eq_true_iff
  have hlower : c.isLower = true ↔ 97 ≤ c.toNat ∧ c.toNat ≤ 122 :=
    (Bool.and_eq_true_iff ..).trans (and_congr decide_eq_true_iff decide_eq_true_iff)
  have halpha : c.isAlpha = true ↔ c.isUpper = true ∨ c.isLower = true := Bool.or_eq_true_iff ..
  rw [Bool.eq_iff_iff, letter_iff, halpha, hupper, hlower, or_comm]

theorem identifierStart_iff {c : Char} :
    identifierStart.contains c = true ↔ c = '$' ∨ c = '_' ∨ letter.contains c = true := by
  simp [contains, identifierStart, letter, ClassItem.contains]

theorem identifierRest_iff {c : Char} :
    identifierRest.contains c = true ↔
      identifierStart.contains c = true ∨ digit.contains c = true := by
  simp [contains, identifierRest, identifierStart, digit, ClassItem.contains, or_assoc]

theorem inLine_iff {c : Char} : inLine.contains c = true ↔ c ≠ '\n' := by
  simp [contains, inLine, ClassItem.contains]

/-- Names are made of ASCII characters that leave a mark. -/
theorem graphic_of_identifierRest {c : Char} (h : identifierRest.contains c = true) :
    0x20 < c.toNat ∧ c.toNat < 0x80 := by
  rcases identifierRest_iff.1 h with h | h
  · rcases identifierStart_iff.1 h with rfl | rfl | h
    · decide
    · decide
    · rw [letter_iff] at h
      omega
  · rw [digit_iff] at h
    omega

/-- No identifier begins with a digit. -/
theorem identifierStart_of_digit {c : Char} (h : digit.contains c = true) :
    identifierStart.contains c = false := by
  rw [Bool.eq_false_iff]
  intro hs
  rw [digit_iff] at h
  rcases identifierStart_iff.1 hs with rfl | rfl | hs
  · exact absurd h (by decide)
  · exact absurd h (by decide)
  · rw [letter_iff] at hs
    omega

end CharClass

namespace Category

open Pattern

theorem identifierRest_of_letter {c : Char} (h : CharClass.letter.contains c = true) :
    CharClass.identifierRest.contains c = true :=
  CharClass.identifierRest_iff.2 (Or.inl (CharClass.identifierStart_iff.2 (Or.inr (Or.inr h))))

theorem identifierRest_of_digit {c : Char} (h : CharClass.digit.contains c = true) :
    CharClass.identifierRest.contains c = true :=
  CharClass.identifierRest_iff.2 (Or.inr h)

/-! ## Recognisers and patterns -/

theorem run?_cons_of_pos {first rest : CharClass} {c : Char} {t : Text}
    (h : first.contains c = true) :
    run? first rest (c :: t) = some (c :: t.takeWhile rest.contains, t.dropWhile rest.contains) :=
  if_pos h

theorem run?_cons_of_neg {first rest : CharClass} {c : Char} {t : Text}
    (h : first.contains c = false) : run? first rest (c :: t) = none := by
  rw [run?, h]
  rfl

/-- A row of characters: one of a first class, then any number of another. -/
def Row (first rest : CharClass) (t : Text) : Prop :=
  ∃ c u, t = c :: u ∧ first.contains c = true ∧ ∀ d ∈ u, rest.contains d = true

theorem accepts_row {first rest : CharClass} {t : Text} :
    Accepts (.seq (.oneOf first) (.many (.oneOf rest))) t ↔ Row first rest t := by
  simp only [accepts_seq, accepts_oneOf, accepts_manyOneOf]
  constructor
  · rintro ⟨_, u, rfl, ⟨c, hc, rfl⟩, hu⟩
    exact ⟨c, u, rfl, hc, hu⟩
  · rintro ⟨c, u, rfl, hc, hu⟩
    exact ⟨[c], u, rfl, ⟨c, hc, rfl⟩, hu⟩

/-- A row of one class is not empty and has no other characters. -/
theorem row_self_iff {s : CharClass} {t : Text} :
    Row s s t ↔ t ≠ [] ∧ ∀ b ∈ t, s.contains b = true := by
  constructor
  · rintro ⟨b, v, rfl, hb, hv⟩
    exact ⟨List.cons_ne_nil b v, List.forall_mem_cons.2 ⟨hb, hv⟩⟩
  · rintro ⟨hne, h⟩
    obtain ⟨b, v, rfl⟩ := List.exists_cons_of_ne_nil hne
    rw [List.forall_mem_cons] at h
    exact ⟨b, v, rfl, h.1, h.2⟩

theorem accepts_many1OneOf {s : CharClass} {t : Text} :
    Accepts (.many1 (.oneOf s)) t ↔ Row s s t :=
  accepts_many1.trans accepts_row

/-- A row is taken up to the first character that does not continue it. -/
theorem run?_eq_some_iff {first rest : CharClass} {t u r : Text} :
    run? first rest t = some (u, r) ↔
      u ++ r = t ∧ Row first rest u ∧ ∀ c ∈ r.head?, rest.contains c = false := by
  constructor
  · intro h
    refine ⟨(run?_append h).1, ?_⟩
    cases t with
    | nil => cases h
    | cons c t =>
      cases hc : first.contains c with
      | false =>
        rw [run?_cons_of_neg hc] at h
        cases h
      | true =>
        rw [run?_cons_of_pos hc] at h
        cases h
        refine ⟨⟨c, _, rfl, hc, List.all_eq_true.1 List.all_takeWhile⟩, fun d hd => ?_⟩
        have hnot := List.head?_dropWhile_not rest.contains t
        rw [Option.mem_def.1 hd] at hnot
        exact hnot
  · rintro ⟨rfl, ⟨c, v, rfl, hc, hv⟩, hr⟩
    have hstop : r.takeWhile rest.contains = [] ∧ r.dropWhile rest.contains = r := by
      cases r with
      | nil => exact ⟨rfl, rfl⟩
      | cons d r =>
        have hd : ¬ rest.contains d = true := by
          rw [hr d rfl]
          exact Bool.false_ne_true
        exact ⟨List.takeWhile_cons_of_neg hd, List.dropWhile_cons_of_neg hd⟩
    rw [List.cons_append, run?_cons_of_pos hc, List.takeWhile_append_of_pos hv,
      List.dropWhile_append_of_pos hv, hstop.1, hstop.2, List.append_nil]

/-- A row is read as its pattern demands. -/
theorem run?_eq_first? (first rest : CharClass) (t : Text) :
    run? first rest t = (Pattern.seq (.oneOf first) (.many (.oneOf rest))).first? t := by
  cases t with
  | nil => rfl
  | cons c t =>
    rw [first?_oneOf_seq, first?_manyOneOf, run?]
    rfl

/-- No longer row begins a text than the one taken. -/
theorem length_le_of_run? {first rest : CharClass} {t u r w : Text}
    (h : run? first rest t = some (u, r)) (hw : w <+: t) (hrow : Row first rest w) :
    w.length ≤ u.length := by
  obtain ⟨x, rfl⟩ := hw
  obtain ⟨c, v, rfl, hc, hv⟩ := hrow
  rw [List.cons_append, run?_cons_of_pos hc, List.takeWhile_append_of_pos hv] at h
  cases h
  simp only [List.length_cons, List.length_append]
  omega

/-- The marks that begin a comment. -/
def markers : List Text := [['/', '/'], ['-', '-'], ['#']]

theorem munchComment?_eq_some_iff {t : Text} {way : Text × Text} :
    munchComment? t = some way ↔
      ∃ marker ∈ markers, ∃ rest, t = marker ++ rest ∧ way = lineAfter marker rest := by
  constructor
  · intro h
    unfold munchComment? at h
    split at h
    · rename_i rest
      exact ⟨['/', '/'], by decide, rest, rfl, (Option.some.inj h).symm⟩
    · rename_i rest
      exact ⟨['-', '-'], by decide, rest, rfl, (Option.some.inj h).symm⟩
    · rename_i rest
      exact ⟨['#'], by decide, rest, rfl, (Option.some.inj h).symm⟩
    · cases h
  · rintro ⟨marker, hm, rest, rfl, rfl⟩
    simp only [markers, List.mem_cons, List.not_mem_nil, or_false] at hm
    rcases hm with rfl | rfl | rfl <;> rfl

theorem accepts_comment {t : Text} :
    Accepts comment.pattern t ↔
      ∃ marker ∈ markers, ∃ rest, t = marker ++ rest ∧ ∀ c ∈ rest, CharClass.inLine.contains c := by
  simp only [pattern, accepts_seq, accepts_either, accepts_char, accepts_manyOneOf, markers,
    List.mem_cons, List.not_mem_nil, or_false]
  constructor
  · rintro ⟨u, v, rfl, ⟨_, _, rfl, rfl, rfl⟩ | ⟨_, _, rfl, rfl, rfl⟩ | rfl, hv⟩
    · exact ⟨_, Or.inl rfl, v, rfl, hv⟩
    · exact ⟨_, Or.inr (Or.inl rfl), v, rfl, hv⟩
    · exact ⟨_, Or.inr (Or.inr rfl), v, rfl, hv⟩
  · rintro ⟨marker, rfl | rfl | rfl, rest, rfl, hrest⟩
    · exact ⟨_, rest, rfl, Or.inl ⟨_, _, rfl, rfl, rfl⟩, hrest⟩
    · exact ⟨_, rest, rfl, Or.inr (Or.inl ⟨_, _, rfl, rfl, rfl⟩), hrest⟩
    · exact ⟨_, rest, rfl, Or.inr (Or.inr rfl), hrest⟩

/-- A comment's marker is read in one way, and then the rest of the line. -/
theorem first?_comment {marker : Text} (h : marker ∈ markers) (rest : Text) :
    comment.pattern.first? (marker ++ rest) = some (lineAfter marker rest) := by
  have hrest := first?_manyOneOf .inLine rest
  rw [first?, ways] at hrest
  simp only [markers, List.mem_cons, List.not_mem_nil, or_false] at h
  rcases h with rfl | rfl | rfl <;>
    simp [first?, pattern, ways, followed, lineAfter, hrest]

theorem munchComment?_eq_first? (t : Text) : munchComment? t = comment.pattern.first? t := by
  cases h : munchComment? t with
  | some way =>
    obtain ⟨marker, hm, rest, rfl, rfl⟩ := munchComment?_eq_some_iff.1 h
    exact (first?_comment hm rest).symm
  | none =>
    symm
    rw [first?_eq_none_iff]
    rintro u ⟨r, rfl⟩ hu
    obtain ⟨marker, hm, rest, rfl, -⟩ := accepts_comment.1 hu
    rw [List.append_assoc] at h
    have hsome : munchComment? (marker ++ (rest ++ r)) = some _ :=
      munchComment?_eq_some_iff.2 ⟨marker, hm, _, rfl, rfl⟩
    exact Option.some_ne_none _ (hsome.symm.trans h)

theorem accepts_sizeSuffix {t : Text} :
    Accepts sizeSuffix.pattern t ↔
      ∃ digits, Row .digit .digit digits ∧ t = '[' :: digits ++ [']'] := by
  simp only [pattern, pattern.numberPattern, accepts_seq, accepts_char, accepts_many1OneOf]
  constructor
  · rintro ⟨_, _, rfl, rfl, digits, _, rfl, hdigits, rfl⟩
    exact ⟨digits, hdigits, rfl⟩
  · rintro ⟨digits, hdigits, rfl⟩
    exact ⟨['['], digits ++ [']'], rfl, rfl, digits, [']'], rfl, hdigits, rfl⟩

/-- A number in brackets is taken wherever there is one. -/
theorem munchSuffix?_eq_some_iff {t u r : Text} :
    munchSuffix? t = some (u, r) ↔ u ++ r = t ∧ Accepts sizeSuffix.pattern u := by
  rw [accepts_sizeSuffix]
  constructor
  · intro h
    refine ⟨(munchSuffix?_append h).1, ?_⟩
    unfold munchSuffix? at h
    split at h
    · split at h
      · rename_i digits rest hrun
        cases h
        exact ⟨digits, (run?_eq_some_iff.1 hrun).2.1, rfl⟩
      · cases h
    · cases h
  · rintro ⟨rfl, digits, hdigits, rfl⟩
    have hrun : run? .digit .digit (digits ++ ']' :: r) = some (digits, ']' :: r) :=
      run?_eq_some_iff.2 ⟨rfl, hdigits, fun c hc => by cases hc; decide⟩
    simp only [List.cons_append, List.append_assoc, List.nil_append, munchSuffix?, hrun]

/-- What follows the number does not matter: a text has at most one first part of this category. -/
theorem munchSuffix?_eq_first? (t : Text) : munchSuffix? t = sizeSuffix.pattern.first? t := by
  cases h : sizeSuffix.pattern.first? t with
  | some way => exact munchSuffix?_eq_some_iff.2 (accepts_of_first? h)
  | none =>
    rw [Option.eq_none_iff_forall_ne_some]
    rintro ⟨u, r⟩ hway
    obtain ⟨rfl, hu⟩ := munchSuffix?_eq_some_iff.1 hway
    exact first?_eq_none_iff.1 h u (List.prefix_append u r) hu

/-- **The recognisers follow the patterns**: each takes what a matcher takes that reads the pattern
of its category from left to right. -/
theorem munch?_eq_first? (c : Category) (t : Text) : c.munch? t = c.pattern.first? t := by
  cases c with
  | word => exact run?_eq_first? .letter .letter t
  | comment => exact munchComment?_eq_first? t
  | identifier => exact run?_eq_first? .identifierStart .identifierRest t
  | sizeSuffix => exact munchSuffix?_eq_first? t
  | operand =>
    have hid := run?_eq_first? .identifierStart .identifierRest t
    have hnum := run?_eq_first? .digit .digit t
    rw [munch?, hid, hnum, pattern, first?_either]
    rfl
  | newline =>
    cases t with
    | nil => rfl
    | cons d t =>
      by_cases hd : d = '\n'
      · rw [hd]
        rfl
      · simp [munch?, pattern, first?, ways, hd]

/-- Where a recogniser takes nothing, no first part of the text belongs to the category. -/
theorem munch?_eq_none_iff {c : Category} {t : Text} :
    c.munch? t = none ↔ ∀ u, u <+: t → ¬ Accepts c.pattern u := by
  rw [munch?_eq_first?, first?_eq_none_iff]

/-- What a recogniser takes belongs to the category. -/
theorem accepts_of_munch? {c : Category} {t u r : Text} (h : c.munch? t = some (u, r)) :
    Accepts c.pattern u := by
  rw [munch?_eq_first?] at h
  exact (accepts_of_first? h).2

/-! ## The longest first part -/

theorem length_le_of_munchComment? {t u r w : Text} (h : munchComment? t = some (u, r))
    (hw : w <+: t) (hacc : Accepts comment.pattern w) : w.length ≤ u.length := by
  obtain ⟨x, rfl⟩ := hw
  obtain ⟨marker, hm, rest, rfl, hrest⟩ := accepts_comment.1 hacc
  rw [List.append_assoc, munchComment?_eq_first?, first?_comment hm, lineAfter,
    List.takeWhile_append_of_pos hrest] at h
  cases h
  simp only [List.length_append]
  omega

theorem length_le_of_munchSuffix? {t u r w : Text} (h : munchSuffix? t = some (u, r))
    (hw : w <+: t) (hacc : Accepts sizeSuffix.pattern w) : w.length ≤ u.length := by
  obtain ⟨x, rfl⟩ := hw
  rw [munchSuffix?_eq_some_iff.2 ⟨rfl, hacc⟩] at h
  cases h
  exact Nat.le_refl _

/-- An identifier and a number begin differently, so only one of the two is looked for. -/
theorem length_le_of_munchOperand? {t u r w : Text} (h : operand.munch? t = some (u, r))
    (hw : w <+: t) (hacc : Accepts operand.pattern w) : w.length ≤ u.length := by
  rw [munch?] at h
  rcases accepts_either.1 hacc with hid | hnum
  · rcases Option.or_eq_some_iff.1 h with h | ⟨hnone, -⟩
    · exact length_le_of_run? h hw (accepts_row.1 hid)
    · exact absurd hid ((munch?_eq_none_iff (c := identifier)).1 hnone w hw)
  · obtain ⟨c, v, rfl, hc, hv⟩ := accepts_many1OneOf.1 hnum
    obtain ⟨x, rfl⟩ := hw
    rw [List.cons_append, run?_cons_of_neg (CharClass.identifierStart_of_digit hc),
      Option.none_or] at h
    exact length_le_of_run? h (List.prefix_append _ x) ⟨c, v, rfl, hc, hv⟩

/-- **Recognisers are greedy**: no longer first part of the text belongs to the category. -/
theorem length_le_of_munch? {c : Category} {t u r w : Text} (h : c.munch? t = some (u, r))
    (hw : w <+: t) (hacc : Accepts c.pattern w) : w.length ≤ u.length := by
  cases c with
  | word => exact length_le_of_run? h hw (accepts_many1OneOf.1 hacc)
  | comment => exact length_le_of_munchComment? h hw hacc
  | identifier => exact length_le_of_run? h hw (accepts_row.1 hacc)
  | sizeSuffix => exact length_le_of_munchSuffix? h hw hacc
  | operand => exact length_le_of_munchOperand? h hw hacc
  | newline =>
    have hu := accepts_char.1 (accepts_of_munch? h)
    exact Nat.le_of_eq (congrArg List.length ((accepts_char.1 hacc).trans hu.symm))

/-- **A whole text is recognised exactly if the pattern of the category denotes it.** -/
theorem accepts_iff {c : Category} {t : Text} : c.accepts t = true ↔ Accepts c.pattern t := by
  unfold accepts
  constructor
  · intro h
    split at h
    · rename_i u hm
      have := munch?_append hm
      rw [List.append_nil] at this
      rw [← this]
      exact accepts_of_munch? hm
    · cases h
  · intro h
    cases hm : c.munch? t with
    | none => exact absurd h (munch?_eq_none_iff.1 hm t (List.prefix_refl t))
    | some way =>
      obtain ⟨u, r⟩ := way
      have hle := length_le_of_munch? hm (List.prefix_refl t) h
      have hr : r = [] := by
        rw [← munch?_append hm, List.length_append] at hle
        exact List.length_eq_zero_iff.1 (by omega)
      rw [hr]

/-! ## The choice between all categories -/

/-- The choice between the patterns of all categories, in scanning order. -/
def scanPattern : Pattern :=
  [comment, identifier, sizeSuffix, operand, newline].foldr (fun c p => .either c.pattern p)
    word.pattern

theorem mem_scanOrder (c : Category) : c ∈ scanOrder := by
  cases c <;> decide

/-- Trying recognisers one after another is matching the choice between their patterns. -/
theorem findSome?_munch?_eq_first? (cs : List Category) (d : Category) (t : Text) :
    (cs ++ [d]).findSome? (·.munch? t) =
      (cs.foldr (fun c p => Pattern.either c.pattern p) d.pattern).first? t := by
  induction cs with
  | nil =>
    rw [List.nil_append, List.findSome?_singleton, munch?_eq_first?]
    rfl
  | cons c cs ih =>
    rw [List.cons_append, List.findSome?_cons, ih, List.foldr_cons, first?_either,
      ← munch?_eq_first? c]
    cases c.munch? t <;> rfl

/-- **Scanning is matching the choice between all patterns from left to right.** -/
theorem munchFirst?_eq_first? (t : Text) : munchFirst? t = scanPattern.first? t :=
  findSome?_munch?_eq_first? [comment, identifier, sizeSuffix, operand, newline] word t

theorem munchFirst?_eq_none_iff {t : Text} :
    munchFirst? t = none ↔ ∀ c u, u <+: t → ¬ Accepts (pattern c) u := by
  rw [munchFirst?, List.findSome?_eq_none_iff]
  constructor
  · intro h c
    exact munch?_eq_none_iff.1 (h c (mem_scanOrder c))
  · intro h c _
    exact munch?_eq_none_iff.2 (h c)

/-- What scanning takes belongs to some category. -/
theorem accepts_of_munchFirst? {t u r : Text} (h : munchFirst? t = some (u, r)) :
    ∃ c, Accepts (pattern c) u := by
  obtain ⟨c, -, h⟩ := List.exists_of_findSome?_eq_some h
  exact ⟨c, accepts_of_munch? h⟩

/-- A comment begins with one of three characters, so it does not begin in a class without them. -/
theorem munchComment?_cons_eq_none {s : CharClass} {c : Char} {t : Text}
    (hs : (['/', '-', '#'].all fun d => !s.contains d) = true) (hc : s.contains c = true) :
    munchComment? (c :: t) = none := by
  rw [Option.eq_none_iff_forall_ne_some]
  intro way hway
  obtain ⟨marker, hm, rest, heq, -⟩ := munchComment?_eq_some_iff.1 hway
  have hmem : c ∈ ['/', '-', '#'] := by
    simp only [markers, List.mem_cons, List.not_mem_nil, or_false] at hm
    rcases hm with rfl | rfl | rfl <;> simp [(List.cons.inj heq).1]
  have hnot := List.all_eq_true.1 hs c hmem
  rw [hc] at hnot
  exact Bool.false_ne_true hnot

theorem munchSuffix?_cons_eq_none {s : CharClass} {c : Char} {t : Text}
    (hs : s.contains '[' = false) (hc : s.contains c = true) : munchSuffix? (c :: t) = none := by
  unfold munchSuffix?
  split
  · rename_i heq
    rw [(List.cons.inj heq).1, hs] at hc
    exact absurd hc Bool.false_ne_true
  · rfl

/-- Where an identifier begins, scanning takes an identifier. -/
theorem munchFirst?_of_identifierStart {c : Char} (h : CharClass.identifierStart.contains c = true)
    (t : Text) : munchFirst? (c :: t) = identifier.munch? (c :: t) := by
  have hcomment := munchComment?_cons_eq_none (t := t) (by decide) h
  simp only [munchFirst?, scanOrder, List.findSome?_cons, munch?, hcomment, run?_cons_of_pos h]

/-- Where a number begins, scanning takes a number. -/
theorem munchFirst?_of_digit {c : Char} (h : CharClass.digit.contains c = true) (t : Text) :
    munchFirst? (c :: t) = operand.munch? (c :: t) := by
  have hcomment := munchComment?_cons_eq_none (t := t) (by decide) h
  have hsuffix := munchSuffix?_cons_eq_none (t := t) (by decide) h
  simp only [munchFirst?, scanOrder, List.findSome?_cons, munch?, hcomment, hsuffix,
    run?_cons_of_neg (CharClass.identifierStart_of_digit h), run?_cons_of_pos h, Option.none_or]

/-- Where a bracket stands, scanning takes a number in brackets or nothing. -/
theorem munchFirst?_bracket (t : Text) :
    munchFirst? ('[' :: t) = sizeSuffix.munch? ('[' :: t) := by
  have hid : run? .identifierStart .identifierRest ('[' :: t) = none := run?_cons_of_neg (by decide)
  have hnum : run? .digit .digit ('[' :: t) = none := run?_cons_of_neg (by decide)
  have hword : run? .letter .letter ('[' :: t) = none := run?_cons_of_neg (by decide)
  simp only [munchFirst?, scanOrder, List.findSome?_cons, List.findSome?_nil, munch?, hid, hnum,
    hword, Option.none_or, show munchComment? ('[' :: t) = none from rfl]
  cases munchSuffix? ('[' :: t) <;> rfl

/-- Where a line ends, scanning takes the newline. -/
theorem munchFirst?_newline (t : Text) : munchFirst? ('\n' :: t) = some (['\n'], t) := rfl

/-- Where one category takes something, scanning takes at least as much. -/
theorem munchFirst?_of_munch? {c : Category} {t u r : Text} (h : c.munch? t = some (u, r)) :
    ∃ v x, munchFirst? t = some (v, x) ∧ u.length ≤ v.length := by
  cases c with
  | word =>
    -- a word goes on as an identifier
    obtain ⟨rfl, ⟨c, w, rfl, hc, hw⟩, -⟩ := run?_eq_some_iff.1 h
    have hletter : ∀ {d}, CharClass.letter.contains d = true →
        CharClass.identifierStart.contains d = true :=
      fun hd => CharClass.identifierStart_iff.2 (Or.inr (Or.inr hd))
    have hrest : ∀ d ∈ w, CharClass.identifierRest.contains d = true := fun d hd =>
      CharClass.identifierRest_iff.2 (Or.inl (hletter (hw d hd)))
    have hrow : Row .identifierStart .identifierRest (c :: w) := ⟨c, w, rfl, hletter hc, hrest⟩
    have hrun : run? .identifierStart .identifierRest (c :: (w ++ r)) = _ :=
      run?_cons_of_pos (hletter hc)
    exact ⟨_, _, (munchFirst?_of_identifierStart (hletter hc) (w ++ r)).trans hrun,
      length_le_of_run? hrun (List.prefix_append _ r) hrow⟩
  | comment =>
    refine ⟨u, r, ?_, Nat.le_refl _⟩
    simp only [munchFirst?, scanOrder, List.findSome?_cons, h]
  | identifier =>
    obtain ⟨rfl, ⟨c, w, rfl, hc, hw⟩, -⟩ := run?_eq_some_iff.1 h
    exact ⟨_, _, (munchFirst?_of_identifierStart hc (w ++ r)).trans h, Nat.le_refl _⟩
  | sizeSuffix =>
    obtain ⟨rfl, hacc⟩ := munchSuffix?_eq_some_iff.1 h
    obtain ⟨digits, -, rfl⟩ := accepts_sizeSuffix.1 hacc
    exact ⟨_, _, (munchFirst?_bracket _).trans h, Nat.le_refl _⟩
  | operand =>
    rcases Option.or_eq_some_iff.1 h with hid | ⟨hnone, hnum⟩
    · obtain ⟨rfl, ⟨c, w, rfl, hc, hw⟩, -⟩ := run?_eq_some_iff.1 hid
      exact ⟨_, _, (munchFirst?_of_identifierStart hc (w ++ r)).trans hid, Nat.le_refl _⟩
    · obtain ⟨rfl, ⟨c, w, rfl, hc, hw⟩, -⟩ := run?_eq_some_iff.1 hnum
      exact ⟨_, _, (munchFirst?_of_digit hc (w ++ r)).trans h, Nat.le_refl _⟩
  | newline =>
    have hu := accepts_char.1 (accepts_of_munch? h)
    obtain rfl := munch?_append h
    rw [hu]
    exact ⟨_, _, munchFirst?_newline r, Nat.le_refl _⟩

/-- **The first category in scanning order takes as much as any could**: no longer first part of the
text belongs to a category. -/
theorem length_le_of_munchFirst? {t u r w : Text} {c : Category}
    (h : munchFirst? t = some (u, r)) (hw : w <+: t) (hacc : Accepts c.pattern w) :
    w.length ≤ u.length := by
  cases hm : c.munch? t with
  | none => exact absurd hacc (munch?_eq_none_iff.1 hm w hw)
  | some way =>
    obtain ⟨v, x⟩ := way
    obtain ⟨v', x', hfirst, hle⟩ := munchFirst?_of_munch? hm
    rw [h] at hfirst
    cases hfirst
    exact Nat.le_trans (length_le_of_munch? hm hw hacc) hle

/-- **Scanning takes the longest first part that belongs to a category.** -/
theorem munchFirst?_eq_some_iff {t u r : Text} :
    munchFirst? t = some (u, r) ↔
      u ++ r = t ∧ (∃ c, Accepts (pattern c) u) ∧
        ∀ c w, w <+: t → Accepts (pattern c) w → w.length ≤ u.length := by
  constructor
  · intro h
    exact ⟨(munchFirst?_append_and_ne_nil h).1, accepts_of_munchFirst? h,
      fun c w hw hacc => length_le_of_munchFirst? h hw hacc⟩
  · rintro ⟨rfl, ⟨c, hacc⟩, hlongest⟩
    cases hm : munchFirst? (u ++ r) with
    | none => exact absurd hacc (munchFirst?_eq_none_iff.1 hm c u (List.prefix_append u r))
    | some way =>
      obtain ⟨v, x⟩ := way
      obtain ⟨happ, -⟩ := munchFirst?_append_and_ne_nil hm
      obtain ⟨d, hd⟩ := accepts_of_munchFirst? hm
      have hle := length_le_of_munchFirst? hm (List.prefix_append u r) hacc
      have hge := hlongest d v ⟨x, happ⟩ hd
      obtain ⟨rfl, rfl⟩ := List.append_inj happ (Nat.le_antisymm hge hle)
      rfl

/-- A text that belongs to a category is taken as a whole. -/
theorem munchFirst?_of_accepts {c : Category} {t : Text} (h : Accepts c.pattern t) :
    munchFirst? t = some (t, []) :=
  munchFirst?_eq_some_iff.2 ⟨List.append_nil t, ⟨c, h⟩, fun _ _ hw _ => hw.length_le⟩

theorem ne_nil_of_accepts {c : Category} {t : Text} (h : Accepts c.pattern t) : t ≠ [] :=
  (munchFirst?_append_and_ne_nil (munchFirst?_of_accepts h)).2

/-- **Scanning stops where the categories do**: if nothing that begins in the first of two texts
ends in the second, then the second does not change what is taken. -/
theorem munchFirst?_append_of_before {t x : Text}
    (hbefore : ∀ c w, w <+: t ++ x → Accepts (pattern c) w → w <+: t) :
    munchFirst? (t ++ x) = (munchFirst? t).map fun way => (way.1, way.2 ++ x) := by
  cases h : munchFirst? t with
  | none =>
    rw [Option.map_none, munchFirst?_eq_none_iff]
    intro c w hw hacc
    exact munchFirst?_eq_none_iff.1 h c w (hbefore c w hw hacc) hacc
  | some way =>
    obtain ⟨u, r⟩ := way
    obtain ⟨rfl, hacc, hlongest⟩ := munchFirst?_eq_some_iff.1 h
    refine munchFirst?_eq_some_iff.2 ⟨(List.append_assoc u r _).symm, hacc, fun c w hw hw' => ?_⟩
    exact hlongest c w (hbefore c w hw hw') hw'

/-! ## Newlines -/

theorem Row.not_mem {first rest : CharClass} {t : Text} {c : Char} (h : Row first rest t)
    (hfirst : first.contains c = false) (hrest : rest.contains c = false) : c ∉ t := by
  obtain ⟨d, u, rfl, hd, hu⟩ := h
  intro hmem
  rcases List.mem_cons.1 hmem with rfl | hmem
  · rw [hfirst] at hd
    exact Bool.false_ne_true hd
  · have hc := hu c hmem
    rw [hrest] at hc
    exact Bool.false_ne_true hc

/-- Only the category of newlines reaches over the end of a line. -/
theorem newline_not_mem {c : Category} (hc : c ≠ newline) {t : Text} (h : Accepts c.pattern t) :
    '\n' ∉ t := by
  cases c with
  | word => exact (accepts_many1OneOf.1 h).not_mem (by decide) (by decide)
  | comment =>
    obtain ⟨marker, hm, rest, rfl, hrest⟩ := accepts_comment.1 h
    intro hmem
    rcases List.mem_append.1 hmem with hmem | hmem
    · have hmarkers : ∀ m ∈ markers, '\n' ∉ m := by decide
      exact hmarkers marker hm hmem
    · exact CharClass.inLine_iff.1 (hrest _ hmem) rfl
  | identifier => exact (accepts_row.1 h).not_mem (by decide) (by decide)
  | sizeSuffix =>
    obtain ⟨digits, hdigits, rfl⟩ := accepts_sizeSuffix.1 h
    have hnot := hdigits.not_mem (c := '\n') (by decide) (by decide)
    simp [hnot]
  | operand =>
    rcases accepts_either.1 h with h | h
    · exact (accepts_row.1 h).not_mem (by decide) (by decide)
    · exact (accepts_many1OneOf.1 h).not_mem (by decide) (by decide)
  | newline => exact absurd rfl hc

theorem eq_newline_of_mem {c : Category} {t : Text} (h : Accepts c.pattern t) (hmem : '\n' ∈ t) :
    t = ['\n'] := by
  by_cases hc : c = newline
  · rw [hc] at h
    exact accepts_char.1 h
  · exact absurd hmem (newline_not_mem hc h)

/-- What belongs to a category and begins before a newline ends before it. -/
theorem prefix_of_prefix_append_newline {c : Category} {t b w : Text} (ht : t ≠ [])
    (hw : w <+: t ++ '\n' :: b) (h : Accepts c.pattern w) : w <+: t := by
  obtain ⟨x, hx⟩ := hw
  rcases List.append_eq_append_iff.1 hx with ⟨y, rfl, -⟩ | ⟨y, rfl, hy⟩
  · exact List.prefix_append w y
  · cases y with
    | nil => simp
    | cons d y =>
      obtain ⟨rfl, -⟩ := List.cons.inj hy
      -- the newline is not alone, since something stands before it
      have hall := eq_newline_of_mem h (List.mem_append_right t List.mem_cons_self)
      have hlen := congrArg List.length hall
      have := List.length_pos_iff.2 ht
      simp only [List.length_append, List.length_cons, List.length_nil] at hlen
      omega

/-- **Scanning stops at newlines**: a newline further on does not change what is taken. -/
theorem munchFirst?_append_newline {t : Text} (ht : t ≠ []) (b : Text) :
    munchFirst? (t ++ '\n' :: b) =
      (munchFirst? t).map fun way => (way.1, way.2 ++ '\n' :: b) :=
  munchFirst?_append_of_before fun _ _ => prefix_of_prefix_append_newline ht

end Category

end LineLang
