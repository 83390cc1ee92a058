import Mathlib.Computability.Language
import LineLang.Proofs.Category

/-!
# Categories of whole texts

Whether the whole of a text belongs to a category is told by a recogniser. The pattern of the
category answers the same question in two more ways: as a language, put together from the languages
of its parts, and through a matcher that goes over all the pattern can take until something reaches
the end of the text. The three agree on every text.

The first character of a text tells which categories are possible at all. Categories overlap in one
way only: words are identifiers, and identifiers are operands.

About `Lexeme.matches` and `Lexeme.classify`.

* `Pattern.language`: the texts that a pattern denotes, as a language.
* `Pattern.matchesWhole`: a matcher of whole texts.
* `Category.widest`: the widest category around a category.
* `Category.overlaps`: the sets of categories that one text can have.

Results:
* `mem_language_iff`, `matchesWhole_iff`: the language and the matcher of a pattern.
* `widest_eq_of_accepts`: the categories of one text have the same widest category around them.
* `accepting_mem_overlaps`: the categories of a text.
* `classify?_eq_operand_iff`, `classify?_eq_identifier_iff`: texts that have no narrow category.
* `accepting_overlap`: recognition is exact, and how categories overlap.
-/

namespace LineLang

namespace Pattern

open scoped Computability

/-! ## Languages and matchers -/

/-- The texts that a pattern denotes, as a language. -/
def language : Pattern → Language Char
  | .char c => {[c]}
  | .oneOf s => {t | ∃ c, s.contains c = true ∧ t = [c]}
  | .seq p q => p.language * q.language
  | .either p q => p.language + q.language
  | .many p => p.language∗
  | .many1 p => p.language * p.language∗

/-- A matcher of whole texts: it goes over the ways of a pattern, in the order of preference, until
one of them reaches the end of the text. -/
def matchesWhole (p : Pattern) (t : Text) : Bool := (p.ways t).any (·.2.isEmpty)

/-- A repetition is any number of rounds. -/
theorem accepts_many_iff_flatten {p : Pattern} {t : Text} :
    Accepts (.many p) t ↔ ∃ rounds : List Text, t = rounds.flatten ∧ ∀ u ∈ rounds, Accepts p u := by
  constructor
  · intro h
    generalize hq : Pattern.many p = q at h
    induction h with
    | manyNil => exact ⟨[], rfl, List.forall_mem_nil _⟩
    | @manyCons p' u v hu _ _ ih =>
      obtain rfl : p = p' := by injection hq
      obtain ⟨rounds, rfl, hrounds⟩ := ih rfl
      exact ⟨u :: rounds, List.flatten_cons.symm, List.forall_mem_cons.2 ⟨hu, hrounds⟩⟩
    | _ => cases hq
  · rintro ⟨rounds, rfl, hrounds⟩
    induction rounds with
    | nil => exact .manyNil
    | cons u rounds ih =>
      rw [List.forall_mem_cons] at hrounds
      rw [List.flatten_cons]
      exact .manyCons hrounds.1 (ih hrounds.2)

/-- The language of one pattern after another, by the languages of both. -/
theorem mem_mul_iff {p q : Pattern} {l m : Language Char} (hl : ∀ t : Text, t ∈ l ↔ Accepts p t)
    (hm : ∀ t : Text, t ∈ m ↔ Accepts q t) {t : Text} : t ∈ l * m ↔ Accepts (.seq p q) t := by
  rw [Language.mem_mul, accepts_seq]
  constructor
  · rintro ⟨u, hu, v, hv, rfl⟩
    exact ⟨u, v, rfl, (hl u).1 hu, (hm v).1 hv⟩
  · rintro ⟨u, v, rfl, hu, hv⟩
    exact ⟨u, (hl u).2 hu, v, (hm v).2 hv, rfl⟩

theorem mem_kstar_iff {p : Pattern} {l : Language Char} (hl : ∀ t : Text, t ∈ l ↔ Accepts p t)
    {t : Text} : t ∈ l∗ ↔ Accepts (.many p) t := by
  rw [Language.mem_kstar, accepts_many_iff_flatten]
  simp only [hl]

/-- **The language of a pattern** is what it denotes. -/
theorem mem_language_iff {p : Pattern} {t : Text} : t ∈ p.language ↔ Accepts p t := by
  induction p generalizing t with
  | char c => exact accepts_char.symm
  | oneOf s => exact accepts_oneOf.symm
  | seq p q ihp ihq => exact mem_mul_iff (fun _ => ihp) fun _ => ihq
  | either p q ihp ihq => rw [language, Language.mem_add, accepts_either, ihp, ihq]
  | many p ihp => exact mem_kstar_iff fun _ => ihp
  | many1 p ihp =>
    rw [accepts_many1]
    exact mem_mul_iff (fun _ => ihp) fun _ => mem_kstar_iff fun _ => ihp

/-- **The matcher finds a way to the end** exactly for what the pattern denotes. -/
theorem matchesWhole_iff {p : Pattern} {t : Text} : p.matchesWhole t = true ↔ Accepts p t := by
  rw [matchesWhole, List.any_eq_true]
  constructor
  · rintro ⟨⟨u, r⟩, hway, hend⟩
    obtain rfl : r = [] := List.isEmpty_iff.1 hend
    obtain ⟨rfl, hu⟩ := mem_ways_iff.1 hway
    rwa [List.append_nil]
  · intro h
    exact ⟨(t, []), mem_ways_iff.2 ⟨List.append_nil t, h⟩, rfl⟩

end Pattern

namespace Category

open Pattern

variable {c d : Category} {t : Text}

/-! ## Wide and narrow categories -/

/-- The widest category around a category. -/
def widest : Category → Category
  | word => operand
  | identifier => operand
  | c => c

/-- Words are identifiers. -/
theorem accepts_identifier_of_word (h : Accepts word.pattern t) : Accepts identifier.pattern t := by
  obtain ⟨b, v, rfl, hb, hv⟩ := accepts_many1OneOf.1 h
  exact accepts_row.2 ⟨b, v, rfl, CharClass.identifierStart_iff.2 (Or.inr (Or.inr hb)),
    fun d hd => identifierRest_of_letter (hv d hd)⟩

/-- What belongs to a category belongs to the widest one around it. -/
theorem accepts_widest (h : Accepts (pattern c) t) : Accepts c.widest.pattern t := by
  cases c with
  | word => exact .left (accepts_identifier_of_word h)
  | identifier => exact .left h
  | comment | sizeSuffix | operand | newline => exact h

/-- The widest category of the texts that begin with a character. -/
def widestAt? (b : Char) : Option Category :=
  if CharClass.identifierRest.contains b then some operand
  else if b = '[' then some sizeSuffix
  else if b = '\n' then some newline
  else if b ∈ ['/', '-', '#'] then some comment
  else none

theorem widestAt?_of_identifierRest {b : Char} (h : CharClass.identifierRest.contains b = true) :
    widestAt? b = some operand := if_pos h

/-- **The first character of a text** tells the widest category that the text can have. -/
theorem widestAt?_of_accepts {b : Char} {v : Text} (h : Accepts (pattern c) (b :: v)) :
    widestAt? b = some c.widest := by
  have hoperand : ∀ {v}, Accepts operand.pattern (b :: v) → widestAt? b = some operand := by
    intro v h
    refine widestAt?_of_identifierRest (CharClass.identifierRest_iff.2 ?_)
    rcases accepts_either.1 h with h | h
    · obtain ⟨e, w, heq, he, -⟩ := accepts_row.1 h
      exact Or.inl ((List.cons.inj heq).1 ▸ he)
    · obtain ⟨e, w, heq, he, -⟩ := accepts_many1OneOf.1 h
      exact Or.inr ((List.cons.inj heq).1 ▸ he)
  cases c with
  | word | identifier | operand => exact hoperand (accepts_widest h)
  | comment =>
    obtain ⟨marker, hm, rest, heq, -⟩ := accepts_comment.1 h
    simp only [markers, List.mem_cons, List.not_mem_nil, or_false] at hm
    rcases hm with rfl | rfl | rfl
    all_goals
      rw [(List.cons.inj heq).1]
      rfl
  | sizeSuffix =>
    obtain ⟨_, -, heq⟩ := accepts_sizeSuffix.1 h
    rw [(List.cons.inj heq).1]
    rfl
  | newline =>
    rw [(List.cons.inj (accepts_char.1 h)).1]
    rfl

/-- **Categories of one text** have the same widest category around them. -/
theorem widest_eq_of_accepts (hc : Accepts (pattern c) t) (hd : Accepts (pattern d) t) :
    c.widest = d.widest := by
  obtain ⟨b, v, rfl⟩ := List.exists_cons_of_ne_nil (ne_nil_of_accepts hc)
  exact Option.some.inj ((widestAt?_of_accepts hc).symm.trans (widestAt?_of_accepts hd))

theorem accepts_eq_false (h : Accepts (pattern c) t) (hne : c.widest ≠ d.widest) :
    d.accepts t = false := by
  rw [Bool.eq_false_iff]
  exact fun hd => hne (widest_eq_of_accepts h (accepts_iff.1 hd))

/-! ## Categories of a text -/

theorem mem_accepting_iff : c ∈ accepting t ↔ Accepts (pattern c) t := by
  have hcatalog : c ∈ catalog := by cases c <;> decide
  rw [accepting, List.mem_filter, accepts_iff]
  exact and_iff_right hcatalog

/-- Only what has the same widest category around it can be among the categories of a text. -/
theorem accepting_eq_filter (h : Accepts (pattern c) t) :
    accepting t = (catalog.filter (·.widest = c.widest)).filter (·.accepts t) := by
  rw [accepting, List.filter_filter]
  refine List.filter_congr fun d _ => ?_
  cases hd : d.accepts t with
  | false => rfl
  | true => simp [widest_eq_of_accepts (accepts_iff.1 hd) h]

/-- The sets of categories that one text can have, each in the order of the catalog. -/
def overlaps : List (List Category) :=
  [[], [comment], [sizeSuffix], [newline], [operand], [identifier, operand],
    [word, identifier, operand]]

/-- **The categories of a text** are one of seven sets. -/
theorem accepting_mem_overlaps (t : Text) : accepting t ∈ overlaps := by
  by_cases hnone : accepting t = []
  · rw [hnone]
    exact List.mem_cons_self
  · obtain ⟨c, hc⟩ := List.exists_mem_of_ne_nil _ hnone
    rw [mem_accepting_iff] at hc
    have hwidest := accepts_iff.2 (accepts_widest hc)
    rw [accepting_eq_filter hc]
    cases hw : c.widest with
    | comment | sizeSuffix | newline =>
      rw [hw] at hwidest
      simp [catalog, widest, hwidest, overlaps]
    | word | identifier => cases c <;> cases hw
    | operand =>
      rw [hw] at hwidest
      cases hidentifier : identifier.accepts t with
      | true => cases hword : word.accepts t <;> simp [catalog, widest, overlaps, *]
      | false =>
        have hword : word.accepts t = false := by
          rw [Bool.eq_false_iff] at hidentifier ⊢
          exact fun h => hidentifier (accepts_iff.2 (accepts_identifier_of_word (accepts_iff.1 h)))
        simp [catalog, widest, overlaps, *]

/-! ## The first category of a text -/

theorem classify?_eq_head? (t : Text) : classify? t = (accepting t).head? := List.head?_filter.symm

/-- The first category is the widest of all where no other is possible. -/
theorem classify?_eq_operand_iff : classify? t = some operand ↔ Row .digit .digit t := by
  rw [classify?_eq_head?]
  constructor
  · intro h
    have hall : ∀ cs ∈ overlaps, cs.head? = some operand → operand ∈ cs ∧ identifier ∉ cs := by
      decide
    obtain ⟨hoperand, hidentifier⟩ := hall _ (accepting_mem_overlaps t) h
    rw [mem_accepting_iff] at hoperand hidentifier
    exact accepts_many1OneOf.1 ((accepts_either.1 hoperand).resolve_left hidentifier)
  · intro h
    have hoperand : operand ∈ accepting t := mem_accepting_iff.2 (.right (accepts_many1OneOf.2 h))
    have hidentifier : identifier ∉ accepting t := by
      rw [mem_accepting_iff]
      intro hid
      -- a number begins with a digit, and no identifier does
      obtain ⟨b, v, rfl, hb, -⟩ := h
      obtain ⟨e, w, heq, he, -⟩ := accepts_row.1 hid
      rw [← (List.cons.inj heq).1, CharClass.identifierStart_of_digit hb] at he
      cases he
    have hall : ∀ cs ∈ overlaps, operand ∈ cs → identifier ∉ cs → cs.head? = some operand := by
      decide
    exact hall _ (accepting_mem_overlaps t) hoperand hidentifier

/-- The first category is that of identifiers where the text is no word. -/
theorem classify?_eq_identifier_iff :
    classify? t = some identifier ↔
      Accepts identifier.pattern t ∧ ∃ b ∈ t, CharClass.letter.contains b = false := by
  rw [classify?_eq_head?]
  constructor
  · intro h
    have hall : ∀ cs ∈ overlaps, cs.head? = some identifier → identifier ∈ cs ∧ word ∉ cs := by
      decide
    obtain ⟨hidentifier, hword⟩ := hall _ (accepting_mem_overlaps t) h
    rw [mem_accepting_iff] at hidentifier hword
    refine ⟨hidentifier, ?_⟩
    by_contra hletters
    simp only [not_exists, not_and, Bool.not_eq_false] at hletters
    exact hword (accepts_many1OneOf.2 (row_self_iff.2 ⟨ne_nil_of_accepts hidentifier, hletters⟩))
  · rintro ⟨hidentifier, b, hb, hletter⟩
    have hword : word ∉ accepting t := by
      rw [mem_accepting_iff, pattern, accepts_many1OneOf, row_self_iff]
      rintro ⟨-, hletters⟩
      rw [hletters b hb] at hletter
      cases hletter
    have hall : ∀ cs ∈ overlaps, identifier ∈ cs → word ∉ cs → cs.head? = some identifier := by
      decide
    exact hall _ (accepting_mem_overlaps t) (mem_accepting_iff.2 hidentifier) hword

/-- **Recognition is exact, and categories overlap in one way only.** The whole of a text is
recognised exactly if it is in the language of the pattern, which is what a matcher of whole texts
finds too. The categories of a text are one of the seven sets of `overlaps`, and each of these is
that of some text. So the first category is that of operands for numbers alone, and that of
identifiers for those that do not consist of letters. -/
theorem accepting_overlap :
    (∀ (c : Category) (t : Text), (c.accepts t = true ↔ t ∈ c.pattern.language) ∧
      (c.accepts t = true ↔ c.pattern.matchesWhole t = true) ∧
      (c ∈ accepting t ↔ c.accepts t = true)) ∧
    (∀ cs, (∃ t, accepting t = cs) ↔ cs ∈ overlaps) ∧
    ∀ t : Text,
      (classify? t = some operand ↔ t ≠ [] ∧ ∀ b ∈ t, b.isDigit = true) ∧
      (classify? t = some identifier ↔
        identifier.accepts t = true ∧ ∃ b ∈ t, b.isAlpha = false) := by
  refine ⟨fun c t => ?_, fun cs => ⟨?_, fun hcs => ?_⟩, fun t => ⟨?_, ?_⟩⟩
  · rw [mem_language_iff, matchesWhole_iff, mem_accepting_iff, accepts_iff]
    exact ⟨Iff.rfl, Iff.rfl, Iff.rfl⟩
  · rintro ⟨t, rfl⟩
    exact accepting_mem_overlaps t
  · have hall : overlaps =
        ["!", "#", "[0]", "\n", "0", "_", "a"].map fun t => accepting t.toList := by decide +kernel
    rw [hall] at hcs
    obtain ⟨t, -, ht⟩ := List.mem_map.1 hcs
    exact ⟨t.toList, ht⟩
  · simp only [classify?_eq_operand_iff, row_self_iff, CharClass.contains_digit]
  · simp only [classify?_eq_identifier_iff, accepts_iff, CharClass.contains_letter]

/-- A trailing newline belongs to the text, and a letter outside ASCII is in no name. -/
example : accepting "inc\n".toList = [] ∧ accepting "é1".toList = [] := by decide +kernel

end Category

end LineLang
