import LineLang.Pattern

/-!
# Patterns read from left to right

A matcher that reads a pattern from left to right tries the first alternative of a choice before the
second, and one more repetition before it stops repeating. What it tries in this order are the
`ways` of a pattern at the beginning of a text, and what it takes is the first of them.

About the regular expressions of `Lexeme.pattern`.

* `Pattern.ways`: what a pattern can take at the beginning of a text, and what is left, in the order
  of preference.
* `Pattern.first?`: what it takes.

Results:
* `mem_ways_iff`: the ways are exactly the first parts of the text that the pattern denotes. The
  order of preference decides which of them is taken, and never whether there is one.
* `first?_manyOneOf`: repeating a class of characters takes the longest row.
-/

namespace LineLang.Pattern

/-! ## What patterns denote -/

@[simp] theorem accepts_char {c : Char} {t : Text} : Accepts (.char c) t ↔ t = [c] := by
  constructor
  · rintro ⟨⟩
    rfl
  · rintro rfl
    exact .char c

theorem accepts_oneOf {s : CharClass} {t : Text} :
    Accepts (.oneOf s) t ↔ ∃ c, s.contains c = true ∧ t = [c] := by
  constructor
  · rintro ⟨⟩
    exact ⟨_, ‹_›, rfl⟩
  · rintro ⟨c, hc, rfl⟩
    exact .oneOf hc

theorem accepts_seq {p q : Pattern} {t : Text} :
    Accepts (.seq p q) t ↔ ∃ u v, t = u ++ v ∧ Accepts p u ∧ Accepts q v := by
  constructor
  · rintro ⟨⟩
    exact ⟨_, _, rfl, ‹_›, ‹_›⟩
  · rintro ⟨u, v, rfl, hu, hv⟩
    exact .seq hu hv

theorem accepts_either {p q : Pattern} {t : Text} :
    Accepts (.either p q) t ↔ Accepts p t ∨ Accepts q t := by
  constructor
  · intro h
    cases h with
    | left h => exact Or.inl h
    | right h => exact Or.inr h
  · rintro (h | h)
    · exact .left h
    · exact .right h

theorem accepts_many1 {p : Pattern} {t : Text} :
    Accepts (.many1 p) t ↔ Accepts (.seq p (.many p)) t := by
  rw [accepts_seq]
  constructor
  · rintro ⟨⟩
    exact ⟨_, _, rfl, ‹_›, ‹_›⟩
  · rintro ⟨u, v, rfl, hu, hv⟩
    exact .many1 hu hv

/-- A repetition can be read so that every round takes something. -/
theorem accepts_many {p : Pattern} {t : Text} :
    Accepts (.many p) t ↔
      t = [] ∨ ∃ u v, u ≠ [] ∧ t = u ++ v ∧ Accepts p u ∧ Accepts (.many p) v := by
  constructor
  · intro h
    generalize hq : Pattern.many p = q at h
    induction h with
    | manyNil => exact Or.inl rfl
    | @manyCons p' u v hu hv _ ih =>
      obtain rfl : p = p' := by injection hq
      by_cases hne : u = []
      · -- a round that takes nothing can be left out
        rw [hne]
        exact ih rfl
      · exact Or.inr ⟨u, v, hne, rfl, hu, hv⟩
    | _ => cases hq
  · rintro (rfl | ⟨u, v, -, rfl, hu, hv⟩)
    · exact .manyNil
    · exact .manyCons hu hv

theorem accepts_manyOneOf {s : CharClass} {t : Text} :
    Accepts (.many (.oneOf s)) t ↔ ∀ c ∈ t, s.contains c = true := by
  constructor
  · intro h
    generalize hq : Pattern.many (.oneOf s) = q at h
    induction h with
    | manyNil => exact fun c hc => absurd hc List.not_mem_nil
    | @manyCons p' u v hu hv _ ih =>
      obtain rfl : .oneOf s = p' := by injection hq
      obtain ⟨d, hd, rfl⟩ := accepts_oneOf.1 hu
      intro c hc
      rcases List.mem_cons.1 hc with rfl | hc
      · exact hd
      · exact ih rfl c hc
    | _ => cases hq
  · intro h
    induction t with
    | nil => exact .manyNil
    | cons c t ih =>
      exact .manyCons (.oneOf (h c List.mem_cons_self))
        (ih fun d hd => h d (List.mem_cons_of_mem c hd))

/-! ## Ways to take a first part -/

/-- First parts of a text with what is left of it, each followed by more. -/
def followed (ways : List (Text × Text)) (next : Text → List (Text × Text)) :
    List (Text × Text) :=
  ways.flatMap fun way => (next way.2).map fun more => (way.1 ++ more.1, more.2)

/-- The ways of a repetition, longer ones first. A round that takes nothing is not repeated. -/
def repeated (step : Text → List (Text × Text)) (t : Text) : List (Text × Text) :=
  followed (step t) (fun rest => if rest.length < t.length then repeated step rest else []) ++
    [([], t)]
termination_by t.length

/-- The ways in which a pattern takes a first part of a text, in the order of preference: what is
taken, and what is left. -/
def ways : Pattern → Text → List (Text × Text)
  | .char _, [] => []
  | .char c, d :: t => if d = c then [([d], t)] else []
  | .oneOf _, [] => []
  | .oneOf s, d :: t => if s.contains d then [([d], t)] else []
  | .seq p q, t => followed (p.ways t) q.ways
  | .either p q, t => p.ways t ++ q.ways t
  | .many p, t => repeated p.ways t
  | .many1 p, t => followed (p.ways t) (repeated p.ways)

/-- What a pattern takes at the beginning of a text, and what is left. -/
def first? (p : Pattern) (t : Text) : Option (Text × Text) := (p.ways t).head?

theorem mem_followed {ways : List (Text × Text)} {next : Text → List (Text × Text)} {u r : Text} :
    (u, r) ∈ followed ways next ↔
      ∃ v w m, (v, m) ∈ ways ∧ (w, r) ∈ next m ∧ u = v ++ w := by
  simp only [followed, List.mem_flatMap, List.mem_map, Prod.mk.injEq, Prod.exists]
  constructor
  · rintro ⟨v, m, hv, w, r, hw, rfl, rfl⟩
    exact ⟨v, w, m, hv, hw, rfl⟩
  · rintro ⟨v, w, m, hv, hw, rfl⟩
    exact ⟨v, m, hv, w, r, hw, rfl, rfl⟩

/-- The ways of a repetition, by the ways of one round. -/
theorem mem_repeated_iff {p : Pattern} {step : Text → List (Text × Text)}
    (hstep : ∀ {t u r}, (u, r) ∈ step t ↔ u ++ r = t ∧ Accepts p u) {t u r : Text} :
    (u, r) ∈ repeated step t ↔ u ++ r = t ∧ Accepts (.many p) u := by
  induction hn : t.length using Nat.strongRecOn generalizing t u r with
  | ind n ih =>
    subst hn
    rw [repeated, List.mem_append, mem_followed, List.mem_singleton, Prod.mk.injEq, accepts_many]
    constructor
    · rintro (⟨v, w, m, hv, hw, rfl⟩ | ⟨rfl, rfl⟩)
      · obtain ⟨rfl, hp⟩ := hstep.1 hv
        split at hw
        · rename_i hlt
          obtain ⟨rfl, hmany⟩ := (ih _ hlt rfl).1 hw
          refine ⟨List.append_assoc v w r, Or.inr ⟨v, w, ?_, rfl, hp, hmany⟩⟩
          rintro rfl
          exact absurd hlt (Nat.lt_irrefl _)
        · exact absurd hw List.not_mem_nil
      · exact ⟨rfl, Or.inl rfl⟩
    · rintro ⟨rfl, rfl | ⟨v, w, hne, rfl, hp, hmany⟩⟩
      · exact Or.inr ⟨rfl, rfl⟩
      · have hlt : (w ++ r).length < (v ++ w ++ r).length := by
          have := List.length_pos_iff.2 hne
          simp only [List.length_append]
          omega
        refine Or.inl ⟨v, w, w ++ r, hstep.2 ⟨(List.append_assoc v w r).symm, hp⟩, ?_, rfl⟩
        rw [if_pos hlt]
        exact (ih _ hlt rfl).2 ⟨rfl, hmany⟩

/-- The ways of one pattern after another, by the ways of both. -/
theorem mem_followed_iff {p q : Pattern} {ways : List (Text × Text)}
    {next : Text → List (Text × Text)} {t u r : Text}
    (hways : ∀ {u r}, (u, r) ∈ ways ↔ u ++ r = t ∧ Accepts p u)
    (hnext : ∀ {t u r}, (u, r) ∈ next t ↔ u ++ r = t ∧ Accepts q u) :
    (u, r) ∈ followed ways next ↔ u ++ r = t ∧ Accepts (.seq p q) u := by
  rw [mem_followed, accepts_seq]
  constructor
  · rintro ⟨v, w, m, hv, hw, rfl⟩
    obtain ⟨rfl, hp⟩ := hways.1 hv
    obtain ⟨rfl, hq⟩ := hnext.1 hw
    exact ⟨List.append_assoc v w r, v, w, rfl, hp, hq⟩
  · rintro ⟨rfl, v, w, rfl, hp, hq⟩
    exact ⟨v, w, w ++ r, hways.2 ⟨(List.append_assoc v w r).symm, hp⟩, hnext.2 ⟨rfl, hq⟩, rfl⟩

/-- **The ways are exactly the first parts that a pattern denotes.** -/
theorem mem_ways_iff {p : Pattern} {t u r : Text} :
    (u, r) ∈ p.ways t ↔ u ++ r = t ∧ Accepts p u := by
  induction p generalizing t u r with
  | char c =>
    rw [accepts_char]
    cases t with
    | nil =>
      simp only [ways, List.not_mem_nil, List.append_eq_nil_iff, false_iff]
      rintro ⟨⟨rfl, -⟩, h⟩
      cases h
    | cons d t =>
      simp only [ways]
      split
      · subst d
        rw [List.mem_singleton, Prod.mk.injEq]
        constructor
        · rintro ⟨rfl, rfl⟩
          exact ⟨rfl, rfl⟩
        · rintro ⟨h, rfl⟩
          exact ⟨rfl, (List.cons.inj h).2⟩
      · rename_i hne
        refine ⟨fun h => absurd h List.not_mem_nil, ?_⟩
        rintro ⟨h, rfl⟩
        exact absurd (List.cons.inj h).1.symm hne
  | oneOf s =>
    rw [accepts_oneOf]
    cases t with
    | nil =>
      simp only [ways, List.not_mem_nil, List.append_eq_nil_iff, false_iff]
      rintro ⟨⟨rfl, -⟩, c, -, h⟩
      cases h
    | cons d t =>
      simp only [ways]
      split
      · rename_i hd
        rw [List.mem_singleton, Prod.mk.injEq]
        constructor
        · rintro ⟨rfl, rfl⟩
          exact ⟨rfl, d, hd, rfl⟩
        · rintro ⟨h, c, -, rfl⟩
          rw [List.singleton_append, List.cons.injEq] at h
          exact ⟨by rw [h.1], h.2⟩
      · rename_i hd
        refine ⟨fun h => absurd h List.not_mem_nil, ?_⟩
        rintro ⟨h, c, hc, rfl⟩
        rw [List.singleton_append, List.cons.injEq] at h
        exact absurd (h.1 ▸ hc) hd
  | seq p q ihp ihq => exact mem_followed_iff ihp ihq
  | either p q ihp ihq =>
    rw [ways, List.mem_append, ihp, ihq, accepts_either, and_or_left]
  | many p ihp => exact mem_repeated_iff ihp
  | many1 p ihp =>
    rw [ways, accepts_many1]
    exact mem_followed_iff ihp (mem_repeated_iff ihp)

/-- A pattern takes nothing exactly where it denotes no first part of the text. -/
theorem first?_eq_none_iff {p : Pattern} {t : Text} :
    p.first? t = none ↔ ∀ u, u <+: t → ¬ Accepts p u := by
  rw [first?, List.head?_eq_none_iff, List.eq_nil_iff_forall_not_mem]
  constructor
  · rintro h u ⟨r, rfl⟩ hu
    exact h (u, r) (mem_ways_iff.2 ⟨rfl, hu⟩)
  · rintro h ⟨u, r⟩ hmem
    obtain ⟨rfl, hu⟩ := mem_ways_iff.1 hmem
    exact h u (List.prefix_append u r) hu

/-- What a pattern takes is a first part of the text, and one that it denotes. -/
theorem accepts_of_first? {p : Pattern} {t u r : Text} (h : p.first? t = some (u, r)) :
    u ++ r = t ∧ Accepts p u :=
  mem_ways_iff.1 (List.mem_of_head? h)

/-! ## Classes of characters -/

theorem first?_either (p q : Pattern) (t : Text) :
    (Pattern.either p q).first? t = (p.first? t).or (q.first? t) := by
  rw [first?, ways, List.head?_append]
  rfl

/-- A first character of a class, and then another pattern. -/
theorem first?_oneOf_seq (s : CharClass) (q : Pattern) (c : Char) (t : Text) :
    (Pattern.seq (.oneOf s) q).first? (c :: t) =
      if s.contains c then (q.first? t).map fun way => (c :: way.1, way.2) else none := by
  simp only [first?, ways]
  split
  · simp only [followed, List.flatMap_singleton, List.singleton_append, List.head?_map]
  · rfl

theorem repeated_oneOf_cons (s : CharClass) (c : Char) (t : Text) :
    repeated (ways (.oneOf s)) (c :: t) =
      (if s.contains c then
        (repeated (ways (.oneOf s)) t).map fun way => (c :: way.1, way.2)
      else []) ++ [([], c :: t)] := by
  rw [repeated, ways]
  split
  · simp [followed]
  · rfl

/-- Repeating a class of characters takes the longest row of them. -/
theorem first?_manyOneOf (s : CharClass) (t : Text) :
    (Pattern.many (.oneOf s)).first? t = some (t.takeWhile s.contains, t.dropWhile s.contains) := by
  rw [first?, ways]
  induction t with
  | nil => rw [repeated]; rfl
  | cons c t ih =>
    rw [repeated_oneOf_cons, List.head?_append]
    split
    · rename_i hc
      rw [List.head?_map, ih, List.takeWhile_cons_of_pos hc, List.dropWhile_cons_of_pos hc]
      rfl
    · rename_i hc
      rw [List.takeWhile_cons_of_neg hc, List.dropWhile_cons_of_neg hc]
      rfl

end LineLang.Pattern
