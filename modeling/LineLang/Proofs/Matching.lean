import Mathlib.Data.List.Forall2
import Mathlib.Data.List.TakeWhile
import LineLang.CommandLine.Reading

/-!
# Matchers

What a command line means is documented for the matcher, which is not part of the program: arguments
may be written in several forms, and their occurrences are met from left to right. This says so for
any matcher, and shows that the matcher which reads argument by argument is one of that kind.

That matcher does not meet an occurrence at once: a value in an argument of its own waits for what
follows. So the invariant of its run is about what a reading comes down to when it is settled.

About the parser of command lines that `Args.parse` calls.

* `Command.Writes`: the forms in which occurrences may be written.
* `Command.Leaves`, `Command.Complete`: what the occurrences leave, and that it is all that is needed.
* `AppliesLeftToRight`: what is documented of a matcher.
* `Reading.ComesTo`: what a reading comes down to.

Results:
* `Reading.takeAll_of_writes`: reading what occurrences are written as.
* `Reading.of_fill`: what is filled in for options that were not met.
* `Reading.appliesLeftToRight`: the matcher that reads argument by argument does what is documented.
-/

namespace LineLang

open Text.Decimal (readWord?)

/-! ## Documented forms -/

/-- A text that is no option wherever it stands: a lone dash, or without a dash in front. -/
def Plain (t : Text) : Prop := t = ['-'] ∨ t.head? ≠ some '-'

instance : DecidablePred Plain := fun t =>
  inferInstanceAs (Decidable (t = ['-'] ∨ t.head? ≠ some '-'))

/-- **The forms in which occurrences may be written** on a command line, in their order. -/
inductive Command.Writes (c : Command) : List Occurrence → List Text → Prop
  | nil : Writes c [] []
  /-- A path stands for itself. -/
  | path {value : Text} {os : List Occurrence} {arguments : List Text} (plain : Plain value)
      (more : Writes c os arguments) : Writes c (.path value :: os) (value :: arguments)
  /-- One dash, and the letters of one flag or more. -/
  | cluster {letters : Text} {fs : List Flag} {os : List Occurrence} {arguments : List Text}
      (flags : List.Forall₂ (fun letter f => c.shortFlag? letter = some f) letters fs)
      (ne_nil : letters ≠ []) (more : Writes c os arguments) :
      Writes c (fs.map .flag ++ os) (('-' :: letters) :: arguments)
  /-- Two dashes, and the word of a flag. -/
  | long {name : LongName} {f : Flag} {os : List Occurrence} {arguments : List Text}
      (flag : c.longFlag? name.word = some f) (other : c.option? name.word = none)
      (more : Writes c os arguments) :
      Writes c (.flag f :: os) (('-' :: '-' :: name.word) :: arguments)
  /-- Two dashes, the word of an option, an equals sign and the value. -/
  | attached {o : NumberOption} {value : Text} {os : List Occurrence} {arguments : List Text}
      (option : c.option? o.long.word = some o) (more : Writes c os arguments) :
      Writes c (.option o value :: os)
        (('-' :: '-' :: (o.long.word ++ '=' :: value)) :: arguments)
  /-- Two dashes and the word of an option, and the value in the next argument. -/
  | detached {o : NumberOption} {value : Text} {os : List Occurrence} {arguments : List Text}
      (option : c.option? o.long.word = some o) (plain : Plain value)
      (more : Writes c os arguments) :
      Writes c (.option o value :: os) (('-' :: '-' :: o.long.word) :: value :: arguments)
  /-- Behind two dashes alone every argument is a path. -/
  | behind (values : List Text) : Writes c (values.map .path) (['-', '-'] :: values)

/-- What the occurrences on a command line leave, each met after those before it. -/
def Command.Leaves (c : Command) (arguments : List Text) (m : Matches) : Prop :=
  ∃ os, c.Writes os arguments ∧ os.foldlM (Matches.meet c) Matches.empty = .ok m

/-- What was met is all that is needed. -/
structure Command.Complete (c : Command) (environment : Environment) (m : Matches) : Prop where
  /-- A flag was not met together with one that it excludes. -/
  flags : ∀ f ∈ c.flags, ∀ id ∈ f.excludes, ¬(0 < m.counts f.id ∧ 0 < m.counts id)
  /-- Where paths are required there is one. -/
  paths : c.paths.required = true → m.paths c.paths.id ≠ []
  /-- What the environment holds for an option that was not met is a number. -/
  options : ∀ o ∈ c.options, m.numbers o.id = none →
    ∀ value, o.source.bind environment = some value → ∃ n, readWord? value = some n

/-- **What is documented of a matcher**, for a command: that it applies the declared arguments from
left to right, and what becomes of those that are not there. -/
structure AppliesLeftToRight (matcher : Matcher) (c : Command) : Prop where
  /-- A command line is accepted if its occurrences can be met one after the other, and they are all
  that is needed. -/
  accepts : ∀ {arguments environment m}, c.Leaves arguments m → c.Complete environment m →
    ∃ found, matcher c environment arguments = .ok found
  /-- Flags are as their occurrences leave them. -/
  flags : ∀ {arguments environment m found}, c.Leaves arguments m →
    matcher c environment arguments = .ok found →
      ∀ f ∈ c.flags, found.counts f.id = m.counts f.id
  /-- Paths are found in their order. -/
  paths : ∀ {arguments environment m found}, c.Leaves arguments m →
    matcher c environment arguments = .ok found →
      found.paths c.paths.id = m.paths c.paths.id
  /-- The number of an option that is given is found, whatever the environment holds. -/
  given : ∀ {arguments environment m found}, c.Leaves arguments m →
    matcher c environment arguments = .ok found →
      ∀ o ∈ c.options, ∀ n, m.numbers o.id = some n → found.numbers o.id = some n
  /-- For an option that is not given the number in the environment is found. -/
  environment : ∀ {arguments environment m found}, c.Leaves arguments m →
    matcher c environment arguments = .ok found →
      ∀ o ∈ c.options, m.numbers o.id = none →
        ∀ value n, o.source.bind environment = some value → readWord? value = some n →
          found.numbers o.id = some n
  /-- For an option that is neither given nor in the environment the default is found. -/
  default : ∀ {arguments environment m found}, c.Leaves arguments m →
    matcher c environment arguments = .ok found →
      ∀ o ∈ c.options, m.numbers o.id = none → o.source.bind environment = none →
        found.numbers o.id = some o.default

/-! ## Forms of arguments -/

theorem formOf_of_plain {t : Text} (h : Plain t) : formOf t = .plain := by
  unfold formOf
  split
  · simp [Plain] at h
  · simp [Plain] at h
  · simp [Plain] at h
  · rfl

theorem formOf_cluster {letter : Char} (h : letter ≠ '-') (letters : Text) :
    formOf ('-' :: letter :: letters) = .cluster (letter :: letters) := by
  unfold formOf
  split
  · next heq => exact absurd (List.cons.inj (List.cons.inj heq).2).1 h
  · next heq => exact absurd (List.cons.inj (List.cons.inj heq).2).1 h
  · next heq =>
    obtain ⟨-, heq⟩ := List.cons.inj heq
    rw [heq]
  · next hother => exact absurd rfl (hother _ _)

/-- The letter of a flag is no dash. -/
theorem Command.ne_dash_of_shortFlag? {c : Command} {letter : Char} {f : Flag}
    (h : c.shortFlag? letter = some f) : letter ≠ '-' := by
  unfold shortFlag? at h
  have hletter := List.find?_some h
  cases hshort : f.short with
  | none => simp [hshort] at hletter
  | some name =>
    have heq : name.letter = letter := by simpa [hshort] using hletter
    exact heq ▸ name.ne_dash

theorem formOf_letters {c : Command} {letters : Text} {fs : List Flag}
    (hflags : List.Forall₂ (fun letter f => c.shortFlag? letter = some f) letters fs)
    (hne : letters ≠ []) : formOf ('-' :: letters) = .cluster letters := by
  cases hflags with
  | nil => exact absurd rfl hne
  | cons hf _ => exact formOf_cluster (Command.ne_dash_of_shortFlag? hf) _

theorem LongName.ne_equals (name : LongName) : ∀ c ∈ name.word, (c != '=') = true :=
  fun _ hc => bne_iff_ne.2 fun heq => name.no_equals (heq ▸ hc)

theorem formOf_long (name : LongName) :
    formOf ('-' :: '-' :: name.word) = .long name.word none := by
  have hdrop : name.word.dropWhile (· != '=') = [] := List.dropWhile_eq_nil_iff.2 name.ne_equals
  obtain ⟨c, t, hword⟩ := List.exists_cons_of_ne_nil name.ne_nil
  rw [hword] at hdrop ⊢
  simp only [formOf, hdrop]

theorem formOf_attached (name : LongName) (value : Text) :
    formOf ('-' :: '-' :: (name.word ++ '=' :: value)) = .long name.word (some value) := by
  have hdrop : (name.word ++ '=' :: value).dropWhile (· != '=') = '=' :: value :=
    List.dropWhile_append_of_pos name.ne_equals
  have htake : (name.word ++ '=' :: value).takeWhile (· != '=') = name.word :=
    (List.takeWhile_append_of_pos name.ne_equals).trans (List.append_nil _)
  obtain ⟨c, t, hword⟩ := List.exists_cons_of_ne_nil name.ne_nil
  rw [hword, List.cons_append] at hdrop htake ⊢
  simp only [formOf, hdrop, htake]

/-! ## Occurrences in a row -/

variable {c : Command} {o : Occurrence} {os more : List Occurrence} {m m' : Matches}

theorem Matches.meet_append_eq_ok :
    (os ++ more).foldlM (Matches.meet c) m = .ok m' ↔
      ∃ n, os.foldlM (Matches.meet c) m = .ok n ∧ more.foldlM (Matches.meet c) n = .ok m' := by
  rw [List.foldlM_append]
  cases h : os.foldlM (Matches.meet c) m with
  | ok n =>
    simp only [Except.ok.injEq, exists_eq_left']
    rfl
  | error e =>
    simp only [reduceCtorEq, false_and, exists_false, iff_false]
    rintro ⟨⟩

theorem Matches.meet_singleton :
    [o].foldlM (Matches.meet c) m = m.meet c o := by
  rw [List.foldlM_cons]
  cases m.meet c o <;> rfl

theorem Matches.meet_cons_eq_ok :
    (o :: os).foldlM (Matches.meet c) m = .ok m' ↔
      ∃ n, m.meet c o = .ok n ∧ os.foldlM (Matches.meet c) n = .ok m' := by
  rw [← List.singleton_append, meet_append_eq_ok, meet_singleton]

namespace Reading

/-! ## What a reading comes down to -/

/-- **What a reading comes down to** when what waits is settled. -/
structure ComesTo (c : Command) (r : Reading) (m : Matches) : Prop where
  awaiting : r.awaiting = none
  waiting : r.waiting.foldlM (Matches.meet c) r.found = .ok m

variable {r : Reading} {argument value : Text} {arguments values : List Text}

theorem ComesTo.settle (h : r.ComesTo c m) :
    r.settle c = .ok { r with found := m, waiting := [] } := by
  rw [Reading.settle, h.awaiting, h.waiting]

theorem ComesTo.takeAtOnce (h : r.ComesTo c m) (ho : m.meet c o = .ok m') :
    r.takeAtOnce c o = .ok { r with found := m', waiting := [] } := by
  simp only [Reading.takeAtOnce, h.settle, ho]

/-- A path joins the paths that wait, and settles anything else. -/
theorem ComesTo.takePath (h : r.ComesTo c m) (ho : m.meet c (.path value) = .ok m') :
    ∃ q, r.takePath c value = .ok q ∧ q.ended = r.ended ∧ q.ComesTo c m' := by
  unfold Reading.takePath
  split
  · refine ⟨_, rfl, rfl, h.awaiting, Matches.meet_append_eq_ok.2 ⟨m, h.waiting, ?_⟩⟩
    rw [Matches.meet_singleton, ho]
  · rw [h.settle]
    refine ⟨_, rfl, rfl, h.awaiting, ?_⟩
    rw [Matches.meet_singleton, ho]

/-- The flags of a cluster are met from left to right, by induction on its letters. -/
theorem ComesTo.takeCluster {letters : Text} {fs : List Flag}
    (hflags : List.Forall₂ (fun letter f => c.shortFlag? letter = some f) letters fs)
    (h : r.ComesTo c m) (ho : (fs.map .flag).foldlM (Matches.meet c) m = .ok m') :
    ∃ q, r.takeCluster c letters = .ok q ∧ q.ended = r.ended ∧ q.ComesTo c m' := by
  induction hflags generalizing r m with
  | nil =>
    cases ho
    exact ⟨r, rfl, rfl, h⟩
  | @cons letter f letters fs hf hflags ih =>
    obtain ⟨n, hn, hrest⟩ := Matches.meet_cons_eq_ok.1 ho
    have hsettled : ComesTo c { r with found := n, waiting := [] } n := ⟨h.awaiting, rfl⟩
    obtain ⟨q, hq, hended, hcomes⟩ := ih hsettled hrest
    refine ⟨q, ?_, hended, hcomes⟩
    rw [Reading.takeCluster, hf]
    simp only [h.takeAtOnce hn, hq]

/-! ## Arguments -/

theorem take_of_ended (h : r.ended = true) : r.take c argument = r.takePath c argument :=
  if_pos h

theorem take_of_mark (h : r.ended = false) :
    r.take c ['-', '-'] = .ok { r with ended := true } := by
  simp [take, h, formOf]

theorem take_of_long {name : Text} {attached : Option Text} (h : r.ended = false)
    (hform : formOf argument = .long name attached) :
    r.take c argument = r.takeLong c name attached := by
  simp [take, h, hform]

theorem take_of_cluster {letters : Text} (h : r.ended = false)
    (hform : formOf argument = .cluster letters) :
    r.take c argument = r.takeCluster c letters := by
  simp [take, h, hform]

theorem take_of_plain (h : r.ended = false) (hplain : Plain argument) :
    r.take c argument = r.takePlain c argument := by
  simp [take, h, formOf_of_plain hplain]

theorem takeAll_cons_of_ok {q : Reading} (h : r.take c argument = .ok q) :
    r.takeAll c (argument :: arguments) = q.takeAll c arguments := by
  rw [takeAll, h]

/-- Behind the mark all arguments are paths, by induction on them. -/
theorem takeAll_of_ended (h : r.ComesTo c m) (hended : r.ended = true)
    (ho : (values.map .path).foldlM (Matches.meet c) m = .ok m') :
    ∃ q, r.takeAll c values = .ok q ∧ q.ComesTo c m' := by
  induction values generalizing r m with
  | nil =>
    cases ho
    exact ⟨r, rfl, h⟩
  | cons value values ih =>
    obtain ⟨n, hn, hrest⟩ := Matches.meet_cons_eq_ok.1 ho
    obtain ⟨r', hr', hkept, hcomes⟩ := h.takePath hn
    rw [takeAll_cons_of_ok ((take_of_ended hended).trans hr')]
    exact ih hcomes (hkept.trans hended) hrest

/-- **Reading what occurrences are written as** meets them from left to right, by induction on how
they are written. -/
theorem takeAll_of_writes (hw : c.Writes os arguments) (h : r.ComesTo c m)
    (hended : r.ended = false) (ho : os.foldlM (Matches.meet c) m = .ok m') :
    ∃ q, r.takeAll c arguments = .ok q ∧ q.ComesTo c m' := by
  induction hw generalizing r m with
  | nil =>
    cases ho
    exact ⟨r, rfl, h⟩
  | @path value _ _ plain _ ih =>
    obtain ⟨n, hn, hrest⟩ := Matches.meet_cons_eq_ok.1 ho
    obtain ⟨r', hr', hkept, hcomes⟩ := h.takePath hn
    have htake : r.take c value = .ok r' := by
      rw [take_of_plain hended plain]
      simp only [takePlain, h.awaiting, hr']
    rw [takeAll_cons_of_ok htake]
    exact ih hcomes (hkept.trans hended) hrest
  | @cluster letters _ _ _ flags ne_nil _ ih =>
    obtain ⟨n, hn, hrest⟩ := Matches.meet_append_eq_ok.1 ho
    obtain ⟨r', hr', hkept, hcomes⟩ := h.takeCluster flags hn
    have htake : r.take c ('-' :: letters) = .ok r' :=
      (take_of_cluster hended (formOf_letters flags ne_nil)).trans hr'
    rw [takeAll_cons_of_ok htake]
    exact ih hcomes (hkept.trans hended) hrest
  | @long name f _ _ flag other _ ih =>
    obtain ⟨n, hn, hrest⟩ := Matches.meet_cons_eq_ok.1 ho
    have htake : r.take c ('-' :: '-' :: name.word) =
        .ok { r with found := n, waiting := [] } := by
      rw [take_of_long hended (formOf_long name)]
      simp only [takeLong, other, flag, h.takeAtOnce hn]
    rw [takeAll_cons_of_ok htake]
    exact ih ⟨h.awaiting, rfl⟩ hended hrest
  | @attached o value _ _ option _ ih =>
    obtain ⟨n, hn, hrest⟩ := Matches.meet_cons_eq_ok.1 ho
    have htake : r.take c ('-' :: '-' :: (o.long.word ++ '=' :: value)) =
        .ok { r with found := n, waiting := [] } := by
      rw [take_of_long hended (formOf_attached o.long value)]
      simp only [takeLong, option, takeOption, h.takeAtOnce hn]
    rw [takeAll_cons_of_ok htake]
    exact ih ⟨h.awaiting, rfl⟩ hended hrest
  | @detached o value _ _ option plain _ ih =>
    -- After both arguments the value waits, and only settling it meets the option.
    obtain ⟨n, hn, hrest⟩ := Matches.meet_cons_eq_ok.1 ho
    let r' : Reading := { r with found := m, waiting := [], awaiting := some o }
    have hended' : r'.ended = false := hended
    have hname : r.take c ('-' :: '-' :: o.long.word) = .ok r' := by
      rw [take_of_long hended (formOf_long o.long)]
      simp only [takeLong, option, takeOption, h.settle, r']
    have hvalue : r'.take c value =
        .ok { r with found := m, waiting := [.option o value], awaiting := none } := by
      rw [take_of_plain hended' plain]
      rfl
    rw [takeAll_cons_of_ok hname, takeAll_cons_of_ok hvalue]
    exact ih ⟨rfl, Matches.meet_singleton.trans hn⟩ hended hrest
  | behind values =>
    rw [takeAll_cons_of_ok (take_of_mark hended)]
    exact takeAll_of_ended ⟨h.awaiting, h.waiting⟩ rfl ho

/-! ## What was not met -/

/-- Other options have no part in the number of an option. -/
theorem numberOf_setNumber {environment : Environment} {o p : NumberOption} (h : p.id ≠ o.id)
    (n : UInt64) : numberOf environment (m.setNumber o n) p = numberOf environment m p := by
  simp only [numberOf, Matches.numbers_setNumber, if_neg h]

/-- Options can be filled in if each of them has a number, by induction on them. -/
theorem exists_fill {environment : Environment} {options : List NumberOption}
    (hnodup : (options.map NumberOption.id).Nodup)
    (h : ∀ o ∈ options, ∃ n, numberOf environment m o = .ok n) :
    ∃ found, fill environment m options = .ok found := by
  induction options generalizing m with
  | nil => exact ⟨m, rfl⟩
  | cons o options ih =>
    obtain ⟨⟨n, hn⟩, hmore⟩ := List.forall_mem_cons.1 h
    obtain ⟨hfirst, hnodup⟩ := List.nodup_cons.1 hnodup
    rw [fill, hn]
    refine ih hnodup fun p hp => ?_
    rw [numberOf_setNumber fun heq => hfirst (heq ▸ List.mem_map_of_mem hp)]
    exact hmore p hp

/-- **What is filled in** is the number of each option, and nothing else is changed, by induction on
the options. None of them undoes what was done for another, since no two have one identifier. -/
theorem of_fill {environment : Environment} {options : List NumberOption} {found : Matches}
    (hnodup : (options.map NumberOption.id).Nodup)
    (h : fill environment m options = .ok found) :
    found.counts = m.counts ∧ found.paths = m.paths ∧
      (∀ id ∉ options.map NumberOption.id, found.numbers id = m.numbers id) ∧
      ∀ o ∈ options, ∃ n, numberOf environment m o = .ok n ∧ found.numbers o.id = some n := by
  induction options generalizing m with
  | nil =>
    cases h
    exact ⟨rfl, rfl, fun _ _ => rfl, List.forall_mem_nil _⟩
  | cons o options ih =>
    obtain ⟨hfirst, hnodup⟩ := List.nodup_cons.1 hnodup
    rw [fill] at h
    cases hn : numberOf environment m o with
    | error e =>
      rw [hn] at h
      cases h
    | ok n =>
      rw [hn] at h
      obtain ⟨hcounts, hpaths, hothers, hnumbers⟩ := ih hnodup h
      refine ⟨hcounts, hpaths, fun id hid => ?_, List.forall_mem_cons.2 ⟨⟨n, hn, ?_⟩, ?_⟩⟩
      · rw [List.map_cons, List.mem_cons, not_or] at hid
        rw [hothers id hid.2, Matches.numbers_setNumber, if_neg hid.1]
      · rw [hothers o.id hfirst, Matches.numbers_setNumber, if_pos rfl]
      · intro p hp
        have hne : p.id ≠ o.id := fun heq => hfirst (heq ▸ List.mem_map_of_mem hp)
        exact numberOf_setNumber hne n ▸ hnumbers p hp

/-! ## Whole command lines -/

variable {environment : Environment} {found : Matches}

/-- What is left by the occurrences on a command line is what is concluded from. -/
theorem matcher_eq_conclude (h : c.Leaves arguments m) :
    matcher c environment arguments = conclude c environment m := by
  obtain ⟨os, hwrites, hos⟩ := h
  obtain ⟨q, hq, hcomes⟩ := takeAll_of_writes hwrites (r := start) ⟨rfl, rfl⟩ rfl hos
  simp only [matcher, hq, hcomes.settle]

/-- A conclusion is what is filled in. -/
theorem fill_of_conclude (h : conclude c environment m = .ok found) :
    fill environment m c.options = .ok found := by
  unfold conclude at h
  split at h
  · cases h
  · next filled hfill =>
    split at h
    · cases h
    · split at h
      · cases h
      · rw [hfill, h]

/-- There is a conclusion from all that is needed. -/
theorem exists_conclude (h : c.Complete environment m) :
    ∃ found, conclude c environment m = .ok found := by
  have hnumbers : ∀ o ∈ c.options, ∃ n, numberOf environment m o = .ok n := by
    intro o ho
    unfold numberOf
    split
    · exact ⟨_, rfl⟩
    · exact ⟨_, rfl⟩
    · next value hnone hvalue =>
      obtain ⟨n, hn⟩ := h.options o ho hnone value hvalue
      exact ⟨n, by rw [hn]⟩
  obtain ⟨found, hfill⟩ := exists_fill c.options_nodup hnumbers
  obtain ⟨hcounts, hpaths, -, -⟩ := of_fill c.options_nodup hfill
  have hconflict : inConflict c found = false := by
    refine Bool.eq_false_iff.2 fun hmet => ?_
    simp only [inConflict, hcounts, List.any_eq_true, Bool.and_eq_true, decide_eq_true_iff] at hmet
    obtain ⟨f, hf, hpos, id, hid, hpos'⟩ := hmet
    exact h.flags f hf id hid ⟨hpos, hpos'⟩
  have hmissing : (c.paths.required && (found.paths c.paths.id).isEmpty) = false := by
    rw [hpaths]
    cases hrequired : c.paths.required with
    | false => rfl
    | true => simpa using h.paths hrequired
  refine ⟨found, ?_⟩
  simp only [conclude, hfill, hconflict, hmissing, Bool.false_eq_true, if_false]

/-- What is found of an option is its number. -/
theorem numbers_of_conclude {o : NumberOption} {n : UInt64} (ho : o ∈ c.options)
    (h : conclude c environment m = .ok found) (hn : numberOf environment m o = .ok n) :
    found.numbers o.id = some n := by
  obtain ⟨-, -, -, hnumbers⟩ := of_fill c.options_nodup (fill_of_conclude h)
  obtain ⟨k, hk, hfound⟩ := hnumbers o ho
  rw [hfound, Except.ok.inj (hk.symm.trans hn)]

/-- **The matcher that reads argument by argument** does what is documented of a matcher. -/
theorem appliesLeftToRight (c : Command) : AppliesLeftToRight matcher c where
  accepts hleaves hcomplete := by
    rw [matcher_eq_conclude hleaves]
    exact exists_conclude hcomplete
  flags hleaves hfound f _ := by
    rw [matcher_eq_conclude hleaves] at hfound
    rw [(of_fill c.options_nodup (fill_of_conclude hfound)).1]
  paths hleaves hfound := by
    rw [matcher_eq_conclude hleaves] at hfound
    rw [(of_fill c.options_nodup (fill_of_conclude hfound)).2.1]
  given hleaves hfound o ho n hn := by
    rw [matcher_eq_conclude hleaves] at hfound
    exact numbers_of_conclude ho hfound (by rw [numberOf, hn])
  environment hleaves hfound o ho hnone value n hvalue hread := by
    rw [matcher_eq_conclude hleaves] at hfound
    exact numbers_of_conclude ho hfound (by simp only [numberOf, hnone, hvalue, hread])
  default hleaves hfound o ho hnone hvalue := by
    rw [matcher_eq_conclude hleaves] at hfound
    exact numbers_of_conclude ho hfound (by simp only [numberOf, hnone, hvalue])

end Reading

end LineLang
