import Mathlib.Algebra.GroupWithZero.Nat
import LineLang.Proofs.Check
import LineLang.Proofs.Matching
import LineLang.Proofs.Printing
import LineLang.Proofs.Widening

/-!
# Command lines in any arrangement

The same wishes can be put on a command line in many ways: options and files may be mixed, flags
that are counted may stand alone or in clusters, the size may be attached to its option or follow
it, and the last files may stand behind the mark that ends the options. With any matcher that does
what is documented, all of them mean the same.

Models `Args`, `parser`, `LoggingArgs` and `level_filter` on such command lines. Of the matcher
nothing is used but that it applies the declared arguments from left to right.

* `Part`, `Arrangement`: a command line by its parts.
* `Wishes`, `Arrangement.Expresses`: what is wished for, and the command lines that say so.
* `SizeFrom`: which of three sources the size is taken from.
* `Shows`, `Fits`: what is found after some parts, and after all.

Results:
* `expresses_arrangement`: whatever is wished for can be expressed.
* `writes_arguments`: the arguments of a command line write its occurrences.
* `Shows.step`, `shows_parts`: what is found after one part more, and after a row of parts.
* `parseWith_of_expresses`: what a command line in any arrangement asks for.
-/

namespace LineLang

open Text.Decimal (readWord? value dropSign)

/-! ## Numbers as they may be written -/

namespace Text.Decimal

/-- **A text writes a number** of 64 bits: it is a row of digits that denotes the number, with any
zeros in front of them and at most one `+` in front of all. -/
def Writes (t : Text) (n : UInt64) : Prop :=
  Category.Row .digit .digit (dropSign t) ∧ value (dropSign t) = n.toNat

theorem readWord?_of_writes {t : Text} {n : UInt64} (h : Writes t n) : readWord? t = some n := by
  rw [Declaration.readWord?_of_row h.1, h.2, if_pos n.toNat_lt_size, UInt64.ofNat_toNat]

theorem writes_ofNat (n : UInt64) : Writes (ofNat n.toNat) n := by
  have hrow := row_ofNat n.toNat
  have hsign : dropSign (ofNat n.toNat) = ofNat n.toNat := by
    obtain ⟨c, u, ht, hc, -⟩ := hrow
    rw [ht]
    unfold dropSign
    split
    · next hplus =>
      obtain ⟨rfl, -⟩ := List.cons.inj hplus
      exact absurd hc (by decide)
    · rfl
  exact ⟨hsign.symm ▸ hrow, hsign.symm ▸ value_ofNat n.toNat⟩

end Text.Decimal

namespace Arguments

/-! ## Command lines by their parts -/

/-- A flag that is counted asks for more logging or for less. -/
inductive Volume where
  | more
  | less
  deriving DecidableEq

/-- The letter of a counted flag. -/
def Volume.letter : Volume → Char
  | more => 'v'
  | less => 'q'

/-- A counted flag as it is declared. -/
def Volume.flag : Volume → Flag
  | more => .verbose
  | less => .quiet

/-- The part of a command line whose arguments stay together. -/
inductive Part where
  | file (name : Text)
  /-- An argument with a counted flag, and as many more of the same flag. -/
  | cluster (others : Nat)
  | nestedScopes
  /-- The size option with its value: attached to it by an equals sign, or in the next argument. -/
  | size (attached : Bool) (value : Text)
  deriving DecidableEq

namespace Part

/-- The arguments of a part, where flags of one kind are counted. -/
def arguments (volume : Volume) : Part → List Text
  | file name => [name]
  | cluster others => ['-' :: List.replicate (others + 1) volume.letter]
  | nestedScopes => ["--nested-scopes".toList]
  | size true value => ["--max-array-size=".toList ++ value]
  | size false value => ["--max-array-size".toList, value]

/-- The occurrences that a part has of the declared arguments. -/
def occurrences (volume : Volume) : Part → List Occurrence
  | file name => [.path name]
  | cluster others => (List.replicate (others + 1) volume.flag).map .flag
  | nestedScopes => [.flag .nestedScopes]
  | size _ value => [.option .maxArraySize value]

/-- The file that a part names. -/
def file? : Part → Option Text
  | file name => some name
  | _ => none

/-- How many counted flags a part has. -/
def flags : Part → Nat
  | cluster others => others + 1
  | _ => 0

/-- The value of the size option, if that is the part. -/
def value? : Part → Option Text
  | size _ value => some value
  | _ => none

end Part

/-- A command line: its parts, and the files behind the mark that ends the options, if it is
there. -/
structure Arrangement where
  parts : List Part
  behind : Option (List Text)

/-- The arguments of a command line. -/
def Arrangement.arguments (volume : Volume) (a : Arrangement) : List Text :=
  a.parts.flatMap (·.arguments volume) ++
    match a.behind with
    | none => []
    | some names => "--".toList :: names

/-- The occurrences on a command line. -/
def Arrangement.occurrences (volume : Volume) (a : Arrangement) : List Occurrence :=
  a.parts.flatMap (·.occurrences volume) ++ (a.behind.getD []).map .path

/-- What is wished for: files, a flag that is counted and how many times it is given, and the two
options. -/
structure Wishes where
  files : List Text
  volume : Volume
  times : Nat
  nestedScopes : Bool
  size : Option UInt64

/-- The level of logging that is wished for. One wish for less leaves out warnings. -/
def Wishes.level (w : Wishes) : LogLevel :=
  match w.volume, w.times with
  | _, 0 => .info
  | .more, 1 => .debug
  | .more, _ => .trace
  | .less, 1 => .error
  | .less, _ => .off

/-- **A command line expresses wishes**: it names the files in their order, gives the counted flag
as many times as wished, and each of the options once or not at all. Names of files are not empty,
and begin with a dash only behind the mark, or are a lone dash. -/
structure Arrangement.Expresses (a : Arrangement) (w : Wishes) : Prop where
  files : a.parts.filterMap Part.file? ++ a.behind.getD [] = w.files
  named : ∀ name ∈ w.files, name ≠ []
  plain : ∀ name ∈ a.parts.filterMap Part.file?, Plain name
  times : (a.parts.map Part.flags).sum = w.times
  nestedScopes : a.parts.count .nestedScopes = if w.nestedScopes then 1 else 0
  size : List.Forall₂ Text.Decimal.Writes (a.parts.filterMap Part.value?) w.size.toList

/-- **The source of the size**: the option if it is given, whatever the environment holds, else the
environment, else 256. -/
inductive SizeFrom : Option UInt64 → Option Text → UInt64 → Prop
  | option (n : UInt64) (environment : Option Text) : SizeFrom (some n) environment n
  | environment {t : Text} {n : UInt64} (h : Text.Decimal.Writes t n) :
      SizeFrom none (some t) n
  | default : SizeFrom none none 256

/-- The flags one by one, then the options, then all files behind the mark. -/
def Wishes.arrangement (w : Wishes) : Arrangement where
  parts := List.replicate w.times (.cluster 0) ++
    ((if w.nestedScopes then [.nestedScopes] else []) ++
      w.size.toList.map fun n => .size true (Text.Decimal.ofNat n.toNat))
  behind := some w.files

/-- **Whatever is wished for can be expressed**, whatever the files are called. -/
theorem Wishes.expresses_arrangement {w : Wishes} (h : ∀ name ∈ w.files, name ≠ []) :
    w.arrangement.Expresses w := by
  obtain ⟨files, volume, times, nestedScopes, size⟩ := w
  have hnone : (arrangement ⟨files, volume, times, nestedScopes, size⟩).parts.filterMap
      Part.file? = [] := by
    cases nestedScopes <;> simp [arrangement, List.filterMap_replicate, Part.file?]
  exact {
    files := by rw [hnone]; rfl
    named := h
    plain := by rw [hnone]; exact List.forall_mem_nil _
    times := by cases nestedScopes <;> cases size <;> simp [arrangement, Part.flags]
    nestedScopes := by
      cases nestedScopes <;> cases size <;> simp [arrangement, List.count_replicate]
    size := by
      cases nestedScopes <;> cases size <;>
        simp [arrangement, List.filterMap_replicate, List.filterMap_cons, Part.value?,
          Text.Decimal.writes_ofNat] }

/-! ## What is written -/

variable {environment : Environment} {name : Text} {names : List Text} {volume : Volume}
  {m : Matches} {ps : List Part} {p : Part} {a : Arrangement} {w : Wishes} {n : UInt64}

/-- A number is no option. -/
theorem plain_of_writes {t : Text} (h : Text.Decimal.Writes t n) : Plain t := by
  refine Or.inr fun hdash => ?_
  obtain ⟨u, rfl⟩ := List.head?_eq_some_iff.1 hdash
  obtain ⟨⟨c, rest, hsign, hc, -⟩, -⟩ := h
  obtain ⟨rfl, -⟩ := List.cons.inj hsign
  exact absurd hc (by decide)

/-- A row of parts in which files have names that are no options, and what may be given once is not
given twice. -/
structure Orderly (ps : List Part) : Prop where
  named : ∀ name ∈ ps.filterMap Part.file?, name ≠ [] ∧ Plain name
  scopes : ps.count .nestedScopes ≤ 1
  sizes : (ps.filterMap Part.value?).length ≤ 1
  numbers : ∀ value ∈ ps.filterMap Part.value?, ∃ n, Text.Decimal.Writes value n

theorem forall₂_letter (volume : Volume) (count : Nat) :
    List.Forall₂ (fun letter f => command.shortFlag? letter = some f)
      (List.replicate count volume.letter) (List.replicate count volume.flag) := by
  induction count with
  | zero => exact .nil
  | succ count ih => exact .cons (by cases volume <;> rfl) ih

/-- The arguments of a part write its occurrences, in front of others. -/
theorem writes_part {os : List Occurrence} {arguments : List Text} (hp : Orderly [p])
    (h : command.Writes os arguments) (volume : Volume) :
    command.Writes (p.occurrences volume ++ os) (p.arguments volume ++ arguments) := by
  cases p with
  | file name => exact .path (hp.named name (by simp [Part.file?])).2 h
  | cluster others => exact .cluster (forall₂_letter volume _) (List.cons_ne_nil _ _) h
  | nestedScopes =>
    let word : LongName := ⟨"nested-scopes".toList, by decide, by decide⟩
    have hflag : command.longFlag? word.word = some .nestedScopes := rfl
    exact .long hflag rfl h
  | size attached value =>
    cases attached with
    | true => exact .attached (o := .maxArraySize) rfl h
    | false =>
      obtain ⟨n, hn⟩ := hp.numbers value (by simp [Part.value?])
      exact .detached (o := .maxArraySize) rfl (plain_of_writes hn) h

theorem Orderly.of_append {qs : List Part} (h : Orderly (ps ++ qs)) : Orderly ps ∧ Orderly qs := by
  obtain ⟨hnamed, hscopes, hsizes, hnumbers⟩ := h
  rw [List.filterMap_append, List.forall_mem_append] at hnamed hnumbers
  rw [List.count_append] at hscopes
  rw [List.filterMap_append, List.length_append] at hsizes
  exact ⟨⟨hnamed.1, by omega, by omega, hnumbers.1⟩, ⟨hnamed.2, by omega, by omega, hnumbers.2⟩⟩

/-- **The arguments of a row of parts write their occurrences**, by induction on the row. -/
theorem writes_parts {os : List Occurrence} {arguments : List Text} (hps : Orderly ps)
    (h : command.Writes os arguments) (volume : Volume) :
    command.Writes (ps.flatMap (·.occurrences volume) ++ os)
      (ps.flatMap (·.arguments volume) ++ arguments) := by
  induction ps with
  | nil => exact h
  | cons p ps ih =>
    obtain ⟨hp, hmore⟩ := Orderly.of_append (List.singleton_append ▸ hps : Orderly ([p] ++ ps))
    rw [List.flatMap_cons, List.flatMap_cons, List.append_assoc, List.append_assoc]
    exact writes_part hp (ih hmore) volume

namespace Arrangement.Expresses

/-- The size option is given with a number that is wished for, or not at all. -/
theorem value_cases (h : a.Expresses w) :
    (a.parts.filterMap Part.value? = [] ∧ w.size = none) ∨
      ∃ value n, a.parts.filterMap Part.value? = [value] ∧ w.size = some n ∧
        Text.Decimal.Writes value n := by
  have hsize := h.size
  cases hn : w.size with
  | none =>
    rw [hn, Option.toList_none, List.forall₂_nil_right_iff] at hsize
    exact Or.inl ⟨hsize, rfl⟩
  | some n =>
    rw [hn, Option.toList_some, List.forall₂_cons_right_iff] at hsize
    obtain ⟨value, rest, hvalue, hrest, hvalues⟩ := hsize
    obtain rfl := List.forall₂_nil_right_iff.1 hrest
    exact Or.inr ⟨value, n, hvalues, rfl, hvalue⟩

theorem orderly (h : a.Expresses w) : Orderly a.parts where
  named name hname :=
    ⟨h.named name (h.files ▸ List.mem_append_left _ hname), h.plain name hname⟩
  scopes := by
    rw [h.nestedScopes]
    split <;> omega
  sizes := by
    rcases h.value_cases with ⟨hnone, -⟩ | ⟨value, n, hvalue, -, -⟩
    · simp [hnone]
    · simp [hvalue]
  numbers := by
    rcases h.value_cases with ⟨hnone, -⟩ | ⟨value, n, hvalue, -, hwrites⟩
    · simp [hnone]
    · simpa [hvalue] using ⟨n, hwrites⟩

/-- **The arguments of a command line write its occurrences.** -/
theorem writes_arguments (h : a.Expresses w) (volume : Volume) :
    command.Writes (a.occurrences volume) (a.arguments volume) := by
  refine writes_parts h.orderly ?_ volume
  cases a.behind with
  | none => exact .nil
  | some names => exact .behind names

end Arrangement.Expresses

/-! ## What is found -/

/-- **What is found after some parts**: the files in order, how often each flag was met, and the
size that was given. -/
structure Shows (m : Matches) (volume : Volume) (ps : List Part) : Prop where
  files : m.paths PathsArgument.files.id = ps.filterMap Part.file?
  scopes : m.counts Flag.nestedScopes.id = ps.count .nestedScopes
  size : m.numbers NumberOption.maxArraySize.id =
    (ps.filterMap Part.value?).head?.bind readWord?
  flags : ∀ v : Volume, m.counts v.flag.id =
    if volume = v then min (ps.map Part.flags).sum 255 else 0

/-- **A counted flag that is met several times in a row**, by induction on how often. -/
theorem meet_replicate {f : Flag} (hf : f.action = .count) (others : Nat) :
    ((List.replicate (others + 1) f).map .flag).foldlM (Matches.meet command) m =
      .ok (m.setCount f (min (m.counts f.id + (others + 1)) 255)) := by
  have hraise : ∀ m : Matches, m.meet command (.flag f) =
      .ok (m.setCount f (min (m.counts f.id + 1) 255)) := fun m => by
    simp only [Matches.meet, Matches.raise, hf]
  induction others generalizing m with
  | zero => exact Matches.meet_singleton.trans (hraise m)
  | succ others ih =>
    have hmin : min (min (m.counts f.id + 1) 255 + (others + 1)) 255 =
        min (m.counts f.id + (others + 1 + 1)) 255 := by omega
    rw [List.replicate_succ, List.map_cons]
    refine Matches.meet_cons_eq_ok.2 ⟨_, hraise m, ?_⟩
    rw [ih, Matches.setCount_setCount, Matches.counts_setCount, if_pos rfl, hmin]

theorem Volume.id_eq_iff (v volume : Volume) : v.flag.id = volume.flag.id ↔ volume = v := by
  cases v <;> cases volume <;> decide

theorem Volume.id_ne (volume : Volume) : volume.flag.id ≠ Flag.nestedScopes.id := by
  cases volume <;> decide

/-- A path with a name is added behind the others. -/
theorem meet_path (hname : name ≠ []) :
    m.meet command (.path name) = .ok (m.addPath .files name) := by
  have hempty : name.isEmpty = false := by simpa using hname
  simp only [Matches.meet, Matches.append, hempty]
  rfl

theorem Shows.addFile (h : Shows m volume ps) (name : Text) :
    Shows (m.addPath .files name) volume (ps ++ [.file name]) where
  files := by simp [h.files, Part.file?]
  scopes := by simp [h.scopes]
  size := by simp [h.size, Part.value?]
  flags v := by simp [h.flags v, Part.flags]

theorem Shows.addCluster (h : Shows m volume ps) (others : Nat) :
    Shows (m.setCount volume.flag (min (m.counts volume.flag.id + (others + 1)) 255)) volume
      (ps ++ [.cluster others]) where
  files := by simp [h.files, Part.file?]
  scopes := by simp [h.scopes, volume.id_ne.symm]
  size := by simp [h.size, Part.value?]
  flags v := by
    have hsum : ((ps ++ [Part.cluster others]).map Part.flags).sum =
        (ps.map Part.flags).sum + (others + 1) := by simp [Part.flags]
    simp only [Matches.counts_setCount, v.id_eq_iff volume, h.flags, if_true, hsum]
    split <;> omega

theorem Shows.addScopes (h : Shows m volume ps) (hfirst : ps.count .nestedScopes = 0) :
    Shows (m.setCount .nestedScopes 1) volume (ps ++ [.nestedScopes]) where
  files := by simp [h.files, Part.file?]
  scopes := by
    rw [Matches.counts_setCount, if_pos rfl, List.count_append, List.count_singleton_self, hfirst]
  size := by simp [h.size, Part.value?]
  flags v := by simp [h.flags v, v.id_ne, Part.flags]

theorem Shows.addSize {attached : Bool} {value : Text} (h : Shows m volume ps)
    (hfirst : ps.filterMap Part.value? = []) (hread : readWord? value = some n) :
    Shows (m.setNumber .maxArraySize n) volume (ps ++ [.size attached value]) where
  files := by simp [h.files, Part.file?]
  scopes := by simp [h.scopes]
  size := by simp [hfirst, hread, Part.value?]
  flags v := by simp [h.flags v, Part.flags]

/-- **What one part more changes** in what is found: its occurrences are met, and no action of a
declared argument refuses them. -/
theorem Shows.step (h : Shows m volume ps) (hps : Orderly (ps ++ [p])) :
    ∃ n, (p.occurrences volume).foldlM (Matches.meet command) m = .ok n ∧
      Shows n volume (ps ++ [p]) := by
  cases p with
  | file name =>
    have hname : name ≠ [] := (hps.named name (by simp [Part.file?])).1
    exact ⟨_, Matches.meet_singleton.trans (meet_path hname), h.addFile name⟩
  | cluster others =>
    exact ⟨_, meet_replicate (by cases volume <;> rfl) others, h.addCluster others⟩
  | nestedScopes =>
    have hscopes := hps.scopes
    rw [List.count_append, List.count_singleton_self] at hscopes
    have hfirst : ps.count .nestedScopes = 0 := by omega
    refine ⟨_, Matches.meet_singleton.trans ?_, h.addScopes hfirst⟩
    have haction : Flag.nestedScopes.action = .set := rfl
    simp only [Matches.meet, Matches.raise, haction, h.scopes, hfirst, Nat.lt_irrefl, if_false]
  | size attached value =>
    have hsizes := hps.sizes
    rw [List.filterMap_append, List.length_append] at hsizes
    have hone : ([Part.size attached value].filterMap Part.value?).length = 1 := rfl
    have hfirst : ps.filterMap Part.value? = [] := List.length_eq_zero_iff.1 (by omega)
    obtain ⟨n, hn⟩ := hps.numbers value (by simp [Part.value?])
    have hread := Text.Decimal.readWord?_of_writes hn
    refine ⟨_, Matches.meet_singleton.trans ?_, h.addSize hfirst hread⟩
    have hnone : m.numbers NumberOption.maxArraySize.id = none := h.size.trans (by rw [hfirst]; rfl)
    simp only [Matches.meet, Matches.store, hnone, hread]

/-- **What is found after a row of parts**, by induction on the row, with the last part taken
off. -/
theorem shows_parts (hps : Orderly ps) (volume : Volume) :
    ∃ m, (ps.flatMap (·.occurrences volume)).foldlM (Matches.meet command) Matches.empty = .ok m ∧
      Shows m volume ps := by
  induction ps using List.reverseRecOn with
  | nil => exact ⟨.empty, rfl, ⟨rfl, rfl, rfl, fun v => by simp [Matches.empty]⟩⟩
  | append_singleton ps p ih =>
    obtain ⟨m, hm, hshows⟩ := ih hps.of_append.1
    obtain ⟨n, hn, hstep⟩ := hshows.step hps
    refine ⟨n, ?_, hstep⟩
    rw [List.flatMap_append, List.flatMap_singleton]
    exact Matches.meet_append_eq_ok.2 ⟨m, hm, hn⟩

/-- **Paths in a row** are added in their order, by induction on them. -/
theorem meet_paths (hnames : ∀ name ∈ names, name ≠ []) :
    ∃ n, (names.map .path).foldlM (Matches.meet command) m = .ok n ∧
      n.paths PathsArgument.files.id = m.paths PathsArgument.files.id ++ names ∧
        n.counts = m.counts ∧ n.numbers = m.numbers := by
  induction names generalizing m with
  | nil => exact ⟨m, rfl, (List.append_nil _).symm, rfl, rfl⟩
  | cons name names ih =>
    rw [List.forall_mem_cons] at hnames
    obtain ⟨n, hn, hpaths, hcounts, hnumbers⟩ := ih (m := m.addPath .files name) hnames.2
    refine ⟨n, Matches.meet_cons_eq_ok.2 ⟨_, meet_path hnames.1, hn⟩, ?_, hcounts, hnumbers⟩
    simp [hpaths]

/-! ## What is asked for -/

/-- How often a counted flag is seen: the count stops at 255. -/
def Wishes.seen (w : Wishes) (volume : Volume) : Nat :=
  if w.volume = volume then min w.times 255 else 0

/-- **What is found fits wishes**, before an option that is not given has its number. -/
structure Fits (m : Matches) (w : Wishes) : Prop where
  files : m.paths PathsArgument.files.id = w.files
  scopes : m.counts Flag.nestedScopes.id = if w.nestedScopes then 1 else 0
  size : m.numbers NumberOption.maxArraySize.id = w.size
  flags : ∀ v : Volume, m.counts v.flag.id = w.seen v

/-- **What is found on a command line fits** what it expresses. -/
theorem Arrangement.Expresses.fits (h : a.Expresses w) :
    ∃ m, (a.occurrences w.volume).foldlM (Matches.meet command) Matches.empty = .ok m ∧
      Fits m w := by
  obtain ⟨m, hm, hshows⟩ := shows_parts h.orderly w.volume
  have hbehind : ∀ name ∈ a.behind.getD [], name ≠ [] := fun name hname =>
    h.named name (h.files ▸ List.mem_append_right _ hname)
  obtain ⟨n, hn, hpaths, hcounts, hnumbers⟩ := meet_paths (m := m) hbehind
  refine ⟨n, Matches.meet_append_eq_ok.2 ⟨m, hm, hn⟩, ?_⟩
  exact {
    files := by rw [hpaths, hshows.files, h.files]
    scopes := by rw [hcounts, hshows.scopes, h.nestedScopes]
    size := by
      rw [hnumbers, hshows.size]
      rcases h.value_cases with ⟨hnone, hw⟩ | ⟨value, k, hvalue, hw, hwrites⟩
      · rw [hnone, hw]
        rfl
      · rw [hvalue, hw]
        exact Text.Decimal.readWord?_of_writes hwrites
    flags := fun v => by rw [hcounts, hshows.flags, h.times, Wishes.seen] }

/-- Only one of the two counted flags is ever seen. -/
theorem Wishes.not_seen_both (w : Wishes) : ¬(0 < w.seen .more ∧ 0 < w.seen .less) := by
  cases hw : w.volume <;> simp [seen, hw]

/-- **What fits wishes is all that is needed**, if there are files and the size has a source. -/
theorem Fits.complete (h : Fits m w) (hfiles : w.files ≠ [])
    (hsize : SizeFrom w.size (environment "BFTC_MAX_ARRAY_SIZE".toList) n) :
    command.Complete environment m where
  flags f hf id hid := by
    have hmore : m.counts Flag.verbose.id = w.seen .more := h.flags .more
    have hless : m.counts Flag.quiet.id = w.seen .less := h.flags .less
    simp only [command, List.mem_cons, List.not_mem_nil, or_false] at hf
    rcases hf with rfl | rfl | rfl | rfl | rfl
    · obtain rfl := List.mem_singleton.1 hid
      exact fun hmet => w.not_seen_both ⟨hmore ▸ hmet.1, hless ▸ hmet.2⟩
    · obtain rfl := List.mem_singleton.1 hid
      exact fun hmet => w.not_seen_both ⟨hmore ▸ hmet.2, hless ▸ hmet.1⟩
    · cases hid
    · cases hid
    · cases hid
  paths _ := by
    rw [show command.paths = .files from rfl, h.files]
    exact hfiles
  options o ho hnone value hvalue := by
    obtain rfl := List.mem_singleton.1 ho
    generalize hw : w.size = size at hsize
    generalize he : environment "BFTC_MAX_ARRAY_SIZE".toList = held at hsize
    cases hsize with
    | option => cases hnone.symm.trans (h.size.trans hw)
    | @environment t n hwrites =>
      obtain rfl := Option.some.inj (he.symm.trans hvalue)
      exact ⟨n, Text.Decimal.readWord?_of_writes hwrites⟩
    | default => cases he.symm.trans hvalue

/-- **The size that a matcher finds** is that of its first source. -/
theorem Fits.size_found {matcher : Matcher} {arguments : List Text} {found : Matches}
    (hmatcher : AppliesLeftToRight matcher command) (hleaves : command.Leaves arguments m)
    (hfound : matcher command environment arguments = .ok found) (h : Fits m w)
    (hsize : SizeFrom w.size (environment "BFTC_MAX_ARRAY_SIZE".toList) n) :
    found.numbers NumberOption.maxArraySize.id = some n := by
  have hoption : NumberOption.maxArraySize ∈ command.options := List.mem_singleton_self _
  generalize hw : w.size = size at hsize
  generalize he : environment "BFTC_MAX_ARRAY_SIZE".toList = held at hsize
  have hgiven := h.size.trans hw
  cases hsize with
  | option => exact hmatcher.given hleaves hfound _ hoption n hgiven
  | environment hwrites =>
    exact hmatcher.environment hleaves hfound _ hoption hgiven _ n he
      (Text.Decimal.readWord?_of_writes hwrites)
  | default => exact hmatcher.default hleaves hfound _ hoption hgiven he

/-- The count may stop: more than two wishes make no difference to the level. -/
theorem Wishes.ofCounts_seen (w : Wishes) :
    LogLevel.ofCounts (w.seen .more) (w.seen .less) = w.level := by
  obtain ⟨files, volume, times, nestedScopes, size⟩ := w
  rcases times with - | - | k
  · cases volume <;> rfl
  · cases volume <;> rfl
  · have htwo : 2 ≤ min (k + 2) 255 := by omega
    cases volume with
    | more => exact if_pos htwo
    | less =>
      have hlevel : LogLevel.ofCounts 0 (min (k + 2) 255) = .off := by
        unfold LogLevel.ofCounts
        rw [if_neg (by omega), if_neg (by omega), if_neg (by omega), if_neg (by omega)]
      exact hlevel

/-- **What is asked for meets wishes**, with a size that was chosen for them. -/
structure Meets (b : Arguments) (w : Wishes) (size : UInt64) : Prop where
  files : b.files = w.files
  nestedScopes : b.nestedScopes = w.nestedScopes
  maxArraySize : b.maxArraySize = size
  verbose : b.verbose = w.seen .more
  quiet : b.quiet = w.seen .less
  level : b.level = w.level
  /-- No settings have arrays without any cell. -/
  noSettings : size = 0 → b.settings = .error (.noSize 1 0)
  settings : size ≠ 0 → ∃ settings, b.settings = .ok settings ∧
    settings.collapses = !w.nestedScopes ∧ settings.least = 1 ∧ settings.most = size

/-- The settings that are asked for have the choices that are asked for, if there are any. -/
theorem settings_of_ne_zero {b : Arguments} (h : b.maxArraySize ≠ 0) :
    ∃ settings, b.settings = .ok settings ∧ settings.collapses = !b.nestedScopes ∧
      settings.least = 1 ∧ settings.most = b.maxArraySize := by
  cases hsettings : b.settings with
  | ok settings => exact ⟨settings, rfl, Settings.eq_of_build hsettings⟩
  | error fault => exact absurd (settings_eq_error_iff.1 hsettings).1 h

theorem meets_wishes (w : Wishes) (size : UInt64) :
    Meets ⟨w.files, w.nestedScopes, size, w.seen .more, w.seen .less⟩ w size where
  files := rfl
  nestedScopes := rfl
  maxArraySize := rfl
  verbose := rfl
  quiet := rfl
  level := w.ofCounts_seen
  noSettings hzero := settings_eq_error_iff.2 ⟨hzero, rfl⟩
  settings hsize := settings_of_ne_zero hsize

/-- **What a command line asks for in any arrangement**, with any matcher that applies the declared
arguments from left to right: all that is wished for. The size is taken from the first of its three
sources that there is. -/
theorem parseWith_of_expresses {matcher : Matcher} (hmatcher : AppliesLeftToRight matcher command)
    (h : a.Expresses w) (hfiles : w.files ≠ [])
    (hsize : SizeFrom w.size (environment "BFTC_MAX_ARRAY_SIZE".toList) n) :
    ∃ b, parseWith matcher (a.arguments w.volume) environment = .ok b ∧ b.Meets w n := by
  obtain ⟨m, hm, hfits⟩ := h.fits
  have hleaves : command.Leaves (a.arguments w.volume) m :=
    ⟨a.occurrences w.volume, h.writes_arguments w.volume, hm⟩
  obtain ⟨found, hfound⟩ := hmatcher.accepts hleaves (hfits.complete hfiles hsize)
  have hnumber := hfits.size_found hmatcher hleaves hfound hsize
  have hpaths : found.paths PathsArgument.files.id = w.files :=
    (hmatcher.paths hleaves hfound).trans hfits.files
  have hflags := hmatcher.flags hleaves hfound
  have hmore : found.counts Flag.verbose.id = w.seen .more :=
    (hflags .verbose (by simp [command])).trans (hfits.flags .more)
  have hless : found.counts Flag.quiet.id = w.seen .less :=
    (hflags .quiet (by simp [command])).trans (hfits.flags .less)
  have hscopes : (found.counts Flag.nestedScopes.id != 0) = w.nestedScopes := by
    rw [hflags .nestedScopes (by simp [command]), hfits.scopes]
    cases w.nestedScopes <;> rfl
  refine ⟨_, ?_, meets_wishes w n⟩
  simp only [parseWith, hfound, ofMatches, hnumber, hpaths, hscopes, hmore, hless]

/-- Flags apart and together, a lone dash, a size in an argument of its own, an environment that
holds no number, and behind the mark names that are options elsewhere, with the matcher that reads
argument by argument. -/
theorem parseWith_of_expresses_mixed :
    let arguments := ["-", "-vv", "--max-array-size", "+08", "x", "-v", "--nested-scopes", "y",
      "--", "-q", "--"].map String.toList
    let w : Wishes := ⟨["-", "x", "y", "-q", "--"].map String.toList, .more, 3, true, some 8⟩
    let environment : Environment := fun _ => some "many".toList
    ∃ b, parseWith Reading.matcher arguments environment = .ok b ∧ b.Meets w 8 ∧
      b.level = .trace := by
  intro arguments w environment
  let a : Arrangement :=
    ⟨[.file ['-'], .cluster 1, .size false "+08".toList, .file ['x'], .cluster 0, .nestedScopes,
      .file ['y']], some [['-', 'q'], ['-', '-']]⟩
  have hsize : Text.Decimal.Writes "+08".toList 8 :=
    ⟨⟨'0', ['8'], rfl, by decide, List.forall_mem_singleton.2 (by decide)⟩, rfl⟩
  have h : a.Expresses w :=
    { files := rfl
      named := by decide
      plain := by decide
      times := rfl
      nestedScopes := by decide
      size := .cons hsize .nil }
  have hsource : SizeFrom w.size (environment "BFTC_MAX_ARRAY_SIZE".toList) 8 :=
    SizeFrom.option 8 (some "many".toList)
  obtain ⟨b, hb, hmeets⟩ :=
    parseWith_of_expresses (Reading.appliesLeftToRight command) h (by decide) hsource
  exact ⟨b, hb, hmeets, hmeets.level⟩

end Arguments

end LineLang
