import Mathlib.Data.List.TakeWhile
import LineLang.CommandLine.Check

/-!
# Runs over files

What a run over files leaves, said file by file. The loop meets two kinds of failure: a bad program
is counted and the run goes on, a file that cannot be read ends the run at once and what was counted
is forgotten. So a run is settled by the files before the first that cannot be read, each of which
adds to the output or to the diagnostics on its own, and by what becomes of that file.

About the loop of `main`, and `Args.parser`.

* `Check.readCount`: how many files are read.
* `Check.printed`, `Check.complaint`, `Check.isBad`: what one file adds.
* `Check.Leaves`: what a run leaves.

Results:
* `rest_append`: a run over files that can be read, and then over others.
* `leaves_files`: what a run over any files leaves.
* `respond_of_read`: what every command line that is accepted leads to.
-/

namespace LineLang

/-- An outcome after something else was printed and written. -/
def Outcome.after (printed written : Text) (o : Outcome) : Outcome :=
  ⟨printed ++ o.output, written ++ o.diagnostics, o.report⟩

theorem Outcome.after_after (p w p' w' : Text) (o : Outcome) :
    (o.after p' w').after p w = o.after (p ++ p') (w ++ w') := by
  simp only [after, List.append_assoc]

namespace Check

/-! ## The share of a file -/

/-- What a file adds to the output: a good program its path and its symbols, any other nothing. -/
def printed (settings : Settings) (path : Text) : Except FileFault Text → Text
  | .error _ => []
  | .ok source =>
    match Program.parse settings source with
    | .ok t => path ++ ": ".toList ++ t.render ++ ['\n']
    | .error _ => []

/-- What a file adds to the diagnostics: a bad program its error, any other nothing. -/
def complaint (settings : Settings) (path : Text) : Except FileFault Text → Text
  | .error _ => []
  | .ok source =>
    match Program.parse settings source with
    | .ok _ => []
    | .error e => errorMark ++ e.render source (some path)

/-- Whether a file holds a bad program. -/
def isBad (settings : Settings) : Except FileFault Text → Bool
  | .error _ => false
  | .ok source => !(Program.parse settings source).isOk

variable {settings : Settings} {content : Text → Except FileFault Text} {path source : Text}
  {paths more : List Text}

/-- A run goes on after a file that can be read. -/
theorem rest_cons_of_ok (h : content path = .ok source) (total failed : Nat) :
    rest settings content total failed (path :: paths) =
      (rest settings content total (failed + if isBad settings (content path) then 1 else 0)
        paths).after (printed settings path (content path))
          (complaint settings path (content path)) := by
  rw [rest, h]
  cases hparse : Program.parse settings source with
  | ok t =>
    simp only [isBad, printed, complaint, hparse]
    rfl
  | error e =>
    simp only [isBad, printed, complaint, hparse]
    rfl

/-- A run ends at a file that cannot be read, whatever failed before it. -/
theorem rest_cons_of_error {fault : FileFault} (h : content path = .error fault)
    (total failed : Nat) :
    rest settings content total failed (path :: paths) = .ofReport (readReport path fault) := by
  rw [rest, h]

/-! ## Runs -/

/-- How many of some files hold bad programs. -/
def badCount (settings : Settings) (content : Text → Except FileFault Text)
    (paths : List Text) : Nat :=
  paths.countP fun path => isBad settings (content path)

/-- **A run over files that can be read, and then over others**: each of the first adds its share,
and of them nothing but the number of bad programs matters to the rest of the run. -/
theorem rest_append (h : ∀ path ∈ paths, ∃ source, content path = .ok source)
    (total failed : Nat) :
    rest settings content total failed (paths ++ more) =
      (rest settings content total (failed + badCount settings content paths) more).after
        (paths.flatMap fun path => printed settings path (content path))
        (paths.flatMap fun path => complaint settings path (content path)) := by
  induction paths generalizing failed with
  | nil => rfl
  | cons path paths ih =>
    obtain ⟨⟨source, hsource⟩, hrest⟩ := List.forall_mem_cons.1 h
    rw [List.cons_append, rest_cons_of_ok hsource, ih hrest, Outcome.after_after,
      List.flatMap_cons, List.flatMap_cons, badCount, badCount, List.countP_cons, Nat.add_assoc,
      Nat.add_comm (List.countP _ _)]

/-! ## What a run leaves -/

/-- How many files are read: those before the first that cannot be. -/
def readCount (content : Text → Except FileFault Text) (paths : List Text) : Nat :=
  paths.findIdx fun path => !(content path).isOk

theorem exists_source_of_mem_take (h : path ∈ paths.take (readCount content paths)) :
    ∃ source, content path = .ok source := by
  rw [readCount, ← List.takeWhile_eq_take_findIdx_not] at h
  have hok := List.mem_takeWhile_imp h
  cases hcontent : content path with
  | ok source => exact ⟨source, rfl⟩
  | error fault =>
    rw [hcontent] at hok
    cases hok

/-- The file at which a run ends cannot be read. -/
theorem exists_fault_of_getElem? (h : paths[readCount content paths]? = some path) :
    ∃ fault, content path = .error fault := by
  obtain ⟨hlt, rfl⟩ := List.getElem?_eq_some_iff.1 h
  have hunread : (!(content paths[readCount content paths]).isOk) = true :=
    List.findIdx_getElem (w := hlt)
  cases hcontent : content paths[readCount content paths] with
  | error fault => exact ⟨fault, rfl⟩
  | ok source =>
    rw [hcontent] at hunread
    cases hunread

/-- **What a run over files leaves.** -/
structure Leaves (settings : Settings) (content : Text → Except FileFault Text) (paths : List Text)
    (o : Outcome) : Prop where
  /-- The files that are read add to the output, in order, each by its path and its content. -/
  output : o.output = (paths.take (readCount content paths)).flatMap fun path =>
    printed settings path (content path)
  /-- The files that are read add to the diagnostics, in order, each by its path and its content. -/
  diagnostics : o.diagnostics = (paths.take (readCount content paths)).flatMap fun path =>
    complaint settings path (content path)
  /-- A file that cannot be read is all that is reported. -/
  unread : ∀ path, paths[readCount content paths]? = some path → ∃ fault,
    content path = .error fault ∧
      o.report = ["could not read ".toList ++ path.quoted, fault.message]
  /-- If all files are read, then bad programs are reported with their number. -/
  bad : readCount content paths = paths.length → 0 < badCount settings content paths →
    o.report = [Text.Decimal.ofNat (badCount settings content paths) ++ " of ".toList ++
      Text.Decimal.ofNat paths.length ++ " files could not be parsed".toList]
  /-- If all files are read and hold good programs, then nothing is reported. -/
  good : readCount content paths = paths.length → badCount settings content paths = 0 →
    o.report = []

/-- A run that reads all its files fails if there are bad programs among them. -/
theorem files_of_all_read (h : ∀ path ∈ paths, ∃ source, content path = .ok source) :
    files settings content paths =
      ⟨paths.flatMap fun path => printed settings path (content path),
        paths.flatMap fun path => complaint settings path (content path),
        countReport (badCount settings content paths) paths.length⟩ := by
  have hrun : rest settings content paths.length 0 (paths ++ []) = _ := rest_append h _ _
  rw [List.append_nil, Nat.zero_add] at hrun
  rw [files, hrun]
  simp only [rest, Outcome.ofReport, Outcome.after, List.append_nil]

/-- A run that meets a file that cannot be read fails for that file alone. -/
theorem files_of_unread {fault : FileFault}
    (h : ∀ path ∈ paths, ∃ source, content path = .ok source)
    (hfault : content path = .error fault) :
    files settings content (paths ++ path :: more) =
      ⟨paths.flatMap fun path => printed settings path (content path),
        paths.flatMap fun path => complaint settings path (content path),
        readReport path fault⟩ := by
  rw [files, rest_append h, rest_cons_of_error hfault]
  simp only [Outcome.ofReport, Outcome.after, List.append_nil]

/-- **What a run over any files leaves.** -/
theorem leaves_files (settings : Settings) (content : Text → Except FileFault Text)
    (paths : List Text) : Leaves settings content paths (files settings content paths) := by
  have hread : ∀ path ∈ paths.take (readCount content paths), ∃ source,
      content path = .ok source := fun _ => exists_source_of_mem_take
  cases hn : paths[readCount content paths]? with
  | none =>
    have hle := List.getElem?_eq_none_iff.1 hn
    have hall := List.take_of_length_le hle
    rw [hall] at hread
    have hfiles : files settings content paths = _ := files_of_all_read hread
    exact {
      output := by rw [hfiles, hall]
      diagnostics := by rw [hfiles, hall]
      unread := fun path hpath => by
        rw [hn] at hpath
        cases hpath
      bad := fun _ hbad => by rw [hfiles, countReport, if_neg (Nat.ne_of_gt hbad)]
      good := fun _ hgood => by rw [hfiles, hgood, countReport, if_pos rfl] }
  | some path =>
    obtain ⟨fault, hfault⟩ := exists_fault_of_getElem? hn
    obtain ⟨hlt, hpath⟩ := List.getElem?_eq_some_iff.1 hn
    have hsplit : paths.take (readCount content paths) ++
        path :: paths.drop (readCount content paths + 1) = paths := by
      rw [← hpath, ← List.drop_eq_getElem_cons hlt, List.take_append_drop]
    have hfiles : files settings content paths = _ := hsplit ▸ files_of_unread hread hfault
    exact {
      output := by rw [hfiles]
      diagnostics := by rw [hfiles]
      unread := fun path' hpath' => by
        obtain rfl := Option.some.inj (hn.symm.trans hpath')
        exact ⟨fault, hfault, by rw [hfiles, readReport]⟩
      bad := fun hall => absurd hall (Nat.ne_of_lt hlt)
      good := fun hall => absurd hall (Nat.ne_of_lt hlt) }

end Check

/-- The settings that are asked for are of use unless the largest size is zero. -/
theorem Arguments.settings_eq_error_iff {a : Arguments} {fault : SettingsFault} :
    a.settings = .error fault ↔ a.maxArraySize = 0 ∧ fault = .noSize 1 0 := by
  have hzero : ¬ Settings.defaultLeast ≤ a.maxArraySize ↔ a.maxArraySize = 0 := by
    rw [Settings.defaultLeast, UInt64.le_iff_toNat_le, ← UInt64.toNat_inj, UInt64.toNat_one,
      UInt64.toNat_zero]
    omega
  constructor
  · intro h
    rw [settings, Settings.build] at h
    split at h
    · cases h
    · next hempty =>
      rw [hzero.1 hempty] at h
      exact ⟨hzero.1 hempty, (Except.error.inj h).symm⟩
  · rintro ⟨hmost, rfl⟩
    rw [settings, hmost]
    rfl

namespace CommandLine

/-- **What every command line that is accepted leads to**, whatever the files hold. A largest size
of zero is the one request that no settings meet: nothing is printed and that is the report.
Otherwise the files are run over with the settings asked for. The exit code is 1 if there is a
report. -/
theorem respond_of_read {arguments : List Text} {environment : Option Text} {a : Arguments}
    (h : Arguments.read arguments environment = .ok a)
    (content : Text → Except FileFault Text) :
    ((∃ fault, a.settings = .error fault) ↔ a.maxArraySize = 0) ∧
      ∃ o, respond arguments environment content = .checked o ∧
        (respond arguments environment content).exitCode = (if o.report = [] then 0 else 1) ∧
        (∀ fault, a.settings = .error fault →
          fault = .noSize 1 0 ∧ o = ⟨[], [], [fault.message]⟩) ∧
        ∀ settings, a.settings = .ok settings → Check.Leaves settings content a.files o := by
  have hrespond : respond arguments environment content = .checked (a.run content) := by
    rw [respond, h]
  refine ⟨⟨?_, ?_⟩, a.run content, hrespond, ?_, ?_, ?_⟩
  · rintro ⟨fault, hfault⟩
    exact (Arguments.settings_eq_error_iff.1 hfault).1
  · exact fun hzero => ⟨_, Arguments.settings_eq_error_iff.2 ⟨hzero, rfl⟩⟩
  · rw [hrespond, Response.exitCode, Outcome.exitCode]
    simp only [List.isEmpty_iff]
  · intro fault hfault
    refine ⟨(Arguments.settings_eq_error_iff.1 hfault).2, ?_⟩
    rw [Arguments.run, hfault]
    rfl
  · intro settings hsettings
    rw [Arguments.run, hsettings]
    exact Check.leaves_files settings content a.files

/-- A good file that is named twice, a bad one, and one that does not exist: the bad file is not
counted in the report, and the file after the missing one is not looked at. -/
theorem respond_of_read_missing :
    let arguments := ["good", "--max-array-size=8", "bad", "good", "gone", "bad"].map String.toList
    let content := FileTree.content ⟨[(["good".toList], .file (some "var x[8]".toList)),
      (["bad".toList], .file (some "var y[9]".toList))], []⟩
    let a : Arguments :=
      ⟨["good", "bad", "good", "gone", "bad"].map String.toList, false, 8, 0, 0⟩
    Arguments.read arguments none = .ok a ∧
      ∃ o, respond arguments none content = .checked o ∧
        (respond arguments none content).exitCode = 1 ∧
        o.output = "good: x[8]\ngood: x[8]\n".toList ∧
        o.diagnostics = Check.errorMark ++
          ("value error: array size 9 must be between 1 and 8\n" ++
            "  -> bad:1:1\n1 | var y[9]\n    ^\n").toList ∧
        o.report = ["could not read \"gone\"", "No such file or directory (os error 2)"].map
          String.toList := by
  intro arguments content a
  have hread : Arguments.read arguments none = .ok a := by decide +kernel
  have hsettings : a.settings = .ok ⟨true, 1, 8, by decide, by decide⟩ := rfl
  obtain ⟨-, o, ho, hexit, -, hleaves⟩ := respond_of_read hread content
  have h := hleaves _ hsettings
  have hunread : Check.readCount content a.files = 3 := by decide +kernel
  obtain ⟨fault, hfault, hreport⟩ := h.unread "gone".toList (by rw [hunread]; rfl)
  have hmissing : content "gone".toList = .error .missing := by decide +kernel
  obtain rfl := Except.error.inj (hfault.symm.trans hmissing)
  rw [hreport] at hexit
  exact ⟨hread, o, ho, hexit, h.output.trans (by decide +kernel),
    h.diagnostics.trans (by decide +kernel), hreport.trans (by decide +kernel)⟩

end CommandLine

end LineLang
