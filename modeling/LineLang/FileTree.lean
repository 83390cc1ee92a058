import LineLang.Text

/-!
# File trees

A file tree is what a program can see of the files around it: those below its working directory and
those below the root of the system. A path is followed name by name. Every name but the last must
lead to a directory, a dot stays where it is, two dots go to the directory above, and an empty name,
as after a slash at the end, stays as well, so that only a directory may have a slash after it.

Models the files that `main` reads.

* `FileTree.follow`: the place that names lead to.
* `FileTree.content`: the text of the file at a path, or why it cannot be read.
-/

namespace LineLang

/-! ## Faults -/

/-- Why a file cannot be read as text. -/
inductive FileFault where
  /-- Nothing has this name. -/
  | missing
  /-- A name on the way leads to a file. -/
  | notDirectory
  /-- The path leads to a directory. -/
  | directory
  /-- A name or the whole path has too many bytes. -/
  | nameTooLong
  /-- The content is no text. -/
  | notText
  /-- Any other reason, in words. -/
  | other (reason : Text)
  deriving DecidableEq, Repr

/-- What is said of a file that cannot be read. -/
def FileFault.message : FileFault → Text
  | .missing => "No such file or directory (os error 2)".toList
  | .notDirectory => "Not a directory (os error 20)".toList
  | .directory => "Is a directory (os error 21)".toList
  | .nameTooLong => "File name too long (os error 36)".toList
  | .notText => "stream did not contain valid UTF-8".toList
  | .other reason => reason

/-! ## Trees -/

/-- What a name can stand for. -/
inductive FileEntry where
  | directory
  /-- A file with its text, if its content is a text. -/
  | file (text : Option Text)
  deriving DecidableEq, Repr

/-- Entries under the names that lead to them from a common directory. -/
abbrev FileEntries := List (List Text × FileEntry)

/-- The entry that names lead to. No name leads to the common directory itself, and what leads
further is a directory even if it has no entry of its own. -/
def FileEntries.get? (es : FileEntries) (names : List Text) : Option FileEntry :=
  if names.isEmpty then
    some .directory
  else
    match es.lookup names with
    | some e => some e
    | none => if es.any fun e => names.isPrefixOf e.1 then some .directory else none

/-- What a program can see: the entries below its working directory, and those below the root. -/
structure FileTree where
  working : FileEntries
  system : FileEntries
  deriving DecidableEq, Repr

/-- A place in a file tree. -/
inductive FilePlace where
  /-- Below the working directory. -/
  | working (names : List Text)
  /-- Below the root. -/
  | system (names : List Text)
  /-- A directory above the working directory. Nothing is known of what it holds. -/
  | above
  deriving DecidableEq, Repr

namespace FilePlace

/-- The directory above a place. The root is above itself. -/
def parent : FilePlace → FilePlace
  | .working [] => .above
  | .working names => .working names.dropLast
  | .system names => .system names.dropLast
  | .above => .above

/-- The place of a name in a directory, if anything is known of it. -/
def child? (name : Text) : FilePlace → Option FilePlace
  | .working names => some (.working (names ++ [name]))
  | .system names => some (.system (names ++ [name]))
  | .above => none

end FilePlace

namespace FileTree

/-- What every system has below its root: directories for devices and for temporary files, and the
device that is always empty. -/
def standardSystem : FileEntries :=
  [(["dev".toList], .directory), (["tmp".toList], .directory),
    (["dev".toList, "null".toList], .file (some []))]

/-- The largest number of bytes of a name. -/
def maxNameLength : Nat := 255

/-- The largest number of bytes of a path. -/
def maxPathLength : Nat := 4095

/-- The entry at a place. -/
def entry? (t : FileTree) : FilePlace → Option FileEntry
  | .working names => t.working.get? names
  | .system names => t.system.get? names
  | .above => some .directory

/-- The place that a name leads to from a directory. -/
def enterDirectory (t : FileTree) (place : FilePlace) (name : Text) :
    Except FileFault FilePlace :=
  if name = [] ∨ name = ['.'] then
    .ok place
  else if name = ['.', '.'] then
    .ok place.parent
  else if maxNameLength < name.byteLength then
    .error .nameTooLong
  else
    match place.child? name with
    | none => .error .missing
    | some next => if (t.entry? next).isSome then .ok next else .error .missing

/-- The place that a name leads to from a place. -/
def enter (t : FileTree) (place : FilePlace) (name : Text) : Except FileFault FilePlace :=
  match t.entry? place with
  | some .directory => t.enterDirectory place name
  | _ => .error .notDirectory

/-- The place that names lead to, one after the other. -/
def follow (t : FileTree) (place : FilePlace) : List Text → Except FileFault FilePlace
  | [] => .ok place
  | name :: names =>
    match t.enter place name with
    | .ok next => t.follow next names
    | .error fault => .error fault

/-- Where a path starts: at the root if it begins with a slash, else in the working directory. -/
def startOf : Text → FilePlace
  | '/' :: _ => .system []
  | _ => .working []

/-- The place that a path leads to. The empty path leads nowhere. -/
def locate (t : FileTree) (path : Text) : Except FileFault FilePlace :=
  if path = [] then
    .error .missing
  else if maxPathLength < path.byteLength then
    .error .nameTooLong
  else
    t.follow (startOf path) (Text.pieces '/' path)

/-- The text of the file at a path. -/
def content (t : FileTree) (path : Text) : Except FileFault Text :=
  match t.locate path with
  | .error fault => .error fault
  | .ok place =>
    match t.entry? place with
    | some (.file (some text)) => .ok text
    | some (.file none) => .error .notText
    | some .directory => .error .directory
    | none => .error .missing

end FileTree

end LineLang
