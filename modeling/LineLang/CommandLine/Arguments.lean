import LineLang.CommandLine.Reading
import LineLang.Settings

/-!
# Arguments of the program

The arguments that the program declares, and what it makes of what a matcher finds of them: the
files, the settings and the level of logging.

Models `Args`, `LoggingArgs`, `parser` and `level_filter`. The flags and options are declared as the
attributes of the two records say; the matcher, which is not part of the program, is a parameter.

* `Arguments.command`: the declared arguments.
* `Arguments.parseWith`: what a command line asks for, with any matcher.
* `Arguments.read`: the same with the matcher that the program runs with.
-/

namespace LineLang

/-! ## Levels of logging -/

/-- How much is logged. -/
inductive LogLevel where
  | off
  | error
  | warn
  | info
  | debug
  | trace
  deriving DecidableEq, Repr

namespace LogLevel

/-- The name of a level. -/
def name : LogLevel → Text
  | off => "off".toList
  | error => "error".toList
  | warn => "warn".toList
  | info => "info".toList
  | debug => "debug".toList
  | trace => "trace".toList

/-- The level for a number of wishes for more and a number of wishes for less: `info` if they are
equal, and at most two levels away from it. -/
def ofCounts (more less : Nat) : LogLevel :=
  if less + 2 ≤ more then trace
  else if less + 1 = more then debug
  else if less = more then info
  else if more + 1 = less then error
  else off

end LogLevel

/-! ## Declared arguments -/

namespace Flag

/-- Log more. -/
def verbose : Flag :=
  ⟨"verbose".toList, some ⟨'v', by decide⟩, none, .count, ["quiet".toList]⟩

/-- Log less. -/
def quiet : Flag :=
  ⟨"quiet".toList, some ⟨'q', by decide⟩, none, .count, ["verbose".toList]⟩

/-- Give each scope its own namespace. -/
def nestedScopes : Flag :=
  ⟨"nested_scopes".toList, none, some ⟨"nested-scopes".toList, by decide, by decide⟩, .set, []⟩

/-- Print help. -/
def help : Flag :=
  ⟨"help".toList, some ⟨'h', by decide⟩, some ⟨"help".toList, by decide, by decide⟩, .help, []⟩

/-- Print the version. -/
def version : Flag :=
  ⟨"version".toList, some ⟨'V', by decide⟩, some ⟨"version".toList, by decide, by decide⟩,
    .version, []⟩

end Flag

/-- The largest number of cells an array may be declared with. -/
def NumberOption.maxArraySize : NumberOption :=
  ⟨"max_array_size".toList, ⟨"max-array-size".toList, by decide, by decide⟩,
    some "BFTC_MAX_ARRAY_SIZE".toList, Settings.defaultMost⟩

/-- The files to check. -/
def PathsArgument.files : PathsArgument := ⟨"files".toList, true⟩

/-! ## What is asked for -/

/-- What the arguments ask for. -/
structure Arguments where
  files : List Text
  nestedScopes : Bool
  maxArraySize : UInt64
  verbose : Nat
  quiet : Nat
  deriving DecidableEq, Repr

namespace Arguments

/-- The level of logging that is asked for. -/
def level (a : Arguments) : LogLevel := .ofCounts a.verbose a.quiet

/-- The settings that are asked for. -/
def settings (a : Arguments) : Except SettingsFault Settings :=
  Settings.build (!a.nestedScopes) Settings.defaultLeast a.maxArraySize

/-- The declared arguments. The last two flags are those of every command. -/
def command : Command where
  flags := [.verbose, .quiet, .nestedScopes, .help, .version]
  options := [.maxArraySize]
  paths := .files
  options_nodup := by decide

/-- The arguments for what was found. The option has a default, so its number is there. -/
def ofMatches (m : Matches) : Except Refusal Arguments :=
  match m.numbers NumberOption.maxArraySize.id with
  | some maxArraySize => .ok {
      files := m.paths PathsArgument.files.id
      nestedScopes := m.counts Flag.nestedScopes.id != 0
      maxArraySize
      verbose := m.counts Flag.verbose.id
      quiet := m.counts Flag.quiet.id }
  | none => .error .missingFiles

/-- What a command line asks for, with a matcher to take it apart. -/
def parseWith (matcher : Matcher) (arguments : List Text) (environment : Environment) :
    Except Refusal Arguments :=
  match matcher command environment arguments with
  | .ok m => ofMatches m
  | .error e => .error e

/-- The meaning of a list of arguments. `environment` is the size that the environment asks for. -/
def read (arguments : List Text) (environment : Option Text) : Except Refusal Arguments :=
  parseWith Reading.matcher arguments fun name =>
    if NumberOption.maxArraySize.source = some name then environment else none

end Arguments

end LineLang
