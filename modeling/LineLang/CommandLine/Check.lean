import LineLang.CommandLine.Arguments
import LineLang.Diagnostic
import LineLang.FileTree
import LineLang.Text.Quoted

/-!
# Checking files

A run checks the files it was given, in order. Each good program is reported with its symbols, each
bad one with a diagnostic. A file that cannot be read ends the run at once; a bad program does not.

Models `main` once it has its arguments: the loop over `files` and the report that it ends with.

* `Check.files`: a run over files whose content is known.
* `CommandLine.respond`: what a whole command line leads to.
-/

namespace LineLang

/-- What a run leaves: what it printed, its diagnostics, and why it failed, in messages from the
outermost inwards. -/
structure Outcome where
  output : Text
  diagnostics : Text
  report : List Text
  deriving DecidableEq, Repr

namespace Outcome

/-- The outcome of a run that printed nothing and failed for the given reasons, if there are any. -/
def ofReport (report : List Text) : Outcome := ⟨[], [], report⟩

/-- A run that failed exits with 1, any other with 0. -/
def exitCode (o : Outcome) : Nat := if o.report.isEmpty then 0 else 1

end Outcome

namespace Check

/-- The mark of a diagnostic: the word in bold and red. -/
def errorMark : Text := "\x1b[1m\x1b[31merror\x1b[39m\x1b[0m: ".toList

/-- What is printed for a good program. -/
def symbolsLine (path : Text) (t : SymbolTable) : Text :=
  path ++ ": ".toList ++ t.render ++ ['\n']

/-- What is written for a bad program. -/
def diagnostic (path source : Text) (e : ProgramError) : Text :=
  errorMark ++ e.render source (some path)

/-- The reasons why a file could not be read. -/
def readReport (path : Text) (fault : FileFault) : List Text :=
  ["could not read ".toList ++ path.quoted, fault.message]

/-- The reasons why a run failed in which `failed` of `total` programs were bad. -/
def countReport (failed total : Nat) : List Text :=
  if failed = 0 then
    []
  else
    [Text.Decimal.ofNat failed ++ " of ".toList ++ Text.Decimal.ofNat total ++
      " files could not be parsed".toList]

/-- Checks the rest of `total` files, after `failed` bad programs. -/
def rest (settings : Settings) (content : Text → Except FileFault Text) (total failed : Nat) :
    List Text → Outcome
  | [] => .ofReport (countReport failed total)
  | path :: paths =>
    match content path with
    | .error fault => .ofReport (readReport path fault)
    | .ok source =>
      match Program.parse settings source with
      | .ok t =>
        let o := rest settings content total failed paths
        { o with output := symbolsLine path t ++ o.output }
      | .error e =>
        let o := rest settings content total (failed + 1) paths
        { o with diagnostics := diagnostic path source e ++ o.diagnostics }

/-- Checks files. -/
def files (settings : Settings) (content : Text → Except FileFault Text) (paths : List Text) :
    Outcome :=
  rest settings content paths.length 0 paths

end Check

/-! ## Whole command lines -/

/-- Carries out what the arguments ask for. -/
def Arguments.run (a : Arguments) (content : Text → Except FileFault Text) : Outcome :=
  match a.settings with
  | .error fault => .ofReport [fault.message]
  | .ok settings => Check.files settings content a.files

namespace CommandLine

/-- What is printed when the version is asked for. -/
def versionText : Text := "bftc_cli 0.0.0\n".toList

/-- What is printed when help is asked for. -/
def helpText : Text :=
  ("Checks programs and prints their symbol tables\n\n" ++
    "Usage: bftc [OPTIONS] <source file>...\n\n" ++
    "Arguments:\n" ++
    "  <source file>...  Specify which source files to check\n\n" ++
    "Options:\n" ++
    "  -v...                                  Log more\n" ++
    "  -q...                                  Log less\n" ++
    "      --nested-scopes                    Give each scope its own namespace instead of " ++
    "storing every declaration globally\n" ++
    "      --max-array-size <MAX_ARRAY_SIZE>  The largest number of cells an array may be " ++
    "declared with [env: BFTC_MAX_ARRAY_SIZE=] [default: 256]\n" ++
    "  -h, --help                             Print help\n" ++
    "  -V, --version                          Print version\n").toList

/-- What a command line leads to. -/
inductive Response where
  /-- Information was asked for and is printed. -/
  | information (text : Text)
  /-- The arguments are not accepted. -/
  | refused (refusal : Refusal)
  /-- The files were checked. -/
  | checked (outcome : Outcome)

/-- The response to a command line. -/
def respond (arguments : List Text) (environment : Option Text)
    (content : Text → Except FileFault Text) : Response :=
  match Arguments.read arguments environment with
  | .ok a => .checked (a.run content)
  | .error .version => .information versionText
  | .error .help => .information helpText
  | .error refusal => .refused refusal

/-- The exit code of a response. -/
def Response.exitCode : Response → Nat
  | .information _ => 0
  | .refused refusal => refusal.exitCode
  | .checked outcome => outcome.exitCode

end CommandLine

end LineLang
