import LineLang.CommandLine.Check

/-!
# The program

Reads the arguments, the environment and the files, and prints the response. All that it decides is
decided by `CommandLine.respond`.

Models `main`.
-/

namespace LineLang.Main

/-- Prints a text on standard output. -/
def print (t : Text) : IO Unit := IO.print (String.ofList t)

/-- Prints a text on standard error. -/
def complain (t : Text) : IO Unit := IO.eprint (String.ofList t)

/-- The fault for an error number of the system, which may come negated. -/
def faultOfNumber (number : UInt32) (reason : String) : FileFault :=
  match min number (-number) with
  | 2 => .missing
  | 20 => .notDirectory
  | 21 => .directory
  | 36 => .nameTooLong
  | _ => .other reason.toList

/-- The content of a file. -/
def load (path : Text) : IO (Except FileFault Text) := do
  try
    let bytes ← IO.FS.readBinFile (String.ofList path)
    match String.fromUTF8? bytes with
    | some s => return .ok s.toList
    | none => return .error .notText
  catch
    | .noFileOrDirectory _ number reason => return .error (faultOfNumber number reason)
    | .inappropriateType _ number reason => return .error (faultOfNumber number reason)
    | .invalidArgument _ number reason => return .error (faultOfNumber number reason)
    | e => return .error (.other (toString e).toList)

/-- The files that the arguments name. -/
def namedFiles (arguments : List Text) (environment : Option Text) : List Text :=
  match Arguments.read arguments environment with
  | .ok a => a.files
  | .error _ => []

/-- Prints a response. -/
def present : CommandLine.Response → IO Unit
  | .information t => print t
  | .refused refusal => complain ("error: ".toList ++ refusal.message ++ ['\n'])
  | .checked outcome => do
    print outcome.output
    complain outcome.diagnostics
    for message in outcome.report do
      complain ("Error: ".toList ++ message ++ ['\n'])

end LineLang.Main

open LineLang in
/-- Checks the files that the arguments name. -/
def main (arguments : List String) : IO UInt32 := do
  let arguments := arguments.map String.toList
  let environment := (← IO.getEnv "BFTC_MAX_ARRAY_SIZE").map String.toList
  let contents ← (Main.namedFiles arguments environment).mapM fun path =>
    return (path, ← Main.load path)
  let response := CommandLine.respond arguments environment fun path =>
    (contents.lookup path).getD (.error .missing)
  Main.present response
  return UInt32.ofNat response.exitCode
