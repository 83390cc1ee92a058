import LineLang.CommandLine.Command

/-!
# Reading command lines

A matcher that reads the arguments of a command line one by one. Flags and options begin with a dash
and may stand anywhere before `--`; short flags may be clustered; all else is a path. An option
takes its value after an equals sign or from the next argument.

A value that stands in an argument of its own is not looked at when it is met but when it is
settled: at the next known flag or option, at the next path, or at the end. The same holds of paths.
An unknown option stops the reading at once, whatever waits to be settled.

Stands in for the parser of command lines that `Args.parse` calls, which is not part of the program.

* `Reading.take`: one argument.
* `Reading.matcher`: whole command lines.
-/

namespace LineLang

/-! ## The forms of an argument -/

/-- An argument by its form. -/
inductive Form where
  /-- The mark after which no options follow. -/
  | terminator
  /-- A long name and the value after its equals sign. -/
  | long (name : Text) (value : Option Text)
  /-- One or more letters. -/
  | cluster (letters : Text)
  /-- A path or the value of an option. -/
  | plain

/-- The form of an argument. A lone dash is plain. -/
def formOf : Text → Form
  | ['-', '-'] => .terminator
  | '-' :: '-' :: t =>
    match t.dropWhile (· != '=') with
    | [] => .long t none
    | _ :: value => .long (t.takeWhile (· != '=')) (some value)
  | '-' :: c :: t => .cluster (c :: t)
  | _ => .plain

/-! ## Reading -/

/-- What was read so far. -/
structure Reading where
  found : Matches
  /-- Occurrences that were met but are not settled. -/
  waiting : List Occurrence
  /-- An option that was met without its value. -/
  awaiting : Option NumberOption
  ended : Bool

namespace Reading

/-- Nothing is read yet. -/
def start : Reading := ⟨.empty, [], none, false⟩

/-- Settles what waits. -/
def settle (c : Command) (r : Reading) : Except Refusal Reading :=
  match r.awaiting with
  | some _ => .error .missingValue
  | none =>
    match r.waiting.foldlM (Matches.meet c) r.found with
    | .ok m => .ok { r with found := m, waiting := [] }
    | .error e => .error e

/-- Settles what waits and takes an occurrence. -/
def takeAtOnce (c : Command) (r : Reading) (o : Occurrence) : Except Refusal Reading :=
  match r.settle c with
  | .error e => .error e
  | .ok r =>
    match r.found.meet c o with
    | .ok m => .ok { r with found := m }
    | .error e => .error e

/-- Takes the flags of a cluster, from left to right. -/
def takeCluster (c : Command) (r : Reading) : Text → Except Refusal Reading
  | [] => .ok r
  | letter :: letters =>
    match c.shortFlag? letter with
    | none => .error .unknownOption
    | some f =>
      match r.takeAtOnce c (.flag f) with
      | .ok r => r.takeCluster c letters
      | .error e => .error e

/-- Takes an option. Without a value it waits for the next argument. -/
def takeOption (c : Command) (r : Reading) (o : NumberOption) :
    Option Text → Except Refusal Reading
  | some value => r.takeAtOnce c (.option o value)
  | none =>
    match r.settle c with
    | .ok r => .ok { r with awaiting := some o }
    | .error e => .error e

/-- Takes a long name with the value that is attached to it. -/
def takeLong (c : Command) (r : Reading) (name : Text) (value : Option Text) :
    Except Refusal Reading :=
  match c.option? name with
  | some o => r.takeOption c o value
  | none =>
    match c.longFlag? name, value with
    | none, _ => .error .unknownOption
    | some _, some _ => .error .unexpectedValue
    | some f, none => r.takeAtOnce c (.flag f)

/-- Takes a path. Paths that follow each other wait together. -/
def takePath (c : Command) (r : Reading) (value : Text) : Except Refusal Reading :=
  if r.awaiting.isNone && r.waiting.all Occurrence.isPath then
    .ok { r with waiting := r.waiting ++ [.path value] }
  else
    match r.settle c with
    | .ok r => .ok { r with waiting := [.path value] }
    | .error e => .error e

/-- Takes a plain argument: the value that an option waits for, or else a path. -/
def takePlain (c : Command) (r : Reading) (value : Text) : Except Refusal Reading :=
  match r.awaiting with
  | some o => .ok { r with awaiting := none, waiting := [.option o value] }
  | none => r.takePath c value

/-- Takes one argument. -/
def take (c : Command) (r : Reading) (argument : Text) : Except Refusal Reading :=
  if r.ended then
    r.takePath c argument
  else
    match formOf argument with
    | .terminator => .ok { r with ended := true }
    | .long name value => r.takeLong c name value
    | .cluster letters => r.takeCluster c letters
    | .plain => r.takePlain c argument

/-- Takes arguments in order. -/
def takeAll (c : Command) (r : Reading) : List Text → Except Refusal Reading
  | [] => .ok r
  | argument :: more =>
    match r.take c argument with
    | .ok r => r.takeAll c more
    | .error e => .error e

/-! ## What was not met -/

/-- The number of an option: the one given, else that of the environment, else the default. -/
def numberOf (environment : Environment) (m : Matches) (o : NumberOption) : Except Refusal UInt64 :=
  match m.numbers o.id, o.source.bind environment with
  | some n, _ => .ok n
  | none, none => .ok o.default
  | none, some value =>
    match Text.Decimal.readWord? value with
    | some n => .ok n
    | none => .error .badSize

/-- Gives options their numbers. -/
def fill (environment : Environment) (m : Matches) : List NumberOption → Except Refusal Matches
  | [] => .ok m
  | o :: os =>
    match numberOf environment m o with
    | .ok n => fill environment (m.setNumber o n) os
    | .error e => .error e

/-- Whether two flags were met of which one excludes the other. -/
def inConflict (c : Command) (m : Matches) : Bool :=
  c.flags.any fun f => 0 < m.counts f.id && f.excludes.any fun id => 0 < m.counts id

/-- What becomes of what was found when there are no more arguments. -/
def conclude (c : Command) (environment : Environment) (m : Matches) : Except Refusal Matches :=
  match fill environment m c.options with
  | .error e => .error e
  | .ok m =>
    if inConflict c m then
      .error .conflict
    else if c.paths.required && (m.paths c.paths.id).isEmpty then
      .error .missingFiles
    else
      .ok m

/-- The matcher that reads argument by argument. -/
def matcher : Matcher := fun c environment arguments =>
  match start.takeAll c arguments with
  | .error e => .error e
  | .ok r =>
    match r.settle c with
    | .ok r => conclude c environment r.found
    | .error e => .error e

end Reading

end LineLang
