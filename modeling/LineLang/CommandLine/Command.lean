import LineLang.Text.Decimal

/-!
# Declared arguments

A command declares its arguments: flags, options that take a number, and one row of paths. Each of
them says what is done where it is met: flags are set or counted, an option keeps its number, and
paths are kept in their order.

How a command line is taken apart into occurrences of declared arguments is not said here. That is
left to a `Matcher`, which can be given any command.

Models what attributes on the fields of `Args` and `LoggingArgs` can declare, by what is documented
of them.

* `Command`: declared arguments.
* `Matches.meet`: what one occurrence changes.
* `Matcher`: what takes command lines apart.
-/

namespace LineLang

/-- The value of each variable of the environment that is set. -/
abbrev Environment := Text → Option Text

/-! ## Refusals -/

/-- Why a command line is not carried out. -/
inductive Refusal where
  /-- An option that does not exist. -/
  | unknownOption
  /-- A required argument is not there: no file is given. -/
  | missingFiles
  /-- An option without its value, or an empty path. -/
  | missingValue
  /-- A size that is no number of 64 bits. -/
  | badSize
  /-- An option twice that may be given once, or two options that exclude each other. -/
  | conflict
  /-- A value for an option that takes none. -/
  | unexpectedValue
  /-- The help text is asked for. -/
  | help
  /-- The version is asked for. -/
  | version
  deriving DecidableEq, Repr

/-- What is said of a refusal. -/
def Refusal.message : Refusal → Text
  | .unknownOption => "unknown option".toList
  | .missingFiles => "no source file is given".toList
  | .missingValue => "a value is missing".toList
  | .badSize => "an array size must be a number of 64 bits".toList
  | .conflict => "options exclude each other or are repeated".toList
  | .unexpectedValue => "an option takes no value".toList
  | .help => "help is asked for".toList
  | .version => "the version is asked for".toList

/-- The exit code of a refusal: a request for information is no failure. -/
def Refusal.exitCode : Refusal → Nat
  | .help | .version => 0
  | _ => 2

/-! ## Declarations -/

/-- A letter that stands for a flag behind one dash. -/
structure ShortName where
  letter : Char
  ne_dash : letter ≠ '-'
  deriving DecidableEq

/-- A word that stands for a flag or an option behind two dashes. -/
structure LongName where
  word : Text
  ne_nil : word ≠ []
  no_equals : '=' ∉ word
  deriving DecidableEq

/-- What a flag does where it is met. -/
inductive FlagAction where
  /-- `SetTrue`: it is set, once at most. -/
  | set
  /-- `Count`: it is counted, in eight bits that stay at their largest number. -/
  | count
  /-- `Help`: help is asked for instead. -/
  | help
  /-- `Version`: the version is asked for instead. -/
  | version
  deriving DecidableEq

/-- A flag: an argument without a value. It excludes the flags with the given identifiers, as
`conflicts_with` says. -/
structure Flag where
  id : Text
  short : Option ShortName
  long : Option LongName
  action : FlagAction
  excludes : List Text
  deriving DecidableEq

/-- An option that takes a number of 64 bits, once at most. Where it is not given, its number is
that of a variable of the environment (`env`), and else its default (`default_value_t`). -/
structure NumberOption where
  id : Text
  long : LongName
  /-- The variable of the environment that stands in for it. -/
  source : Option Text
  default : UInt64
  deriving DecidableEq

/-- A row of paths: all that is no flag, no option and no value of one. There must be a path if it
is `required`. -/
structure PathsArgument where
  id : Text
  required : Bool
  deriving DecidableEq

/-- The arguments that a command declares. No two options have one identifier. -/
structure Command where
  flags : List Flag
  options : List NumberOption
  paths : PathsArgument
  options_nodup : (options.map NumberOption.id).Nodup

namespace Command

/-- The flag with a letter. -/
def shortFlag? (c : Command) (letter : Char) : Option Flag :=
  c.flags.find? fun f => f.short.map ShortName.letter == some letter

/-- The flag with a word. -/
def longFlag? (c : Command) (word : Text) : Option Flag :=
  c.flags.find? fun f => f.long.map LongName.word == some word

/-- The option with a word. -/
def option? (c : Command) (word : Text) : Option NumberOption :=
  c.options.find? fun o => o.long.word == word

end Command

/-! ## What occurrences ask for -/

/-- What was found of each argument, by its identifier. -/
structure Matches where
  counts : Text → Nat
  numbers : Text → Option UInt64
  paths : Text → List Text

/-- An occurrence of a declared argument. -/
inductive Occurrence where
  | flag (f : Flag)
  | option (o : NumberOption) (value : Text)
  | path (value : Text)
  deriving DecidableEq

/-- Whether a path occurs. -/
def Occurrence.isPath : Occurrence → Bool
  | path _ => true
  | _ => false

namespace Matches

/-- Nothing is found. -/
def empty : Matches := ⟨fun _ => 0, fun _ => none, fun _ => []⟩

/-- The count of a flag is replaced. -/
def setCount (m : Matches) (f : Flag) (n : Nat) : Matches :=
  { m with counts := fun id => if id = f.id then n else m.counts id }

/-- The number of an option is replaced. -/
def setNumber (m : Matches) (o : NumberOption) (n : UInt64) : Matches :=
  { m with numbers := fun id => if id = o.id then some n else m.numbers id }

/-- A path is added behind the others. -/
def addPath (m : Matches) (p : PathsArgument) (value : Text) : Matches :=
  { m with paths := fun id => if id = p.id then m.paths id ++ [value] else m.paths id }

@[simp] theorem counts_setCount (m : Matches) (f : Flag) (n : Nat) (id : Text) :
    (m.setCount f n).counts id = if id = f.id then n else m.counts id := rfl

@[simp] theorem numbers_setCount (m : Matches) (f : Flag) (n : Nat) :
    (m.setCount f n).numbers = m.numbers := rfl

@[simp] theorem paths_setCount (m : Matches) (f : Flag) (n : Nat) :
    (m.setCount f n).paths = m.paths := rfl

@[simp] theorem counts_setNumber (m : Matches) (o : NumberOption) (n : UInt64) :
    (m.setNumber o n).counts = m.counts := rfl

@[simp] theorem numbers_setNumber (m : Matches) (o : NumberOption) (n : UInt64) (id : Text) :
    (m.setNumber o n).numbers id = if id = o.id then some n else m.numbers id := rfl

@[simp] theorem paths_setNumber (m : Matches) (o : NumberOption) (n : UInt64) :
    (m.setNumber o n).paths = m.paths := rfl

@[simp] theorem counts_addPath (m : Matches) (p : PathsArgument) (value : Text) :
    (m.addPath p value).counts = m.counts := rfl

@[simp] theorem numbers_addPath (m : Matches) (p : PathsArgument) (value : Text) :
    (m.addPath p value).numbers = m.numbers := rfl

@[simp] theorem paths_addPath_self (m : Matches) (p : PathsArgument) (value : Text) :
    (m.addPath p value).paths p.id = m.paths p.id ++ [value] := if_pos rfl

theorem setCount_setCount (m : Matches) (f : Flag) (n k : Nat) :
    (m.setCount f n).setCount f k = m.setCount f k := by
  have hcounts : ((m.setCount f n).setCount f k).counts = (m.setCount f k).counts := by
    funext id
    simp only [counts_setCount]
    split <;> rfl
  exact congrArg (fun counts => { m with counts }) hcounts

/-- A flag is met. -/
def raise (m : Matches) (f : Flag) : Except Refusal Matches :=
  match f.action with
  | .set => if 0 < m.counts f.id then .error .conflict else .ok (m.setCount f 1)
  | .count => .ok (m.setCount f (min (m.counts f.id + 1) 255))
  | .help => .error .help
  | .version => .error .version

/-- An option is met with a value. That it was met before is noticed before the value is looked
at. -/
def store (m : Matches) (o : NumberOption) (value : Text) : Except Refusal Matches :=
  match m.numbers o.id with
  | some _ => .error .conflict
  | none =>
    match Text.Decimal.readWord? value with
    | some n => .ok (m.setNumber o n)
    | none => .error .badSize

/-- A path is met. It must not be empty. -/
def append (m : Matches) (p : PathsArgument) (value : Text) : Except Refusal Matches :=
  if value.isEmpty then .error .missingValue else .ok (m.addPath p value)

/-- An occurrence is met. -/
def meet (c : Command) (m : Matches) : Occurrence → Except Refusal Matches
  | .flag f => m.raise f
  | .option o value => m.store o value
  | .path value => m.append c.paths value

end Matches

/-- What takes command lines apart: for any command, environment and command line, it tells what was
found of each argument, or why the command line is refused. -/
abbrev Matcher := Command → Environment → List Text → Except Refusal Matches

end LineLang
