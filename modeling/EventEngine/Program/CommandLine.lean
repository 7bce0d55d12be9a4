import EventEngine.Diagnostics

/-!
# The command line

Options take their value behind an equals sign or as the next argument, where that is not an option
itself. An option that waits for its value, or has got it from the next argument, is settled when
the next option comes or the arguments end; what is wrong with it is reported then, unless that
next argument is unknown.
-/
namespace EventEngine

/-- What the arguments ask for. -/
structure CommandLine where
  /-- Path of the settings. -/
  config : Option String := none
  /-- Length of the run in milliseconds, instead of the one in the settings. -/
  runMillis : Option Nat := none
  /-- Directory for log files. -/
  logDir : Option String := none
  /-- Print the summary as JSON. -/
  json : Bool := false
  deriving DecidableEq, Repr

/-- An option that takes a value. -/
inductive ValueOption where
  | config
  | runMillis
  | logDir
  deriving DecidableEq, Repr

/-- The option with the name of its value. -/
def ValueOption.usage : ValueOption → String
  | config => "--config <CONFIG>"
  | runMillis => "--run-ms <RUN_MS>"
  | logDir => "--log-dir <LOG_DIR>"

/-- An option that takes none. -/
inductive Switch where
  | json
  | help
  | version
  deriving DecidableEq, Repr

def Switch.usage : Switch → String
  | json => "--json"
  | help => "--help"
  | version => "--version"

/-- Why the arguments do not lead to a run. -/
inductive Refusal where
  | helpAsked
  | versionAsked
  | unknownArgument (argument : String)
  /-- A value is missing or empty. -/
  | noValue (option : ValueOption)
  | invalidNumber (value : String)
  /-- An option is given again. -/
  | repeated (option : String)
  /-- A value is given to an option that takes none. -/
  | surplusValue (option : Switch) (value : String)
  deriving DecidableEq, Repr

def versionText : String := "walletcore 0.1.0\n"

def helpText : String :=
  "Run the wallet and peer event handlers\n\n" ++
  "Usage: walletcore [OPTIONS]\n\nOptions:\n" ++
  "  -c, --config <CONFIG>    Configuration file path [env: WALLETCORE_CONFIG=]\n" ++
  "      --run-ms <RUN_MS>    How long to run the handlers, in milliseconds\n" ++
  "      --log-dir <LOG_DIR>  Also write logs to daily files in this directory\n" ++
  "      --json               Print the final metrics as JSON\n" ++
  "  -h, --help               Print help\n" ++
  "  -V, --version            Print version\n"

namespace Refusal

/-- Whether the refusal answers a question. -/
def isAnswer : Refusal → Bool
  | helpAsked => true
  | versionAsked => true
  | _ => false

/-- What is wrong with the arguments. -/
def complaint : Refusal → String
  | unknownArgument argument => "unexpected argument '" ++ argument ++ "' found"
  | noValue option =>
    "a value is required for '" ++ option.usage ++ "' but none was supplied"
  | invalidNumber value =>
    "invalid value '" ++ value ++ "' for '" ++ ValueOption.runMillis.usage ++ "'"
  | repeated option => "the argument '" ++ option ++ "' cannot be used multiple times"
  | surplusValue option value =>
    "unexpected value '" ++ value ++ "' for '" ++ option.usage ++ "' found; no more were expected"
  | _ => ""

def message : Refusal → String
  | helpAsked => helpText
  | versionAsked => versionText
  | r => "error: " ++ r.complaint ++
    "\n\nUsage: walletcore [OPTIONS]\n\nFor more information, try '--help'.\n"

def exitCode (r : Refusal) : Nat := if r.isAnswer then 0 else 2

end Refusal

namespace CommandLine

/-- The number that decimal digits write, behind a plus sign or none, if it has 64 bits. -/
def number? (value : String) : Option Nat :=
  let digits := match value.toList with
    | '+' :: rest => rest
    | cs => cs
  if digits.isEmpty || !digits.all Char.isDigit then none
  else
    let n := digits.foldl (fun n c => 10 * n + (c.toNat - '0'.toNat)) 0
    if n < 18446744073709551616 then some n else none

/-- The path that a value names. -/
def path (option : ValueOption) (value : String) : Except Refusal (Option String) :=
  if value.isEmpty then .error (.noValue option) else .ok (some value)

/-- Take an option with its value. -/
def assign (c : CommandLine) (option : ValueOption) (value : String) :
    Except Refusal CommandLine :=
  match option with
  | .config =>
    if c.config.isSome then .error (.repeated option.usage)
    else do return { c with config := ← path option value }
  | .runMillis =>
    if c.runMillis.isSome then .error (.repeated option.usage)
    else match number? value with
      | some n => .ok { c with runMillis := some n }
      | none => .error (.invalidNumber value)
  | .logDir =>
    if c.logDir.isSome then .error (.repeated option.usage)
    else do return { c with logDir := ← path option value }

/-- The arguments so far. -/
structure Reading where
  taken : CommandLine := {}
  /-- An option that is not settled yet, with its value if that has come. -/
  pending : Option (ValueOption × Option String) := none

namespace Reading

/-- Settle the option that is pending. -/
def settle (r : Reading) : Except Refusal CommandLine :=
  match r.pending with
  | none => .ok r.taken
  | some (option, none) => .error (.noValue option)
  | some (option, some value) => r.taken.assign option value

/-- Take an option whose value is still to come. -/
def await (r : Reading) (option : ValueOption) : Except Refusal Reading := do
  return { taken := ← r.settle, pending := some (option, none) }

/-- Take an option with its value. -/
def assign (r : Reading) (option : ValueOption) (value : String) : Except Refusal Reading := do
  return { taken := ← (← r.settle).assign option value }

/-- Take an option that has no value. -/
def turnOn (r : Reading) (switch : Switch) : Except Refusal Reading := do
  let taken ← r.settle
  match switch with
  | .json =>
    if taken.json then .error (.repeated switch.usage)
    else return { taken := { taken with json := true } }
  | .help => .error .helpAsked
  | .version => .error .versionAsked

/-- Take options by their letters; what follows a letter that takes a value is the value. -/
def letters (r : Reading) : List Char → Except Refusal Reading
  | [] => .ok r
  | 'c' :: [] => r.await .config
  | 'c' :: '=' :: value => r.assign .config (String.ofList value)
  | 'c' :: value => r.assign .config (String.ofList value)
  | 'h' :: rest => do (← r.turnOn .help).letters rest
  | 'V' :: rest => do (← r.turnOn .version).letters rest
  | c :: _ => .error (.unknownArgument (String.ofList ['-', c]))

def longOption? : String → Option (ValueOption ⊕ Switch)
  | "config" => some (.inl .config)
  | "run-ms" => some (.inl .runMillis)
  | "log-dir" => some (.inl .logDir)
  | "json" => some (.inr .json)
  | "help" => some (.inr .help)
  | "version" => some (.inr .version)
  | _ => none

/-- Take an option by its long name. -/
def long (r : Reading) (name : String) (value : Option String) : Except Refusal Reading :=
  match longOption? name, value with
  | some (.inl option), some value => r.assign option value
  | some (.inl option), none => r.await option
  | some (.inr switch), some value => .error (.surplusValue switch value)
  | some (.inr switch), none => r.turnOn switch
  | none, _ => .error (.unknownArgument ("--" ++ name))

/-- The part of an argument behind an equals sign, if it has one. -/
def valuePart : List Char → Option String
  | '=' :: value => some (String.ofList value)
  | _ => none

/-- Read the arguments. Behind a double dash no argument is known. -/
def all (r : Reading) : List String → Except Refusal CommandLine
  | [] => r.settle
  | argument :: rest => match argument.toList with
    | ['-', '-'] => match rest with
      | [] => r.settle
      | next :: _ => .error (.unknownArgument next)
    | '-' :: '-' :: cs => do
      let name := String.ofList (cs.takeWhile (· != '='))
      (← r.long name (valuePart (cs.dropWhile (· != '=')))).all rest
    | '-' :: c :: cs => do (← r.letters (c :: cs)).all rest
    | _ => match r.pending with
      | some (option, none) => { r with pending := some (option, some argument) }.all rest
      | _ => .error (.unknownArgument argument)

end Reading

/-- Read the arguments of the program. The environment can give the path of the settings where no
argument does. -/
def ofArguments (arguments : List String) (environmentConfig : Option String) :
    Except Refusal CommandLine := do
  let line ← Reading.all {} arguments
  match line.config, environmentConfig with
  | none, some value => line.assign .config value
  | _, _ => return line

end CommandLine
end EventEngine
