/-!
# Arguments

The arguments of the command line name one of four commands, what it needs, and options
that hold for all of them. `Invocation.ofArguments` reads them from left to right, and
the first thing wrong, or the first request for help, decides.

An option stands alone or with a value. Its value follows an equals sign or is the next
argument; options of one letter may be joined, the last with its value. Nothing but the
option for more output may be given twice at one place, but an option that holds for all
commands may be given before the command and after it, and then the latter counts.
-/

namespace SemanticHighlight.CommandLine

/-- How a result is written. -/
inductive Format where
  | human
  | json
deriving DecidableEq, Repr

namespace Format

/-- The name of a way to write a result. -/
def name : Format → String
  | human => "human"
  | json => "json"

/-- The ways to write a result by their names. -/
def ofName? (s : String) : Option Format := [human, json].find? (·.name = s)

end Format

/-- The options that hold for all commands. -/
structure Options where
  /-- How often more output is asked for, up to 255 times. -/
  verbose : Nat := 0
  quiet : Bool := false
  format : Format := .human
  /-- Whether JSON is written over several lines. -/
  pretty : Bool := false
  /-- The file of the settings. -/
  settings : Option String := none
deriving DecidableEq, Repr

namespace Options

/-- How much is written: nothing beside the result if 0. -/
def verbosity (o : Options) : Nat :=
  if o.quiet then 0 else if o.verbose = 0 then 1 else o.verbose

end Options

/-- A command and what it needs. -/
inductive Command where
  /-- Write the plain request of the request in a file. -/
  | split (request : String)
  /-- Write the configurations that the request in a file resolves to. -/
  | resolve (request : String)
  /-- Write the text that the query of the request in a file holds for a field. -/
  | extract (request field : String)
  /-- Write the response in a file with the results in a file. -/
  | merge (response results : String) (tookMs : Option UInt64)
deriving DecidableEq, Repr

/-- What is to be done. -/
structure Invocation where
  options : Options
  command : Command
deriving DecidableEq, Repr

/-- Why nothing is to be done. -/
inductive Usage where
  /-- Help is asked for, or there are no arguments. -/
  | help
  | version
  /-- The arguments make no sense. -/
  | invalid
deriving DecidableEq, Repr

/-- An option. -/
inductive Key where
  | verbose
  | quiet
  | format
  | pretty
  | settings
  | field
  | response
  | results
  | tookMs
  | help
  | version
deriving DecidableEq, Repr

namespace Key

/-- The name of an option. -/
def name : Key → String
  | verbose => "verbose"
  | quiet => "quiet"
  | format => "format"
  | pretty => "pretty"
  | settings => "config"
  | field => "field"
  | response => "response"
  | results => "results"
  | tookMs => "took-ms"
  | help => "help"
  | version => "version"

def letter? : Key → Option Char
  | verbose => some 'v'
  | quiet => some 'q'
  | format => some 'f'
  | settings => some 'c'
  | help => some 'h'
  | version => some 'V'
  | _ => none

/-- Whether an option has a value. -/
def hasValue : Key → Bool
  | format | settings | field | response | results | tookMs => true
  | _ => false

/-- The number that a text of digits names, a plus sign going before it or not. -/
def milliseconds? (value : String) : Option UInt64 :=
  let digits : List Char :=
    match value.toList with
    | '+' :: cs => cs
    | cs => cs
  let n := digits.foldl (fun n c => 10 * n + (c.toNat - '0'.toNat)) 0
  if digits ≠ [] ∧ digits.all Char.isDigit ∧ n < UInt64.size then some (UInt64.ofNat n) else none

/-- Whether an option can have a value. -/
def accepts (key : Key) (value : String) : Bool :=
  match key with
  | format => (Format.ofName? value).isSome
  | settings | response | results => value ≠ ""
  | tookMs => (milliseconds? value).isSome
  | _ => true

/-- The options that hold for all commands. -/
def common : List Key := [verbose, quiet, format, pretty, settings]

end Key

/-- The name of a command. -/
inductive Verb where
  | split
  | resolve
  | extract
  | merge
deriving DecidableEq, Repr

namespace Verb

/-- How a command is called. -/
def name : Verb → String
  | split => "split"
  | resolve => "resolve"
  | extract => "extract"
  | merge => "merge"

/-- The command of a name. -/
def ofName? (s : String) : Option Verb := [split, resolve, extract, merge].find? (·.name = s)

/-- The options that a command has for itself. -/
def keys : Verb → List Key
  | split | resolve => []
  | extract => [.field]
  | merge => [.response, .results, .tookMs]

/-- Whether a command needs a file beside its options. -/
def takesFile : Verb → Bool
  | merge => false
  | _ => true

end Verb

/-- What has been read so far, before the command or after it. -/
structure Reading where
  /-- The options and their values, in order. -/
  given : List (Key × String) := []
  /-- An option whose value is the next argument. -/
  waiting : Option Key := none
  /-- An option whose value was the last argument, and is not yet checked. -/
  unchecked : Option (Key × String) := none
  /-- The file that the command needs. -/
  file : Option String := none
  /-- Whether no argument is an option any more. -/
  literal : Bool := false

namespace Reading

/-- An option with a value joins the others. -/
def give (r : Reading) (key : Key) (value : String) : Except Usage Reading :=
  if key.accepts value && (key = .verbose || !r.given.any (·.1 = key)) then
    .ok { r with given := r.given ++ [(key, value)] }
  else
    .error .invalid

/-- What is not yet checked is checked. -/
def settle (r : Reading) : Except Usage Reading :=
  match r.unchecked with
  | some (key, value) => { r with unchecked := none }.give key value
  | none => .ok r

/-- An option without a value is read. -/
def flag (r : Reading) (key : Key) : Except Usage Reading := do
  let r ← r.settle
  match key with
  | .help => .error .help
  | .version => .error .version
  | key => r.give key ""

/-- An option with its value is read. -/
def assign (r : Reading) (key : Key) (value : String) : Except Usage Reading := do
  (← r.settle).give key value

/-- An option is read whose value is the next argument. -/
def await (r : Reading) (key : Key) : Except Usage Reading := do
  .ok { ← r.settle with waiting := some key }

/-- An option is read by its name, with the value after an equals sign if there is one. -/
def long (keys : List Key) (r : Reading) (name : List Char) : Except Usage Reading :=
  let (name, rest) := (name.takeWhile (· ≠ '='), name.dropWhile (· ≠ '='))
  match keys.find? (·.name = String.ofList name), rest with
  | none, _ => .error .invalid
  | some key, [] => if key.hasValue then r.await key else r.flag key
  | some key, _ :: value =>
    if key.hasValue then r.assign key (String.ofList value) else .error .invalid

/-- Options are read by their letters, the last with the value that follows it. -/
def short (keys : List Key) : Reading → List Char → Except Usage Reading
  | r, [] => .ok r
  | r, c :: cs =>
    match keys.find? (·.letter? = some c) with
    | none => .error .invalid
    | some key =>
      if key.hasValue then
        match cs with
        | [] => r.await key
        | '=' :: value => r.assign key (String.ofList value)
        | value => r.assign key (String.ofList value)
      else do short keys (← r.flag key) cs

def operand (takesFile : Bool) (r : Reading) (arg : String) : Except Usage Reading := do
  let r ← r.settle
  if takesFile && r.file.isNone && arg ≠ "" then .ok { r with file := some arg }
  else .error .invalid

def read (keys : List Key) (takesFile : Bool) (r : Reading) (arg : String) :
    Except Usage Reading :=
  match r.literal, r.waiting, arg.toList with
  | true, _, _ => r.operand takesFile arg
  | _, some _, '-' :: _ :: _ => .error .invalid
  | _, some key, _ => .ok { r with waiting := none, unchecked := some (key, arg) }
  | _, none, ['-', '-'] => .ok { r with literal := true }
  | _, none, '-' :: '-' :: name => r.long keys name
  | _, none, '-' :: c :: cs => r.short keys (c :: cs)
  | _, none, _ => r.operand takesFile arg

/-- There are no arguments any more. -/
def finish (r : Reading) : Except Usage Reading :=
  if r.waiting.isSome then .error .invalid else r.settle

/-- The last value of an option. -/
def value? (r : Reading) (key : Key) : Option String :=
  (r.given.reverse.find? (·.1 = key)).map (·.2)

/-- How often an option is given. -/
def count (r : Reading) (key : Key) : Nat := r.given.countP (·.1 = key)

end Reading

namespace Options

/-- The options given before the command and after it. -/
def ofReadings (before after : Reading) : Options :=
  let value? (key : Key) : Option String := (after.value? key).or (before.value? key)
  let count := after.count .verbose
  { verbose := min 255 (if count = 0 then before.count .verbose else count)
    quiet := (value? .quiet).isSome
    format := ((value? .format).bind Format.ofName?).getD .human
    pretty := (value? .pretty).isSome
    settings := value? .settings }

end Options

namespace Command

/-- The command of what was read after its name, if nothing is missing. -/
def ofReading? (verb : Verb) (r : Reading) : Option Command :=
  match verb with
  | .split => r.file.map split
  | .resolve => r.file.map resolve
  | .extract => do some (extract (← r.file) (← r.value? .field))
  | .merge => do
    let tookMs := (r.value? .tookMs).bind Key.milliseconds?
    some (merge (← r.value? .response) (← r.value? .results) tookMs)

end Command

namespace Invocation

/-- The arguments after the name of a command. -/
def ofVerb (before : Reading) (verb : Verb) (args : List String) : Except Usage Invocation := do
  let keys := Key.common ++ verb.keys ++ [.help]
  let after ← (← args.foldlM (Reading.read keys verb.takesFile) {}).finish
  match Command.ofReading? verb after with
  | none => .error .invalid
  | some command => do
    let before ← before.settle
    .ok { options := .ofReadings before after, command }

/-- What is asked for by the word `help` and the arguments after it: the name of a
command may follow, and nothing else. -/
def helpOf : List String → Usage
  | [] => .help
  | [name] => if (Verb.ofName? name).isSome || name = "help" then .help else .invalid
  | _ => .invalid

/-- The arguments before the name of a command, and the command. -/
def ofRest (before : Reading) : List String → Except Usage Invocation
  | [] => do
    let r ← before.finish
    .error (if r.given.isEmpty then .help else .invalid)
  | arg :: rest =>
    if !before.literal && before.waiting.isNone && arg = "help" then .error (helpOf rest)
    else
      match if before.literal || before.waiting.isSome then none else Verb.ofName? arg with
      | some verb => ofVerb before verb rest
      | none => do ofRest (← before.read (Key.common ++ [.help, .version]) false arg) rest

/-- What arguments ask for. -/
def ofArguments (args : List String) : Except Usage Invocation := ofRest {} args

end Invocation

end SemanticHighlight.CommandLine
