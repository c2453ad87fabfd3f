import SemanticHighlight.CommandLine.Run

/-!
# The command line

What reads files and writes lines. All that is decided is decided elsewhere.
-/

namespace SemanticHighlight.CommandLine

/-- How the program is called. -/
def usage : String := "\n".intercalate
  ["Inspect how search requests and responses flow through semantic highlighting",
   "",
   "Usage: neural-highlight [OPTIONS] <COMMAND>",
   "",
   "Commands:",
   "  split <REQUEST_FILE>",
   "  resolve <REQUEST_FILE>",
   "  extract <REQUEST_FILE> --field <FIELD>",
   "  merge --response <RESPONSE_FILE> --results <RESULTS_FILE> [--took-ms <TOOK_MS>]",
   "  help [COMMAND]",
   "",
   "Options:",
   "  -v, --verbose                 More output; may be repeated",
   "  -q, --quiet                   Little output",
   "  -f, --format <human|json>     How the result is written",
   "      --pretty                  Write JSON over several lines",
   "  -c, --config <SETTINGS_FILE>  Highlight settings file (JSON)",
   "  -h, --help                    Print help",
   "  -V, --version                 Print version"]

/-- The name of the program and its version. -/
def version : String := "neural-highlight 0.1.0"

/-- The text of a file. -/
def readFile (path : String) : IO (Except Failure String) := do
  try
    return textOfBytes (← IO.FS.readBinFile path)
  catch
    | .noFileOrDirectory .. => return .error noSuchFile
    | e => return .error (.io (toString e))

/-- The texts of files. -/
def readFiles (paths : List String) : IO Files := do
  let texts ← paths.mapM fun path => return (path, ← readFile path)
  return fun path =>
    match texts.find? (·.1 = path) with
    | some (_, text) => text
    | none => .error noSuchFile

/-- A command is run, and its report, warnings and failure are written. -/
def execute (i : Invocation) : IO UInt32 := do
  let outcome := i.command.run (← readFiles (i.command.paths i.options)) i.options
  if 0 < i.options.verbosity then
    outcome.warnings.forM fun warning => IO.eprintln ("[WARN] " ++ warning)
  IO.print (outcome.written i.options)
  match outcome.report with
  | .ok _ => return 0
  | .error f =>
    IO.eprintln ("Error: " ++ f.text)
    return 1

end SemanticHighlight.CommandLine

/-- What the arguments ask for is done. -/
def main (args : List String) : IO UInt32 := do
  match SemanticHighlight.CommandLine.Invocation.ofArguments args with
  | .ok i => SemanticHighlight.CommandLine.execute i
  | .error .help =>
    IO.println SemanticHighlight.CommandLine.usage
    return 0
  | .error .version =>
    IO.println SemanticHighlight.CommandLine.version
    return 0
  | .error .invalid =>
    IO.eprintln SemanticHighlight.CommandLine.usage
    return 2
