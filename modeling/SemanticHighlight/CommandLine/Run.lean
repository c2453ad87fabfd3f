import SemanticHighlight.CommandLine.Report
import SemanticHighlight.Plain

/-!
# Running a command

A command reads files and makes a report. What is in the files is given, so that a run
is a function of it.
-/

namespace SemanticHighlight.CommandLine

/-- The texts of files by their paths, or why they cannot be read. -/
abbrev Files := String → Except Failure String

/-- The failure of a file that does not exist. -/
def noSuchFile : Failure := .io "No such file or directory (os error 2)"

/-- The failure of a file that is no text. -/
def notText : Failure := .io "stream did not contain valid UTF-8"

/-- The text of the bytes of a file. -/
def textOfBytes (bytes : ByteArray) : Except Failure String :=
  match String.fromUTF8? bytes with
  | some text => .ok text
  | none => .error notText

/-- What a command came to. -/
structure Outcome where
  report : Except Failure Report
  /-- The warnings on the way. -/
  warnings : List String := []

namespace Outcome

/-- A report without warnings, or the failure that came in its place. -/
def quiet (report : Except Failure Report) : Outcome := { report }

def written (o : Options) (outcome : Outcome) : String :=
  match outcome.report with
  | .ok report => report.write o
  | .error _ => ""

end Outcome

namespace Command

/-- The settings of a file, or the usual ones if no file is given. -/
def settings (files : Files) (o : Options) : Except Failure Settings :=
  match o.settings with
  | some path => do Settings.ofText (← files path)
  | none => .ok {}

def request (files : Files) (path : String) : Except Failure Request := do
  Request.ofText (← files path)

def splitReport (r : Request) : Report := .plain r.hasSemantic r.plain.toJson

/-- The configurations that a request resolves to. -/
def resolveOutcome (s : Settings) (r : Request) : Outcome :=
  let (configs, warnings) := (Resolver.ofSettings .builtin s).resolve r
  { report := .ok (.configs (configs.getD [])), warnings := warnings.map (·.text) }

/-- The text that the query of a request holds for a field. -/
def extractReport (field : String) (r : Request) : Except Failure Report :=
  match r.query? with
  | none => .error (.query "request has no query")
  | some q => .ok (.extraction field q.description (q.extract .builtin field))

/-- How many results are applied to a response. -/
def appliedCount (base : Response) (results : List FieldResult) : Nat :=
  results.countP fun r => r.isApplicable && decide (r.hitIndex < base.hits.length)

def mergeOutcome (tookMs : Option UInt64) (base : Response) (results : List FieldResult) :
    Outcome :=
  let applied := appliedCount base results
  { report := .ok (.merged applied (results.length - applied)
      (base.merge results (tookMs.getD base.took)))
    warnings := base.mergeWarnings results }

/-- What becomes of a value that could not be had. -/
def orFailed {α : Type} (value : Except Failure α) (next : α → Outcome) : Outcome :=
  match value with
  | .ok a => next a
  | .error f => .quiet (.error f)

/-- The files that a command reads, in order. -/
def paths (o : Options) : Command → List String
  | split request | extract request _ => [request]
  | resolve request => o.settings.toList ++ [request]
  | merge response results _ => [response, results]

def run (files : Files) (o : Options) : Command → Outcome
  | split path => orFailed (request files path) fun r => .quiet (.ok (splitReport r))
  | resolve path =>
    orFailed (settings files o) fun s =>
      orFailed (request files path) fun r => resolveOutcome s r
  | extract path field =>
    orFailed (request files path) fun r => .quiet (extractReport field r)
  | merge responsePath resultsPath tookMs =>
    orFailed (do orJson (Json.read (← files responsePath) >>= Response.decode)) fun base =>
      orFailed
        (do orJson (Json.read (← files resultsPath) >>= Json.Decode.list FieldResult.decode))
        fun results => mergeOutcome tookMs base results

end Command

end SemanticHighlight.CommandLine
