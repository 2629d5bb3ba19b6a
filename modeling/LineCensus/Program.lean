import LineCensus.Arguments
import LineCensus.Census.Files
import LineCensus.Draft.File
import LineCensus.Search

/-!
# The program

The program joins the arguments with the configuration (`Program.settings`), searches for files,
counts their lines and renders a report (`Program.run`). `Program.outcome` is all that a user sees of
it: the exit code, the report, and the lines on the error channel.

Everything happens on a `FileTree`, and what is reported along the way is part of the result. The
time at which a report is made is passed in.
-/

namespace LineCensus

/-- The draft with the lists of the arguments in place of its own, where they give any. -/
def Arguments.override (a : Arguments) (d : Draft) : Draft :=
  { d with
    directories := if a.directories = [] then d.directories else a.directories
    extensions := if a.extensions = [] then d.extensions else a.extensions
    isRecursive := d.isRecursive || a.isRecursive }

/-- The search that arguments and settings ask for. -/
def Arguments.plan (a : Arguments) (s : Settings) : SearchPlan where
  roots := s.directories
  extensions := s.extensions
  options := ⟨s.isRecursive, a.includesHidden, a.followsLinks, a.respectsIgnoreFiles⟩

/-- The reports that arguments ask for, before anything else is asked for. -/
def Arguments.filter (a : Arguments) : Log.Filter :=
  .upTo (if a.isQuiet then Log.Level.error.rank
    else
      match a.verbosity with
      | 0 => Log.Level.warning.rank
      | 1 => Log.Level.info.rank
      | _ => Log.Level.debug.rank)

namespace Program

/-- Why a run ends without a report. -/
inductive Refusal where
  /-- The configuration at this path, with the arguments, asks for nothing that can be done. -/
  | settings (config : Text) (f : Failure)
  | failed (f : Failure)
  deriving Repr

/-- The wording of a refusal, on one line. -/
def Refusal.message : Refusal → String
  | settings config f => "invalid configuration in " ++ config.toString ++ ": " ++ f.bareMessage
  | failed f => f.report

/-- The draft to start from. The configuration may be missing if the arguments say where to search
and for what. -/
def draft (t : FileTree) (a : Arguments) : List Log.Record × Except Failure Draft :=
  if ¬ t.contains a.config ∧ a.directories ≠ [] ∧ a.extensions ≠ [] then
    ([⟨.debug, .program, a.config.toString ++ " not found, using command-line settings only"⟩], .ok .empty)
  else Draft.ofFile t a.config

/-- The settings of a run. -/
def settings (t : FileTree) (a : Arguments) : List Log.Record × Except Refusal Settings :=
  let (records, d) := draft t a
  match d with
  | .error f => (records, .error (.failed f))
  | .ok d => (records, (a.override d).validate.mapError (.settings a.config))

/-- A list of quoted texts; `apostrophes` says whether these are escaped. -/
def quotedList (apostrophes : Bool) (ts : List Text) : String :=
  "[" ++ String.intercalate ", " (ts.map fun t => (Text.quoted apostrophes t).toString) ++ "]"

/-- What is reported about the settings of a run. -/
def settingsRecords (s : Settings) : List Log.Record :=
  ⟨.debug, .program,
    "directories=" ++ quotedList true s.directories ++ " extensions=" ++ quotedList false s.extensions ++
      " recursive=" ++ toString s.isRecursive⟩ ::
  (if s.isRecursive then [⟨.info, .program, "Sub-directories will automatically be added to the search"⟩]
    else [])

/-- Counts what the settings of a run ask for. -/
def count (t : FileTree) (a : Arguments) (s : Settings) :
    Except Stuck (List Log.Record × Except Failure Census) := do
  let plan := a.plan s
  let (records, census) ← Census.ofFiles s.markers t ((plan.files t).map FoundFile.path)
  return (settingsRecords s ++ plan.records t ++ records, census)

/-- Runs the program: what it reports along the way, and the text of its report. -/
def run (t : FileTree) (generatedAt : String) (a : Arguments) :
    Except Stuck (List Log.Record × Except Refusal String) := do
  let (before, s) := settings t a
  match s with
  | .error r => return (before, .error r)
  | .ok s =>
    let (records, census) ← count t a s
    return (before ++ records, (census.map (Report.render generatedAt a.format)).mapError .failed)

/-- What a user sees of a run. -/
structure Outcome where
  exitCode : Nat
  output : String
  /-- The lines on the error channel. -/
  errors : List String

/-- What is said about a value that the program refuses. How other faults of a command line are told, with the
words that are at fault, is left out. -/
def refusedLines : UsageError → List String
  | .refused (.invalidValue flag value reason) =>
    ["error: invalid value '" ++ value ++ "' for '" ++ flag ++ " <JOBS>': " ++
      (Failure.invalidValue flag value reason).bareMessage, ""]
  | _ => []

/-- What a user sees of a command line that gives no arguments. -/
def usageOutcome : UsageError → Outcome
  | .help => ⟨0, Arguments.help, []⟩
  | .version => ⟨0, "line_tally " ++ Report.version ++ "\n", []⟩
  | e => ⟨2, "", refusedLines e ++ ["For more information, try '--help'."]⟩

/-- What a user sees of the program. `words` are the words behind its name, `spec` asks for more or
fewer reports than they do. -/
def outcome (t : FileTree) (spec : Text) (generatedAt : String) (words : List Text) :
    Except Stuck Outcome :=
  match Arguments.ofWords words with
  | .error e => .ok (usageOutcome e)
  | .ok a => do
    let (records, result) ← run t generatedAt a
    let lines := (records.filter (a.filter.read spec).shows).map Log.Record.line
    match result with
    | .ok text => return ⟨0, text, lines⟩
    | .error r => return ⟨1, "", lines ++ ["Application Error: " ++ r.message]⟩

end Program

end LineCensus
