import LineCensus.Text.Blank
import LineCensus.Text.Case

/-!
# Log records

The parts of the program report what they do as `Log.Record`s, in order. A record is shown on a line
of its own (`Record.line`), if its level and source pass a `Filter`.

A filter is a list of `Directive`s. Each gives a limit to the sources whose names begin in some way;
of several that apply to a source the one that says most about the name counts. The user writes them
separated by commas (`Filter.read`).
-/

namespace LineCensus.Log

/-- How much a record matters. -/
inductive Level where
  | error
  | warning
  | info
  | debug
  deriving DecidableEq, Repr

/-- The part of the program that reports. -/
inductive Source where
  | program
  | configuration
  | search
  | progress
  | census
  deriving DecidableEq, Repr

/-- A report. -/
structure Record where
  level : Level
  source : Source
  message : String
  deriving DecidableEq, Repr

/-- The greater, the less a record matters. -/
def Level.rank : Level → Nat
  | error => 1
  | warning => 2
  | info => 3
  | debug => 4

/-- The name of a level. -/
def Level.name : Level → String
  | error => "ERROR"
  | warning => "WARN"
  | info => "INFO"
  | debug => "DEBUG"

/-- The name under which a part of the program reports. -/
def Source.name : Source → String
  | program => "line_tally::app"
  | configuration => "line_tally_infra::config"
  | search => "line_tally_infra::filesystem"
  | progress => "line_tally_infra::progress"
  | census => "line_tally_usecase::orchestrator"

/-- A text in which all lines but the first are indented by four spaces. -/
def hang (message : String) : String :=
  Text.toString (['\n', ' ', ' ', ' ', ' '].intercalate (message.toList.splitOn '\n'))

/-- The line that shows a record: names of levels are filled up to five characters, and further
lines of the message are indented. -/
def Record.line (r : Record) : String :=
  "[" ++ r.level.name ++ String.ofList (List.replicate (5 - r.level.name.length) ' ') ++ " " ++ r.source.name ++
    "] " ++ hang r.message

/-! ### Filters -/

/-- Lets records up to a rank pass, of the sources whose names begin with a text. -/
structure Directive where
  beginning : Text
  limit : Nat
  deriving DecidableEq, Repr

/-- Says which records are shown. -/
abbrev Filter := List Directive

/-- The words for limits. -/
def limits : List (String × Nat) :=
  [("off", 0), ("error", 1), ("warn", 2), ("info", 3), ("debug", 4), ("trace", 5)]

/-- The limit of a word in any case. -/
def limit? (word : Text) : Option Nat := limits.lookup (Text.lowerAscii word).toString

/-- The limit that lets every record pass. -/
def unlimited : Nat := 5

namespace Filter

/-- The same limit for all sources. -/
def upTo (limit : Nat) : Filter := [⟨[], limit⟩]

/-- The directive that a text stands for: a limit, a name, or a name with a limit behind `=`. -/
def directive? (t : Text) : Option Directive :=
  match t.splitOn '=' with
  | [word] =>
    match limit? word with
    | some limit => some ⟨[], limit⟩
    | none => some ⟨word, unlimited⟩
  | [name, word] =>
    if Text.trim word = [] then some ⟨name, unlimited⟩
    else (limit? (Text.trim word)).map (⟨name, ·⟩)
  | _ => none

/-- Replaces the directive for the same names, or adds one. -/
def set (f : Filter) (d : Directive) : Filter := f.filter (·.beginning ≠ d.beginning) ++ [d]

/-- Adds the directives of a text; what is no directive says nothing. -/
def read (f : Filter) (spec : Text) : Filter :=
  (((spec.splitOn ',').map Text.trim).filter (· ≠ [])).foldl
    (fun f t => ((directive? t).map (set f)).getD f) f

/-- Of two directives the one with the longer beginning, or the second. -/
def closer (d e : Directive) : Directive := if e.beginning.length < d.beginning.length then d else e

/-- The limit for a source. -/
def limit (f : Filter) (s : Source) : Nat :=
  ((f.filter (·.beginning.isPrefixOf s.name.toList)).foldl closer ⟨[], 0⟩).limit

/-- The record is shown. -/
def shows (f : Filter) (r : Record) : Bool := r.level.rank ≤ f.limit r.source

end Filter

end LineCensus.Log
