import LineCensus.Census
import LineCensus.Number.Shortest
import LineCensus.Json.Value

/-!
# Reports

A report shows the result of a run, as a table to read (`Report.table`) or as a JSON document
(`Report.json`). The table rounds percentages to one place, the document gives them in full. The
document names the time at which it was made, which is passed in.
-/

namespace LineCensus.Report

/-- The version of the program. -/
def version : String := "0.3.0"

/-- The line of a bucket. -/
def bucketLine (t : Tally) (b : Bucket) : String :=
  b.label ++ " lines: " ++ toString (t.count b) ++ " (" ++ ((t.share b).fixed 1).toString ++ "%)\n"

/-- The lines about skipped files. -/
def skippedLines (c : Census) : String :=
  if c.skipped = [] then ""
  else
    "\nSkipped " ++ toString c.skipped.length ++ " of " ++ toString c.discovered ++ " file(s):\n" ++
      String.join (c.skipped.map fun s => "  " ++ s.path.toString ++ ": " ++ s.reason ++ "\n")

/-- The result of a run as a table. -/
def table (c : Census) : String :=
  "line_tally v" ++ version ++ "\n\nNumber of files searched: " ++ toString c.tally.files ++
    "\nTotal number of lines: " ++ toString c.tally.total ++ "\n" ++
    bucketLine c.tally .blank ++ bucketLine c.tally .comment ++ bucketLine c.tally .code ++ skippedLines c

/-- A skipped file in the document. -/
def skippedValue (s : Skipped) : Json.Value :=
  .object [("path", .string s.path), ("reason", .string s.reason.toList)]

/-- The result of a run as a JSON value. -/
def value (generatedAt : String) (c : Census) : Json.Value :=
  let t := c.tally
  .object
    [("version", .string version.toList), ("generated_at", .string generatedAt.toList),
      ("files", .natural t.files), ("lines", .natural t.total), ("blank", .natural t.blank),
      ("comment", .natural t.comment), ("code", .natural t.code),
      ("percentages",
        .object [("blank", .decimal (t.share .blank)), ("comment", .decimal (t.share .comment)),
          ("code", .decimal (t.share .code))]),
      ("skipped", .list (c.skipped.map skippedValue))]

/-- The result of a run as a JSON document. -/
def json (generatedAt : String) (c : Census) : Text := (value generatedAt c).pretty ++ ['\n']

/-- The forms of a report. -/
inductive Format where
  | table
  | json
  deriving DecidableEq, Repr

/-- The text of a report. -/
def render (generatedAt : String) (format : Format) (c : Census) : String :=
  match format with
  | .table => table c
  | .json => (json generatedAt c).toString

end LineCensus.Report
