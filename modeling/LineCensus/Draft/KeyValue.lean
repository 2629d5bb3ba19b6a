import LineCensus.Draft
import LineCensus.Text.Case

/-!
# Configuration lines

The plain configuration format has one `KEY = value` a line. White space around the line, the key
and the value is dropped; empty lines and lines that begin with `#` or `;` say nothing. Keys may be
in any case, and a repeated key adds to its list; of several `RECURSIVE_SEARCH` lines the last one
counts. The first line that cannot be read is reported with its number (`Fault.message`).

Each line is read by itself (`entry?`), and the draft is what the entries add up to (`Draft.add`).
-/

namespace LineCensus.Draft

/-- What one line adds to a draft. -/
inductive Entry where
  | directory (value : Text)
  | extension (value : Text)
  | lineMarker (value : Text)
  | opening (value : Text)
  | closing (value : Text)
  | continuation (value : Text)
  | recursive (value : Bool)
  deriving DecidableEq, Repr

/-- The draft with an entry added. -/
def add (d : Draft) : Entry → Draft
  | .directory v => { d with directories := d.directories ++ [v] }
  | .extension v => { d with extensions := d.extensions ++ [v] }
  | .lineMarker v => { d with markers := { d.markers with line := d.markers.line ++ [v] } }
  | .opening v => { d with markers := { d.markers with openings := d.markers.openings ++ [v] } }
  | .closing v => { d with markers := { d.markers with closings := d.markers.closings ++ [v] } }
  | .continuation v => { d with markers := { d.markers with continuation := d.markers.continuation ++ [v] } }
  | .recursive v => { d with isRecursive := v }

namespace KeyValue

/-- Why a line cannot be read. -/
inductive Fault where
  | noPair
  | unknownKey (key : Text)
  | notBoolean (value : Text)
  deriving DecidableEq, Repr

/-- The wording of the fault of line `n`. -/
def Fault.message (n : Nat) : Fault → String
  | noPair => "line " ++ toString n ++ ": expected KEY = value"
  | unknownKey key => "line " ++ toString n ++ ": unknown key '" ++ key.toString ++ "'"
  | notBoolean value => "line " ++ toString n ++ ": '" ++ value.toString ++ "' is not a boolean"

/-- The words for yes and no, in any case. -/
def boolean? (value : Text) : Option Bool :=
  let word := (Text.lowerAscii value).toString
  if word ∈ ["true", "yes", "1", "on"] then some true
  else if word ∈ ["false", "no", "0", "off"] then some false
  else none

/-- The entry of a key, which is in upper case, and its value. -/
def Entry.ofPair (key value : Text) : Except Fault Entry :=
  match key.toString with
  | "DIRECTORY" => .ok (.directory value)
  | "EXTENSION" => .ok (.extension value)
  | "COMMENT" => .ok (.lineMarker value)
  | "BLOCK_COMMENT_START" => .ok (.opening value)
  | "BLOCK_COMMENT_END" => .ok (.closing value)
  | "CONTINUATION" => .ok (.continuation value)
  | "RECURSIVE_SEARCH" =>
    match boolean? value with
    | some b => .ok (.recursive b)
    | none => .error (.notBoolean value)
  | _ => .error (.unknownKey key)

/-- The line says nothing: it is empty, or begins with `#` or `;`. -/
def isSilent (line : Text) : Bool := line = [] || line.head? = some '#' || line.head? = some ';'

/-- What a line says, if anything. -/
def entry? (raw : Text) : Except Fault (Option Entry) :=
  let line := Text.trim raw
  if isSilent line then .ok none
  else
    match Text.splitFirst? '=' line with
    | none => .error .noPair
    | some (key, value) => (Entry.ofPair (Text.upperAscii (Text.trim key)) (Text.trim value)).map some

/-- Adds the lines to a draft, `n` being the number of the first; a fault comes with its line. -/
def addLines (d : Draft) (n : Nat) : List Text → Except (Nat × Fault) Draft
  | [] => .ok d
  | line :: rest =>
    match entry? line with
    | .error fault => .error (n, fault)
    | .ok none => addLines d (n + 1) rest
    | .ok (some e) => addLines (d.add e) (n + 1) rest

/-- The draft of a text. -/
def parse (t : Text) : Except (Nat × Fault) Draft := addLines .empty 1 (Text.lines t)

end KeyValue

end LineCensus.Draft
