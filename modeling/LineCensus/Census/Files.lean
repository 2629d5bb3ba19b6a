import LineCensus.Census
import LineCensus.FileTree
import LineCensus.Log
import LineCensus.Text.ByteLines

/-!
# Counting the files of a tree

`Census.ofFiles` counts the lines of files of a tree and reports each step. Reports are never
refused, so a run over files does not fail; a file that cannot be read is skipped.
-/

namespace LineCensus

/-- Reads the file at a path line by line. -/
def FileTree.visit (t : FileTree) (path : Text) : Except Failure ByteLines.Visited :=
  match t.read path with
  | .ok bytes => .ok (ByteLines.visit bytes)
  | .error e => .error (.fileRead path e)

/-- The lines of the file at a path. -/
def FileTree.contents (t : FileTree) (path : Text) : Contents :=
  match t.visit path with
  | .ok visited => ⟨visited.lines, none⟩
  | .error f => ⟨[], some f⟩

namespace Census

/-- What is reported when `n` files are to be counted. -/
def listedRecord (n : Nat) : Log.Record := ⟨.debug, .census, "counting " ++ toString n ++ " file(s)"⟩

/-- What is reported about a step. -/
def Call.record : Call → Log.Record
  | file path => ⟨.info, .progress, "Parsing file " ++ path.toString⟩
  | skipped path reason => ⟨.warning, .progress, "skipping " ++ path.toString ++ ": " ++ reason⟩
  | complete t =>
    ⟨.debug, .progress, "finished " ++ toString t.files ++ " file(s): " ++ toString t.blank ++ " blank, " ++
      toString t.comment ++ " comment, " ++ toString t.code ++ " code"⟩

/-- Counts the lines of files of a tree, and gives what is reported. -/
def ofFiles (m : Markers) (t : FileTree) (paths : List Text) :
    Except Stuck (List Log.Record × Except Failure Census) := do
  let (result, calls) ← run m t.contents (some .accepting) (.ok paths)
  return (listedRecord paths.length :: calls.map Call.record, result)

end Census

end LineCensus
