import Std.Data.HashSet.Basic
import Std.Time.Format
import Std.Time.Zoned
import LineCensus.Program

/-!
# The command line program

The outer layer takes from the disk what a run may look at, runs the program on it and prints what
it gives. Of a searched directory all names are taken, but only the contents of files that may be
counted and of files with ignore rules.
-/

namespace LineCensus

/-- What was taken from the disk so far. -/
structure Snapshot where
  tree : FileTree
  /-- The real paths of all that was taken. -/
  taken : Std.HashSet String

namespace Snapshot

/-- The names that lead to an absolute path. -/
def locationOf (path : String) : Location := FileTree.steps path.toList

/-- Nothing but the working directory. -/
def start (workingDirectory : String) : Snapshot :=
  ⟨{ FileTree.empty.makeDirectories workingDirectory.toList with workingDirectory := locationOf workingDirectory },
    {}⟩

/-- Puts an entry at an absolute path. -/
def put (s : Snapshot) (path : String) (node : FileTree.Node) : Snapshot :=
  { s with tree := s.tree.place path.toList node }

/-- Makes the directory at an absolute path. -/
def enter (s : Snapshot) (path : String) : Snapshot := { s with tree := s.tree.makeDirectories path.toList }

/-- The path that a link leads to without further links, if it leads anywhere. -/
def targetOf (path : String) : IO (Option String) := do
  match ← (IO.FS.realPath path).toBaseIO with
  | .ok target => return some target.toString
  | .error _ => return none

/-- Takes what lies at an absolute path, and all below it. -/
partial def take (wanted : Text → Bool) (path : String) (s : Snapshot) : IO Snapshot := do
  if s.taken.contains path then return s
  let s := { s with taken := s.taken.insert path }
  match ← (System.mkFilePath [path]).symlinkMetadata.toBaseIO with
  | .error _ => return s
  | .ok info =>
    match info.type with
    | .dir =>
      let mut s := s.enter path
      for child in ← (System.mkFilePath [path]).readDir do
        s ← take wanted (path ++ "/" ++ child.fileName) s
      return s
    | .symlink =>
      match ← targetOf path with
      | none => return s.put path (.link [])
      | some target => take wanted target (s.put path (.link target.toList))
    | _ =>
      let bytes ← if wanted (Path.displayName path.toList) then IO.FS.readBinFile path else pure .empty
      return s.put path (.file bytes.toList)

/-- Takes what a path leads to, from the directory `here` on, and the links on the way. -/
def follow (wanted : Text → Bool) (here : String) (s : Snapshot) : List Text → IO Snapshot
  | [] => take wanted (if here = "" then "/" else here) s
  | step :: rest => do
    if step = ['.'] then follow wanted here s rest
    else if step = ['.', '.'] then
      let above := (locationOf here).dropLast
      follow wanted (String.join (above.map fun name => "/" ++ name.toString)) s rest
    else
      let path := here ++ "/" ++ step.toString
      match ← targetOf path with
      | none => return s
      | some target =>
        let s := if target = path then s else s.put path (.link target.toList)
        follow wanted target s rest

/-- Takes what a path leads to. -/
def takePath (wanted : Text → Bool) (workingDirectory : String) (path : Text) (s : Snapshot) : IO Snapshot :=
  follow wanted (if path.head? = some '/' then "" else workingDirectory) s (FileTree.steps path)

/-- Takes the files with ignore rules of all directories above the one at a location. -/
def takeRules (l : Location) (s : Snapshot) : IO Snapshot := do
  let mut s := s
  for n in List.range (l.length + 1) do
    let directory := String.join ((l.take n).map fun name => "/" ++ name.toString)
    for names in [DirectoryRules.ignorePath, DirectoryRules.gitignorePath, DirectoryRules.excludedPath] do
      s ← follow (fun _ => true) directory s names
  return s

/-- Takes what a command line may look at. -/
def ofArguments (workingDirectory : String) (a : Arguments) : IO Snapshot := do
  let mut s ← (start workingDirectory).takePath (fun _ => true) workingDirectory a.config
  match (Program.settings s.tree a).2 with
  | .error _ => return s
  | .ok settings =>
    let plan := a.plan settings
    let ruleNames := [DirectoryRules.ignorePath, DirectoryRules.gitignorePath, DirectoryRules.excludedPath].flatten
    for root in plan.roots do
      s ← s.takePath (fun name => plan.names name || ruleNames.contains name) workingDirectory root
      if plan.options.respectsIgnoreFiles then
        match s.tree.locate true root with
        | .ok l => s ← s.takeRules l
        | .error _ => pure ()
    return s

end Snapshot

/-- Runs the program on what a command line may look at; gives the exit code. -/
def runWords (words : List Text) : IO UInt32 := do
  let workingDirectory := (← IO.currentDir).toString
  let s ←
    match Arguments.ofWords words with
    | .ok a => Snapshot.ofArguments workingDirectory a
    | .error _ => pure (Snapshot.start workingDirectory)
  let spec := ((← IO.getEnv "LINE_TALLY_LOG").getD "").toList
  let now := (← Std.Time.DateTime.now).toISO8601String
  match Program.outcome s.tree spec now words with
  | .error _ =>
    IO.eprintln "Application Error: a line never settles"
    return 1
  | .ok outcome =>
    for line in outcome.errors do IO.eprintln line
    IO.print outcome.output
    return outcome.exitCode.toUInt32

end LineCensus

/-- The program. -/
def main (args : List String) : IO UInt32 := LineCensus.runWords (args.map String.toList)
