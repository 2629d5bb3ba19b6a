import LineCensus.Walk
import LineCensus.Log
import LineCensus.Text.Case

/-!
# Searching for files

`SearchPlan.run` walks through the roots of a plan and lists the files whose extension the plan
names, sorted by path, each path once. The extension is the text behind the last dot of the name, or
the whole name; upper and lower case are not told apart. Of two spellings of one path the one found
first is kept.
-/

namespace LineCensus

/-- Where to search, and for what. -/
structure SearchPlan where
  roots : List Text
  extensions : List Text
  options : WalkOptions
  deriving DecidableEq, Repr

/-- A file that was found. -/
structure FoundFile where
  path : Text
  extension : Text
  name : Text
  size : Nat
  deriving DecidableEq, Repr

namespace SearchPlan

/-- The extension by which a file of this name is listed. -/
def extensionKey (name : Text) : Text := Text.lower (Text.afterLast '.' name)

/-- The plan names the extension of files of this name. -/
def names (plan : SearchPlan) (name : Text) : Bool := (plan.extensions.map Text.lower).contains (extensionKey name)

/-- The file that a visit finds, if the plan names its extension. -/
def found? (plan : SearchPlan) : Walk.Visit → Option FoundFile
  | .file path name size => if plan.names name then some ⟨path, extensionKey name, name, size⟩ else none
  | _ => none

/-- What is reported about a visit. -/
def record? : Walk.Visit → Option Log.Record
  | .directory path => some ⟨.info, .search, "Entering directory " ++ path.toString⟩
  | .fault f => some ⟨.warning, .search, "walk error: " ++ f.message⟩
  | .file .. => none

/-- What is met below a root; `none` if the root does not exist. -/
def visits? (t : FileTree) (plan : SearchPlan) (root : Text) : Option (List Walk.Visit) :=
  if t.contains root then some (Walk.run t plan.options root) else none

/-- The files below all roots, in the order in which they are met. -/
def allFound (t : FileTree) (plan : SearchPlan) : List FoundFile :=
  plan.roots.flatMap fun root => ((visits? t plan root).getD []).filterMap plan.found?

/-- Keeps the first of neighbours with the same path. -/
def dropRepeated : List FoundFile → List FoundFile
  | [] => []
  | f :: rest =>
    f :: (dropRepeated rest).dropWhile fun g => decide (Path.Same f.path g.path)

/-- The files of a plan, sorted by path, each path once. -/
def files (t : FileTree) (plan : SearchPlan) : List FoundFile :=
  dropRepeated ((plan.allFound t).mergeSort fun f g => (Path.compare f.path g.path).isLE)

/-- What is reported about a search. -/
def records (t : FileTree) (plan : SearchPlan) : List Log.Record :=
  plan.roots.flatMap fun root =>
    match visits? t plan root with
    | none => [⟨.warning, .search, root.toString ++ " does not exist, skipping"⟩]
    | some visits => visits.filterMap record?

end SearchPlan

end LineCensus
