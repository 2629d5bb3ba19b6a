import LineCensus.Path
import LineCensus.SystemError

/-!
# File trees

A `FileTree.Node` is a file, a link, or a directory with named children. A `FileTree` is the
directory at the top together with the location of the working directory. A location is the list of
names that leads to a node from the top, without links.

`FileTree.locate` follows a path as the operating system does: `.` and `..` are steps like any
other, links are followed one after the other up to a limit, and a path that ends with a slash must
lead to a directory. Reading and writing files is built on it.
-/

namespace LineCensus

/-- The names that lead to a node. -/
abbrev Location := List Text

namespace FileTree

/-- A file, a link, or a directory. -/
inductive Node where
  | file (bytes : List UInt8)
  | link (target : Text)
  | directory (children : List (Text × Node))

namespace Node

/-- The node is a directory. -/
def isDirectory : Node → Bool
  | directory _ => true
  | _ => false

/-- The children of a directory; other nodes have none. -/
def children : Node → List (Text × Node)
  | directory cs => cs
  | _ => []

/-- The node at a location. -/
def at? (n : Node) : Location → Option Node
  | [] => some n
  | name :: rest =>
    match n.children.lookup name with
    | some c => c.at? rest
    | none => none

/-- Replaces the child of that name, or adds it at the end. -/
def setChild (name : Text) (c : Node) : List (Text × Node) → List (Text × Node)
  | [] => [(name, c)]
  | (k, d) :: rest => if k = name then (k, c) :: rest else (k, d) :: setChild name c rest

/-- Puts a node at a location whose directory exists. -/
def put (n : Node) (new : Node) : Location → Node
  | [] => new
  | [name] => directory (setChild name new n.children)
  | name :: rest =>
    match n.children.lookup name with
    | some c => directory (setChild name (c.put new rest) n.children)
    | none => n

/-- Takes the node at a location away. -/
def erase (n : Node) : Location → Node
  | [] => n
  | [name] => directory (n.children.filter fun c => c.1 ≠ name)
  | name :: rest =>
    match n.children.lookup name with
    | some c => directory (setChild name (c.erase rest) n.children)
    | none => n

mutual

/-- The number of nodes in a node. -/
def count : Node → Nat
  | directory cs => countAll cs + 1
  | _ => 1

/-- The number of nodes in a list of children. -/
def countAll : List (Text × Node) → Nat
  | [] => 0
  | (_, c) :: rest => c.count + countAll rest

end

end Node

end FileTree

/-- A tree, and the working directory in it. -/
structure FileTree where
  top : FileTree.Node
  workingDirectory : Location

namespace FileTree

/-- The tree that holds nothing but an empty working directory. -/
def empty : FileTree := ⟨.directory [], []⟩

/-- The node at a location. -/
def at? (t : FileTree) (l : Location) : Option Node := t.top.at? l

/-- The steps of a path. One that ends with a slash ends with a step to the directory itself. -/
def steps (p : Text) : List Text :=
  (p.splitOn '/').filter (· ≠ []) ++ (if p.getLast? = some '/' then [['.']] else [])

/-- Where a path begins. -/
def origin (t : FileTree) (p : Text) : Location := if p.head? = some '/' then [] else t.workingDirectory

/-- Follows steps from a location. At most `links` links are followed; a link in the last step is
followed only if `follow`. -/
def walkSteps (t : FileTree) (follow : Bool) (links : Nat) (l : Location) :
    List Text → Except SystemError Location
  | [] => .ok l
  | step :: rest =>
    if !((t.at? l).any Node.isDirectory) then .error .notDirectory
    else if step = ['.'] then t.walkSteps follow links l rest
    else if step = ['.', '.'] then t.walkSteps follow links l.dropLast rest
    else
      match t.at? (l ++ [step]) with
      | none => .error .missing
      | some (.link target) =>
        if rest = [] ∧ ¬ follow then .ok (l ++ [step])
        else
          match links with
          | 0 => .error .tooManyLinks
          | links + 1 =>
            if target = [] then .error .missing
            else t.walkSteps follow links (if target.head? = some '/' then [] else l) (steps target ++ rest)
      | some _ => t.walkSteps follow links (l ++ [step]) rest
  termination_by ss => (links, ss.length)

/-- The number of links that may be followed on one path. -/
def linkLimit : Nat := 40

/-- The location that a path leads to; if it ends at a link, this is followed only if `follow`. -/
def locate (t : FileTree) (follow : Bool) (p : Text) : Except SystemError Location :=
  if p = [] then .error .missing else t.walkSteps follow linkLimit (t.origin p) (steps p)

/-- The node that a path leads to. -/
def find (t : FileTree) (p : Text) : Except SystemError Node := do
  match t.at? (← t.locate true p) with
  | some n => return n
  | none => throw .missing

/-- The path leads to a node. -/
def contains (t : FileTree) (p : Text) : Bool := (t.find p).isOk

/-- The bytes of the file that a path leads to. -/
def read (t : FileTree) (p : Text) : Except SystemError (List UInt8) := do
  match ← t.find p with
  | .file bytes => return bytes
  | _ => throw .isDirectory

/-! ### Changes -/

/-- Makes the directories that lead from one location through names to another. -/
def makeDirectoriesFrom (t : FileTree) (l : Location) : List Text → FileTree
  | [] => t
  | step :: rest =>
    match t.walkSteps true linkLimit l [step] with
    | .ok m => t.makeDirectoriesFrom m rest
    | .error _ => makeDirectoriesFrom { t with top := t.top.put (.directory []) (l ++ [step]) } (l ++ [step]) rest

/-- Makes a directory and those that lead to it. -/
def makeDirectories (t : FileTree) (p : Text) : FileTree := t.makeDirectoriesFrom (t.origin p) (steps p)

/-- The path without its last step. -/
def parentSteps (p : Text) : List Text := (steps p).dropLast

/-- Puts a node at the end of a path. A file takes the place of what a link there leads to. -/
def place (t : FileTree) (p : Text) (new : Node) : FileTree :=
  let t := t.makeDirectoriesFrom (t.origin p) (parentSteps p)
  let target :=
    match new with
    | .file _ => t.locate true p
    | _ => t.locate false p
  match target with
  | .ok l => { t with top := t.top.put new l }
  | .error _ =>
    match t.walkSteps true linkLimit (t.origin p) (parentSteps p), (steps p).getLast? with
    | .ok l, some name => { t with top := t.top.put new (l ++ [name]) }
    | _, _ => t

/-- Writes a file. -/
def write (t : FileTree) (p : Text) (bytes : List UInt8) : FileTree := t.place p (.file bytes)

/-- Makes a link. -/
def link (t : FileTree) (p target : Text) : FileTree := t.place p (.link target)

/-- Removes what a path leads to; a link at its end is removed itself. -/
def remove (t : FileTree) (p : Text) : FileTree :=
  match t.locate false p with
  | .ok l => { t with top := t.top.erase l }
  | .error _ => t

end FileTree

end LineCensus
