import LineCensus.IgnoreRules

/-!
# Walking a tree

`Walk.run` goes through what lies below a path and gives the directories and files it visits, and
the links it cannot follow, in the order in which they are met. Entries that ignore rules leave out
are not visited, nor are hidden ones, unless they are asked for or a rule takes them back in, nor is
anything below such entries. The path itself always is.

Links are followed only on request. A link to a directory that the walk is already in would never
end; it is a fault instead. So a branch of the walk is no deeper than the number of nodes allows
(`fuel`).
-/

namespace LineCensus

/-- What a walk visits, and what it passes over. -/
structure WalkOptions where
  isRecursive : Bool
  includesHidden : Bool
  followsLinks : Bool
  respectsIgnoreFiles : Bool
  deriving DecidableEq, Repr

namespace Walk

/-- Why an entry cannot be visited. -/
inductive Fault where
  | unreachable (path : Text) (cause : SystemError)
  /-- A link to a directory that the walk is in. -/
  | loop (child ancestor : Text)
  deriving DecidableEq, Repr

/-- The wording of a fault. -/
def Fault.message : Fault → String
  | unreachable path cause =>
    path.toString ++ ": IO error for operation on " ++ path.toString ++ ": " ++ cause.message
  | loop child ancestor =>
    "File system loop found: " ++ child.toString ++ " points to an ancestor " ++ ancestor.toString

/-- What a walk meets. -/
inductive Visit where
  | directory (path : Text)
  | file (path name : Text) (size : Nat)
  | fault (f : Fault)
  deriving DecidableEq, Repr

/-- A directory that the walk is in. -/
structure Ancestor where
  path : Text
  location : Location
  deriving DecidableEq, Repr

/-- The name of a hidden entry begins with a dot. -/
def isHidden (name : Text) : Bool := name.head? = some '.'

/-- The entry is visited. -/
def isWanted (options : WalkOptions) (levels : List Level) (isDirectory : Bool) (name : Text) : Bool :=
  let ruling := if options.respectsIgnoreFiles then Level.ruling? levels isDirectory name else none
  match ruling with
  | some .ignored => false
  | some .kept => true
  | none => options.includesHidden || !isHidden name

/-- The level of the directory at a location. -/
def levelAt (t : FileTree) (l : Location) : Level := ⟨l.getLast?.getD [], DirectoryRules.load t l⟩

/-- The levels of the directory at a location and of all above it, innermost first. -/
def levelsAt (t : FileTree) (l : Location) : List Level :=
  ((List.range (l.length + 1)).map fun n => levelAt t (l.take n)).reverse

/-- What the walk sees of the entry `name` in the directory at `l`: nothing if it is a link that is
not followed, otherwise what it leads to, with the location of this. -/
def look (t : FileTree) (options : WalkOptions) (ancestors : List Ancestor) (path : Text) (l : Location)
    (name : Text) : FileTree.Node → Except Fault (Option (Location × FileTree.Node))
  | .link _ =>
    if ¬ options.followsLinks then .ok none
    else
      match t.walkSteps true FileTree.linkLimit l [name] with
      | .error cause => .error (.unreachable path cause)
      | .ok target =>
        match t.at? target with
        | none => .error (.unreachable path .missing)
        | some (.directory children) =>
          match ancestors.find? fun a => a.location = target with
          | some a => .error (.loop path a.path)
          | none => .ok (some (target, .directory children))
        | some node => .ok (some (target, node))
  | node => .ok (some (l ++ [name], node))

/-- Visits the entries of the directory at `l`. `ancestors` are the directories the walk is in,
innermost first, this one included. -/
def visit (t : FileTree) (options : WalkOptions) :
    Nat → Text → Location → List Ancestor → List Level → List (Text × FileTree.Node) → List Visit
  | 0, _, _, _, _, _ => []
  | fuel + 1, path, l, ancestors, levels, children =>
    children.flatMap fun (name, node) =>
      let child := Path.join path name
      match look t options ancestors child l name node with
      | .error f => [.fault f]
      | .ok (some (_, .file bytes)) =>
        if isWanted options levels false name then [.file child name bytes.length] else []
      | .ok (some (target, .directory inner)) =>
        if isWanted options levels true name then
          .directory child ::
            (if options.isRecursive then
              let levels := if options.respectsIgnoreFiles then ⟨name, DirectoryRules.load t target⟩ :: levels else []
              visit t options fuel child target (⟨child, target⟩ :: ancestors) levels inner
            else [])
        else []
      | .ok _ => []

/-- More than the depth of any branch: between two links that it follows a branch goes down a path
of the tree, and it is in no directory that it enters by a link. -/
def fuel (t : FileTree) : Nat := (t.top.count + 1) * (t.top.count + 1)

/-- The path `-` stands for the standard input, in which nothing can be found. -/
def isStandardInput (root : Text) : Bool := Path.components root = [.name ['-']]

/-- Walks through what lies below a path that leads somewhere. -/
def run (t : FileTree) (options : WalkOptions) (root : Text) : List Visit :=
  if isStandardInput root then []
  else
    match t.locate true root with
    | .error _ => []
    | .ok l =>
      match t.at? l with
      | some (.file bytes) => [.file root (Path.displayName root) bytes.length]
      | some (.directory children) =>
        let levels := if options.respectsIgnoreFiles then levelsAt t l else []
        visit t options (fuel t) root l [⟨root, l⟩] levels children
      | _ => []

end Walk

end LineCensus
