import LineCensus.Text.Basic

/-!
# Paths

A path is kept as it is spelled. Two paths are the same (`Path.Same`) if they have the same
`components`: repeated slashes, and `.` anywhere but in front, say nothing. Paths are ordered by
their components, so `a/b.c` comes before `a.c`.
-/

namespace LineCensus.Path

/-- A part of a path. -/
inductive Component where
  /-- The leading slash. -/
  | root
  /-- A leading `.`. -/
  | here
  /-- `..` -/
  | up
  | name (t : Text)
  deriving DecidableEq, Repr

namespace Component

/-- The kinds of components in their order. -/
def rank : Component → Nat
  | root => 0
  | here => 1
  | up => 2
  | name _ => 3

/-- The name that is compared among components of the same kind. -/
def text : Component → Text
  | name t => t
  | _ => []

/-- The order of components. -/
def compare (a b : Component) : Ordering :=
  (Ord.compare a.rank b.rank).then (Ord.compare (a.text.map Char.toNat) (b.text.map Char.toNat))

end Component

/-- The component that a piece between slashes stands for; `first` says whether the path begins
with it. -/
def component? (first : Bool) (piece : Text) : Option Component :=
  if piece = [] then none
  else if piece = ['.'] then if first then some .here else none
  else if piece = ['.', '.'] then some .up
  else some (.name piece)

/-- The components of a path. -/
def components (p : Text) : List Component :=
  if p.head? = some '/' then .root :: (p.splitOn '/').filterMap (component? false)
  else
    match p.splitOn '/' with
    | [] => []
    | piece :: rest => (component? true piece).toList ++ rest.filterMap (component? false)

/-- Two spellings of one path. -/
def Same (p q : Text) : Prop := components p = components q

instance (p q : Text) : Decidable (Same p q) := inferInstanceAs (Decidable (_ = _))

/-- Compares components one by one. -/
def compareComponents : List Component → List Component → Ordering
  | [], [] => .eq
  | [], _ :: _ => .lt
  | _ :: _, [] => .gt
  | a :: as, b :: bs => (a.compare b).then (compareComponents as bs)

/-- The order of paths. -/
def compare (p q : Text) : Ordering := compareComponents (components p) (components q)

/-- The last component, if it is a name. -/
def fileName? (p : Text) : Option Text :=
  match (components p).getLast? with
  | some (.name t) => some t
  | _ => none

/-- The text behind the last dot of the file name; a dot in front of the name does not count. -/
def extension? (p : Text) : Option Text := do
  let name ← fileName? p
  let after := Text.afterLast '.' name
  if after.length + 1 < name.length then some after else none

/-- The path of an entry of a directory. -/
def join (p name : Text) : Text :=
  if p = [] ∨ p.getLast? = some '/' then p ++ name else p ++ '/' :: name

/-- The name of the file that a path leads to; the whole path if it does not end with a name. -/
def displayName (p : Text) : Text := (fileName? p).getD p

end LineCensus.Path
