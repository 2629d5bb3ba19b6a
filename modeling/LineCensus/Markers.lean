import LineCensus.Text.Basic

/-!
# Comment markers

`Markers` is the ordered set of literal markers shared by all files of a run. Markers are plain
texts, never patterns, and where two of them match at one place the one configured first wins.

`Markers.ofLists` drops empty texts, which would match everywhere without consuming anything, so
its result is `Solid` (`solid_ofLists`). Values read from elsewhere may hold empty texts; what the
classifier needs to come to an end is the weaker `Progressing`, that no pair is empty on both
sides (`Solid.progressing`).

`problems` checks raw marker lists as a user wrote them and names every fault at once.
-/

namespace LineCensus

/-- The two texts that open and close a block comment. -/
structure BlockPair where
  opening : Text
  closing : Text
  deriving DecidableEq, Repr

/-- The markers of a run, each list in order of configuration. -/
structure Markers where
  line : List Text
  block : List BlockPair
  continuation : List Text
  deriving DecidableEq, Repr

namespace Markers

/-- No markers at all. -/
def empty : Markers := ⟨[], [], []⟩

/-- The set of the given markers, without empty texts and without pairs that have an empty side. -/
def ofLists (line : List Text) (block : List BlockPair) (continuation : List Text) : Markers where
  line := line.filter (· ≠ [])
  block := block.filter fun p => p.opening ≠ [] ∧ p.closing ≠ []
  continuation := continuation.filter (· ≠ [])

/-- The set in which the i-th opening is paired with the i-th closing text. -/
def ofParallel (line openings closings continuation : List Text) : Markers :=
  ofLists line (openings.zipWith BlockPair.mk closings) continuation

/-- No marker is empty, and no pair has an empty side. -/
structure Solid (m : Markers) : Prop where
  line : ∀ t ∈ m.line, t ≠ []
  opening : ∀ p ∈ m.block, p.opening ≠ []
  closing : ∀ p ∈ m.block, p.closing ≠ []
  continuation : ∀ t ∈ m.continuation, t ≠ []

/-- No pair is empty on both sides. -/
def Progressing (m : Markers) : Prop := ∀ p ∈ m.block, p.opening ≠ [] ∨ p.closing ≠ []

instance (m : Markers) : Decidable m.Progressing :=
  inferInstanceAs (Decidable (∀ p ∈ m.block, p.opening ≠ [] ∨ p.closing ≠ []))

theorem solid_ofLists (line : List Text) (block : List BlockPair) (continuation : List Text) :
    (ofLists line block continuation).Solid := by
  constructor <;> simp +contextual [ofLists]

theorem Solid.progressing {m : Markers} (h : m.Solid) : m.Progressing :=
  fun p hp => .inl (h.opening p hp)

/-- The text begins with a line marker. -/
def startsComment (m : Markers) (t : Text) : Bool := m.line.any (·.isPrefixOf t)

theorem startsComment_iff {m : Markers} {t : Text} :
    m.startsComment t = true ↔ ∃ marker ∈ m.line, marker <+: t := by
  simp [startsComment]

/-- The text contains a line marker. -/
def containsComment (m : Markers) (t : Text) : Bool := m.line.any (Text.contains · t)

/-- The text ends with a continuation marker. -/
def continues (m : Markers) (t : Text) : Bool := m.continuation.any (·.isSuffixOf t)

/-! ### Faults of raw marker lists -/

/-- What a marker is used for. -/
inductive Role where
  | line
  | opening
  | closing
  | continuation
  deriving DecidableEq, Repr

/-- The word for a role in messages. -/
def Role.label : Role → String
  | line => "comment"
  | opening => "block comment start"
  | closing => "block comment end"
  | continuation => "continuation"

/-- A fault of raw marker lists. -/
inductive Problem where
  /-- The lists of openings and closings have these unequal lengths. -/
  | unpaired (openings closings : Nat)
  /-- A marker of this role is empty. -/
  | empty (role : Role)
  /-- One text is a marker of both roles. -/
  | shared (marker : Text) (first second : Role)
  deriving DecidableEq, Repr

/-- The wording of a fault. -/
def Problem.message : Problem → String
  | unpaired s e =>
    "number of block comment starts (" ++ toString s ++ ") and ends (" ++ toString e ++ ") must be equal"
  | empty r => "empty " ++ r.label ++ " marker"
  | shared t a b =>
    "marker '" ++ t.toString ++ "' is used both as " ++ a.label ++ " and " ++ b.label ++ " marker"

/-- Marker lists exactly as a user wrote them. -/
structure Raw where
  line : List Text
  openings : List Text
  closings : List Text
  continuation : List Text
  deriving DecidableEq, Repr

namespace Raw

/-- No markers at all. -/
def empty : Raw := ⟨[], [], [], []⟩

/-- The list of a role. -/
def list (r : Raw) : Role → List Text
  | .line => r.line
  | .opening => r.openings
  | .closing => r.closings
  | .continuation => r.continuation

/-- The roles that may not share a marker. A text may both open and close a block. -/
def exclusive : List (Role × Role) :=
  [(.line, .opening), (.line, .closing), (.line, .continuation), (.opening, .continuation),
    (.closing, .continuation)]

/-- Every fault: unequal lengths first, then empty markers by role, then shared markers, each once
per occurrence in the first of the two lists. -/
def problems (r : Raw) : List Problem :=
  (if r.openings.length = r.closings.length then []
    else [.unpaired r.openings.length r.closings.length]) ++
  ([Role.line, .opening, .closing, .continuation].filter fun k => [] ∈ r.list k).map .empty ++
  exclusive.flatMap fun (a, b) =>
    ((r.list a).filter fun t => t ≠ [] ∧ t ∈ r.list b).map fun t => .shared t a b

/-- The marker set of the lists. -/
def toMarkers (r : Raw) : Markers := ofParallel r.line r.openings r.closings r.continuation

end Raw

end Markers

end LineCensus
