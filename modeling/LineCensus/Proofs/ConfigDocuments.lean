import LineCensus.Draft.Document
import LineCensus.Proofs.JsonRecords

/-!
# Documents that describe a draft

`Document.Describes` says which members an object has that describes a draft: some of the six fields, each once
and in any order, with the values of the draft; a field that is left out is one that the draft leaves empty. Such
an object is read as the draft (`Describes.ofJson_eq`), however it is written.
-/

namespace LineCensus.Draft

open Json (Tree)

/-! ### Pairs -/

/-- A tree of a pair of markers, in either order. -/
inductive PairTree (p : BlockPair) : Tree → Prop where
  | inOrder : PairTree p (.object [("start".toList, .string p.opening), ("end".toList, .string p.closing)])
  | reversed : PairTree p (.object [("end".toList, .string p.closing), ("start".toList, .string p.opening)])

/-- A field is set to what is read. -/
theorem read_field {σ β : Type} {set : β → σ} {r : Except Json.Fault β} {x : β} (h : r = .ok x) :
    (do return set (← r) : Except Json.Fault σ) = .ok (set x) := by
  rw [h]
  rfl

theorem PairTree.read_eq {p : BlockPair} {v : Tree} (h : PairTree p v) {node : Json.Node} (hnode : node.tree? = some v) :
    pairShape.read node = .ok p := by
  have hfills : ∀ {fields}, pairShape.Fills (none, none) fields (some p.opening, some p.closing) →
      node.tree? = some (.object fields) → pairShape.read node = .ok p :=
    fun hfills hobject => hfills.read_eq (fun _ => rfl) hobject
  cases h with
  | inOrder =>
    refine hfills ?_ hnode
    refine .cons rfl rfl (fun node hnode => read_field (Json.readText_of_tree hnode)) ?_
    exact .cons rfl rfl (fun node hnode => read_field (Json.readText_of_tree hnode)) .nil
  | reversed =>
    refine hfills ?_ hnode
    refine .cons rfl rfl (fun node hnode => read_field (Json.readText_of_tree hnode)) ?_
    exact .cons rfl rfl (fun node hnode => read_field (Json.readText_of_tree hnode)) .nil

/-! ### Fields -/

namespace Document

/-- A field of a document. -/
inductive Slot where
  | directories
  | extensions
  | comments
  | blockComments
  | continuations
  | recursive
  deriving DecidableEq, Repr

namespace Slot

/-- The name of a field. -/
def name : Slot → String
  | directories => "directories"
  | extensions => "extensions"
  | comments => "comments"
  | blockComments => "block_comments"
  | continuations => "continuations"
  | recursive => "recursive"

/-- The pairs of block comment markers of a draft. -/
def pairs (d : Draft) : List BlockPair := (d.markers.openings.zip d.markers.closings).map fun p => ⟨p.1, p.2⟩

/-- The tree holds the value that the field has in a draft. -/
def Holds (d : Draft) (v : Tree) : Slot → Prop
  | directories => v = .list (d.directories.map .string)
  | extensions => v = .list (d.extensions.map .string)
  | comments => v = .list (d.markers.line.map .string)
  | blockComments => ∃ vs, v = .list vs ∧ List.Forall₂ (fun v p => PairTree p v) vs (pairs d)
  | continuations => v = .list (d.markers.continuation.map .string)
  | recursive => v = .bool d.isRecursive

/-- The field is empty in a draft. -/
def IsEmpty (d : Draft) : Slot → Prop
  | directories => d.directories = []
  | extensions => d.extensions = []
  | comments => d.markers.line = []
  | blockComments => d.markers.openings = [] ∧ d.markers.closings = []
  | continuations => d.markers.continuation = []
  | recursive => d.isRecursive = false

end Slot

/-- The members of an object describe a draft. -/
structure Describes (d : Draft) (slots : List Slot) (fields : List (Text × Tree)) : Prop where
  once : slots.Nodup
  given : List.Forall₂ (fun s f => f.1 = s.name.toList ∧ s.Holds d f.2) slots fields
  omitted : ∀ s, s ∉ slots → s.IsEmpty d

/-- The document that gives some fields of a draft. -/
def giving (d : Draft) (slots : List Slot) : Document where
  directories := if .directories ∈ slots then some d.directories else none
  extensions := if .extensions ∈ slots then some d.extensions else none
  comments := if .comments ∈ slots then some d.markers.line else none
  blockComments := if .blockComments ∈ slots then some (Slot.pairs d) else none
  continuations := if .continuations ∈ slots then some d.markers.continuation else none
  isRecursive := if .recursive ∈ slots then some d.isRecursive else none

variable {d : Draft}

/-- A field that is not given yet is read from the value that the draft has there. -/
theorem exists_field (s : Slot) {v : Tree} (hv : s.Holds d v) {slots : List Slot} (hs : s ∉ slots) :
    ∃ f, documentShape.fields.find? (fun f => f.name.toList = s.name.toList) = some f ∧
      f.isSet (giving d slots) = false ∧
      ∀ node, node.tree? = some v → f.read (giving d slots) node = .ok (giving d (s :: slots)) := by
  have htexts : ∀ {expected : String} {ts : List Text} {node : Json.Node}, node.tree? = some (.list (ts.map .string)) →
      Json.readList (Json.readText expected) node = .ok ts :=
    fun h => Json.readList_of_tree (fun _ _ => Json.readText_of_tree) h
  cases s with
  | directories =>
    cases hv
    refine ⟨_, rfl, by simp [giving, hs], fun node hnode => (read_field (htexts hnode)).trans ?_⟩
    simp [giving]
  | extensions =>
    cases hv
    refine ⟨_, rfl, by simp [giving, hs], fun node hnode => (read_field (htexts hnode)).trans ?_⟩
    simp [giving]
  | comments =>
    cases hv
    refine ⟨_, rfl, by simp [giving, hs], fun node hnode => (read_field (htexts hnode)).trans ?_⟩
    simp [giving]
  | blockComments =>
    obtain ⟨vs, rfl, hvs⟩ := hv
    have hpair : ∀ v p, PairTree p v → ∀ node : Json.Node, node.tree? = some v → pairShape.read node = .ok p :=
      fun _ _ hp _ hnode => hp.read_eq hnode
    have hpairs : ∀ {node : Json.Node}, node.tree? = some (.list vs) →
        Json.readList pairShape.read node = .ok (Slot.pairs d) := Json.readList_of_forall₂ (hvs.imp hpair)
    refine ⟨_, rfl, by simp [giving, hs], fun node hnode => (read_field (hpairs hnode)).trans ?_⟩
    simp [giving]
  | continuations =>
    cases hv
    refine ⟨_, rfl, by simp [giving, hs], fun node hnode => (read_field (htexts hnode)).trans ?_⟩
    simp [giving]
  | recursive =>
    cases hv
    refine ⟨_, rfl, by simp [giving, hs], fun node hnode => (read_field (Json.readBool_of_tree hnode)).trans ?_⟩
    simp [giving]

/-- Fields that are given one after the other are all read. -/
theorem fills_giving {slots : List Slot} {fields : List (Text × Tree)}
    (hfields : List.Forall₂ (fun s f => f.1 = s.name.toList ∧ s.Holds d f.2) slots fields) {given : List Slot}
    (honce : slots.Nodup) (hfresh : ∀ s ∈ slots, s ∉ given) :
    documentShape.Fills (giving d given) fields (giving d (slots.reverse ++ given)) := by
  induction hfields generalizing given with
  | nil => exact .nil
  | @cons s f slots fields hf _ ih =>
    obtain ⟨name, v⟩ := f
    obtain ⟨rfl, hv⟩ := hf
    obtain ⟨hnew, honce⟩ := List.nodup_cons.1 honce
    obtain ⟨field, known, unset, reads⟩ := exists_field s hv (hfresh s (List.mem_cons_self ..))
    refine .cons known unset reads ?_
    rw [List.reverse_cons, List.append_assoc, List.singleton_append]
    apply ih honce
    intro s' hs'
    rw [List.mem_cons, not_or]
    exact ⟨fun he => hnew (he ▸ hs'), hfresh s' (List.mem_cons_of_mem s hs')⟩

/-- What a document does not give is empty. -/
theorem draft_giving {slots : List Slot} (hpaired : d.markers.openings.length = d.markers.closings.length)
    (homitted : ∀ s, s ∉ slots → s.IsEmpty d) : (giving d slots).draft = d := by
  have htexts : ∀ (s : Slot) (ts : List Text), (s ∉ slots → ts = []) →
      (if s ∈ slots then some ts else none).getD [] = ts := by
    intro s ts h
    by_cases hs : s ∈ slots
    · simp [hs]
    · simp [hs, h hs]
  have hpairs : (if .blockComments ∈ slots then some (Slot.pairs d) else none).getD [] = Slot.pairs d := by
    by_cases hs : .blockComments ∈ slots
    · simp [hs]
    · simp [hs, Slot.pairs, (homitted _ hs).1]
  have hflag : (if .recursive ∈ slots then some d.isRecursive else none).getD false = d.isRecursive := by
    by_cases hs : .recursive ∈ slots
    · simp [hs]
    · simp [hs, show d.isRecursive = false from homitted _ hs]
  have hopenings : (Slot.pairs d).map BlockPair.opening = d.markers.openings := by
    rw [Slot.pairs, List.map_map]
    exact List.map_fst_zip (Nat.le_of_eq hpaired)
  have hclosings : (Slot.pairs d).map BlockPair.closing = d.markers.closings := by
    rw [Slot.pairs, List.map_map]
    exact List.map_snd_zip (Nat.le_of_eq hpaired.symm)
  unfold draft giving
  simp only [hpairs, hflag, hopenings, hclosings, htexts .directories d.directories (homitted .directories),
    htexts .extensions d.extensions (homitted .extensions), htexts .comments d.markers.line (homitted .comments),
    htexts .continuations d.markers.continuation (homitted .continuations)]

/-- A document that describes a draft is read as this draft, however it is written. -/
theorem Describes.ofJson_eq {slots : List Slot} {fields : List (Text × Tree)} {t : Text}
    (h : Describes d slots fields) (hpaired : d.markers.openings.length = d.markers.closings.length)
    (ht : Json.Written t (Tree.object fields).bodies) : ofJson t = .ok d := by
  obtain ⟨node, hdocument, hnode⟩ := Json.exists_ofText ht
  have hfills : documentShape.Fills (giving d []) fields (giving d (slots.reverse ++ [])) :=
    fills_giving h.given h.once (by simp)
  rw [List.append_nil] at hfills
  have hread := hfills.read_eq (fun h => Bool.noConfusion h) hnode
  have hbuild : documentShape.build (giving d slots.reverse) = d :=
    draft_giving hpaired fun s hs => h.omitted s (by simpa using hs)
  rw [hbuild] at hread
  simp only [ofJson, Json.readDocument, hdocument, hread]
  rfl

/-- The fields of a draft, all of them. -/
def members (d : Draft) : List (String × Json.Value) :=
  [("directories", .texts d.directories), ("extensions", .texts d.extensions), ("comments", .texts d.markers.line),
    ("block_comments", .list ((Slot.pairs d).map fun p =>
      .object [("start", .string p.opening), ("end", .string p.closing)])),
    ("continuations", .texts d.markers.continuation), ("recursive", .bool d.isRecursive)]

/-- There is a document that describes a draft. -/
theorem exists_describes (d : Draft) : ∃ t slots fields, Describes d slots fields ∧
    Json.Written t (Tree.object fields).bodies := by
  have hpairs : (Json.Value.list ((Slot.pairs d).map fun p =>
      .object [("start", .string p.opening), ("end", .string p.closing)])).Writes
      (.list ((Slot.pairs d).map fun p =>
        .object [("start".toList, .string p.opening), ("end".toList, .string p.closing)])) := by
    refine .list ?_
    rw [List.forall₂_map_left_iff, List.forall₂_map_right_iff, List.forall₂_same]
    exact fun p _ => .object (.cons ⟨rfl, .string _⟩ (.cons ⟨rfl, .string _⟩ .nil))
  have hwrites : (Json.Value.object (members d)).Writes (.object
      [("directories".toList, .list (d.directories.map .string)), ("extensions".toList, .list (d.extensions.map .string)),
        ("comments".toList, .list (d.markers.line.map .string)),
        ("block_comments".toList, .list ((Slot.pairs d).map fun p =>
          .object [("start".toList, .string p.opening), ("end".toList, .string p.closing)])),
        ("continuations".toList, .list (d.markers.continuation.map .string)),
        ("recursive".toList, .bool d.isRecursive)]) :=
    .object (.cons ⟨rfl, .texts _⟩ (.cons ⟨rfl, .texts _⟩ (.cons ⟨rfl, .texts _⟩ (.cons ⟨rfl, hpairs⟩
      (.cons ⟨rfl, .texts _⟩ (.cons ⟨rfl, .bool _⟩ .nil))))))
  refine ⟨_, [.directories, .extensions, .comments, .blockComments, .continuations, .recursive], _, ?_, hwrites.written⟩
  constructor
  · decide
  · refine .cons ⟨rfl, rfl⟩ (.cons ⟨rfl, rfl⟩ (.cons ⟨rfl, rfl⟩ (.cons ⟨rfl, _, rfl, ?_⟩
      (.cons ⟨rfl, rfl⟩ (.cons ⟨rfl, rfl⟩ .nil)))))
    rw [List.forall₂_map_left_iff, List.forall₂_same]
    exact fun p _ => .inOrder
  · intro s hs
    cases s <;> simp at hs

end Document

end LineCensus.Draft
