import LineCensus.Stored
import LineCensus.Proofs.CursorProgress
import LineCensus.Proofs.JsonRecords

/-!
# Which marker sets there are

The constructors give exactly the sets that are `Markers.Solid` (`Markers.made_iff_solid`), and with these
every marker that is handled moves the cursor. Every set at all is read from the JSON texts in which it is
written (`Stored.decode_markers`), also one with empty markers, so a set that was read need not be solid.
-/

namespace LineCensus

open Json (Tree Fault)

/-! ### Reading sets from text -/

/-- The tree of a pair. -/
def BlockPair.tree (p : BlockPair) : Tree :=
  .object [("start".toList, .string p.opening), ("end".toList, .string p.closing)]

/-- The tree of a marker set. -/
def Markers.tree (m : Markers) : Tree :=
  .object [("line".toList, .list (m.line.map .string)), ("block".toList, .list (m.block.map BlockPair.tree)),
    ("continuation".toList, .list (m.continuation.map .string))]

namespace Stored

theorem writes_blockPair (p : BlockPair) : (blockPair.value p).Writes p.tree :=
  .object (.cons ⟨rfl, .string _⟩ (.cons ⟨rfl, .string _⟩ .nil))

theorem writes_markers (m : Markers) : (markers.value m).Writes m.tree := by
  have hblock : (Json.Value.list (m.block.map blockPair.value)).Writes (.list (m.block.map BlockPair.tree)) := by
    refine .list ?_
    rw [List.forall₂_map_left_iff, List.forall₂_map_right_iff, List.forall₂_same]
    exact fun p _ => writes_blockPair p
  exact .object (.cons ⟨rfl, .texts _⟩ (.cons ⟨rfl, hblock⟩ (.cons ⟨rfl, .texts _⟩ .nil)))

/-- A field is read if its slot is. -/
theorem read_field {σ β : Type} {name : String} {get : σ → Option β} {set : σ → β → σ}
    {read : Json.Node → Except Fault β} {d : σ} {node : Json.Node} {x : β} (h : read node = .ok x) :
    (field name get set read).read d node = .ok (set d x) := by
  simp only [field, h]
  rfl

theorem read_texts {node : Json.Node} {ts : List Text} (h : node.tree? = some (.list (ts.map .string))) :
    readTexts node = .ok ts :=
  Json.readList_of_tree (fun _ _ => Json.readText_of_tree) h

theorem read_blockPair {node : Json.Node} {p : BlockPair} (h : node.tree? = some p.tree) :
    blockPair.read node = .ok p := by
  refine Json.Shape.Fills.read_eq (d := (some p.opening, some p.closing)) ?_ ?_ h
  · refine .cons rfl rfl (fun node hnode => read_field (Json.readText_of_tree hnode)) ?_
    exact .cons rfl rfl (fun node hnode => read_field (Json.readText_of_tree hnode)) .nil
  · exact fun _ => rfl

theorem read_markers {node : Json.Node} {m : Markers} (h : node.tree? = some m.tree) :
    markers.read node = .ok m := by
  refine Json.Shape.Fills.read_eq (d := (some m.line, some m.block, some m.continuation)) ?_ ?_ h
  · refine .cons rfl rfl (fun node hnode => read_field (read_texts hnode)) ?_
    refine .cons rfl rfl (fun node hnode => read_field (Json.readList_of_tree (fun _ _ => read_blockPair) hnode)) ?_
    exact .cons rfl rfl (fun node hnode => read_field (read_texts hnode)) .nil
  · exact fun _ => rfl

/-- A marker set is read from every text in which it is written. -/
theorem decode_markers {m : Markers} {t : Text} (h : Json.Written t m.tree.bodies) : markers.decode t = .ok m := by
  obtain ⟨node, hdocument, hnode⟩ := Json.exists_ofText h
  simp only [decode, Json.readDocument, hdocument, read_markers hnode]
  rfl

theorem written_encode_markers (m : Markers) : Json.Written (markers.encode m) m.tree.bodies :=
  (writes_markers m).written

end Stored

/-! ### Making sets -/

namespace Markers

/-- The sets that the constructors make; a copy of a set is that set. -/
inductive Made : Markers → Prop where
  | ofLists (line : List Text) (block : List BlockPair) (continuation : List Text) :
      Made (.ofLists line block continuation)
  | ofParallel (line openings closings continuation : List Text) :
      Made (.ofParallel line openings closings continuation)
  | empty : Made .empty

/-- The sets that are made by a constructor or read from a text. -/
inductive Obtainable : Markers → Prop where
  | made {m : Markers} (h : Made m) : Obtainable m
  | read {m : Markers} (t : Text) (h : Stored.markers.decode t = .ok m) : Obtainable m

/-- Nothing is dropped from a solid set. -/
theorem Solid.ofLists_eq {m : Markers} (h : m.Solid) : ofLists m.line m.block m.continuation = m := by
  have hline : m.line.filter (· ≠ []) = m.line := by
    rw [List.filter_eq_self]
    intro t ht
    exact decide_eq_true (h.line t ht)
  have hblock : m.block.filter (fun p => p.opening ≠ [] ∧ p.closing ≠ []) = m.block := by
    rw [List.filter_eq_self]
    intro p hp
    exact decide_eq_true ⟨h.opening p hp, h.closing p hp⟩
  have hcontinuation : m.continuation.filter (· ≠ []) = m.continuation := by
    rw [List.filter_eq_self]
    intro t ht
    exact decide_eq_true (h.continuation t ht)
  rw [ofLists, hline, hblock, hcontinuation]

theorem made_iff_solid {m : Markers} : Made m ↔ m.Solid := by
  constructor
  · intro h
    cases h with
    | ofLists line block continuation => exact solid_ofLists line block continuation
    | ofParallel line openings closings continuation => exact solid_ofLists _ _ _
    | empty => exact solid_ofLists [] [] []
  · intro h
    rw [← h.ofLists_eq]
    exact .ofLists _ _ _

/-- **Constructors keep empty markers out, and texts do not**: whatever a set is, it is read from every text in
which it is written, with any white space and any spelling of its markers, and there is such a text; no marker
of it is empty exactly if a constructor makes it, and then every marker that is handled moves the cursor. -/
theorem made_or_read (m : Markers) :
    (∀ t, Json.Written t m.tree.bodies → Stored.markers.decode t = .ok m) ∧
      Json.Written (Stored.markers.encode m) m.tree.bodies ∧ Obtainable m ∧ (m.Solid ↔ Made m) ∧
      (Made m → ∀ t : Tracker, t.Reachable m → ∀ raw, Text.isBlank raw = false → ∀ n p q,
        Progress.Resumes m n (t.enter m (Text.trimIndent raw)) p → Progress.step m p = .ok (.resume q) →
        p.cursor.offset < q.cursor.offset) := by
  have hwritten := Stored.written_encode_markers m
  refine ⟨fun t ht => Stored.decode_markers ht, hwritten, .read _ (Stored.decode_markers hwritten),
    made_iff_solid.symm, ?_⟩
  intro hmade t ht raw hraw n p q hresumes hstep
  have hwhole := (made_iff_solid.1 hmade).whole
  have hstart := Tracker.ready_enter ht.configured (Text.trimIndent_trimIndent raw) (Text.trimIndent_ne_nil hraw)
  exact Progress.offset_lt_of_whole hwhole (hresumes.ready hstart) hstep

/-- A constructor drops the empty markers, and an opening moves the cursor; from its text an empty line marker
is read. -/
theorem made_or_read_mixed :
    let m := Markers.ofLists [[], "//".toList] [⟨"/*".toList, "*/".toList⟩, ⟨[], ">".toList⟩] [[]]
    m = ⟨["//".toList], [⟨"/*".toList, "*/".toList⟩], []⟩ ∧ m.Solid ∧
      (∃ q, Progress.step m (Tracker.start.enter m "a /* b".toList) = .ok (.resume q) ∧ 0 < q.cursor.offset) ∧
      Stored.markers.decode (Stored.markers.encode ⟨[[]], [], []⟩) = .ok ⟨[[]], [], []⟩ := by
  intro m
  have hmade : Made m := .ofLists _ _ _
  obtain ⟨-, -, -, hsolid, hmoves⟩ := made_or_read m
  obtain ⟨hdecode, hwritten, -⟩ := made_or_read ⟨[[]], [], []⟩
  refine ⟨by decide, hsolid.2 hmade, ⟨_, rfl, ?_⟩, hdecode _ hwritten⟩
  exact hmoves hmade .start .start "a /* b".toList (by decide) 0 _ _ (.refl _) rfl

/-- A set in which every marker is empty is read as it was written. -/
theorem obtainable_not_solid :
    let t := "\x7b\"line\":[\"\"],\"block\":[\x7b\"start\":\"\",\"end\":\"\"\x7d],".toList ++
      "\"continuation\":[\"\"]\x7d".toList
    Stored.markers.decode t = .ok ⟨[[]], [⟨[], []⟩], [[]]⟩ ∧ ¬ ∀ m, Obtainable m → m.Solid := by
  intro t
  have hdecode : Stored.markers.decode t = .ok ⟨[[]], [⟨[], []⟩], [[]]⟩ :=
    Stored.decode_markers (Stored.written_encode_markers ⟨[[]], [⟨[], []⟩], [[]]⟩)
  refine ⟨hdecode, fun h => ?_⟩
  have hsolid := h _ (.read t hdecode)
  exact hsolid.line [] List.mem_cons_self rfl

end Markers

end LineCensus
