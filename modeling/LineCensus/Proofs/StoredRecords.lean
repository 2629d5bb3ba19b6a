import LineCensus.Proofs.CompactJson
import LineCensus.Proofs.RecordFields
import LineCensus.Proofs.StoredMarkers

/-!
# Stored records come back

A stored record is read back from its own text, and from every other text of an object with its fields: their order,
the white space, the spelling of names and strings and what else stands in the object do not matter. Where a field is
missing or stands twice, nothing is read. `Stored.Faithful` says so of a type of records, given what its fields hold,
and `Stored.records_faithful` that all types of stored records are of this kind.
-/

namespace LineCensus

open Json (Fault Node Shape Tree Value Written)

namespace Json

theorem Value.trees_eq_map (vs : List Value) : Value.trees vs = vs.map Value.tree := by
  induction vs with
  | nil => rfl
  | cons v vs ih => rw [trees, ih, List.map_cons]

theorem Value.tree_texts (ts : List Text) : (Value.texts ts).tree = .list (ts.map .string) := by
  rw [texts, tree, trees_eq_map, List.map_map]
  rfl

end Json

namespace Stored

variable {α β σ : Type}

/-! ### Slots -/

/-- The slot of a field that holds `x` if the field is given. -/
def slot (given : List String) (name : String) (x : β) : Option β := if name ∈ given then some x else none

theorem isSome_slot (given : List String) (name : String) (x : β) :
    (slot given name x).isSome = decide (name ∈ given) := by
  unfold slot
  split <;> simp [*]

theorem slot_of_mem {given : List String} {name : String} (h : name ∈ given) (x : β) : slot given name x = some x :=
  if_pos h

section Fields

variable {name : String} {get : σ → Option β} {set : σ → β → σ} {read : Node → Except Fault β}

/-- A field is read into the draft that has it too, if its values are read and put into their slot. -/
theorem reads_field {draft : List String → σ} {holds : Tree → Prop} {x : β}
    (hread : ∀ node v, node.tree? = some v → holds v → read node = .ok x)
    (hset : ∀ given, set (draft given) x = draft (name :: given)) (given : List String) (node : Node) (v : Tree)
    (hnode : node.tree? = some v) (hv : holds v) :
    (field name get set read).read (draft given) node = .ok (draft (name :: given)) := by
  rw [← hset]
  exact read_field (hread node v hnode hv)

/-- What is read into a field is put into its slot. -/
theorem exists_of_read_field {d d' : σ} {node : Node} (h : (field name get set read).read d node = .ok d') :
    ∃ x, read node = .ok x ∧ d' = set d x := by
  obtain ⟨x, hread, hset⟩ := Json.exists_of_bind h
  exact ⟨x, hread, (Except.ok.inj hset).symm⟩

/-- A field sets what putting a value into its slot sets. -/
theorem setsOnly_field {fs : List (Json.Field σ)}
    (hset : ∀ d x, ∀ f ∈ fs, f.isSet (set d x) = (f.isSet d || decide (f.name = name))) :
    (field name get set read).SetsOnly fs := by
  intro d node d' h
  obtain ⟨x, -, rfl⟩ := exists_of_read_field h
  exact hset d x

end Fields

/-! ### What fields hold -/

theorem reads_natural {expected : String} {n : Nat} (hn : n < Json.bound64) (node : Node) (v : Tree)
    (hnode : node.tree? = some v) (hv : v = .number (.ofNat n)) : Json.readNat expected node = .ok n := by
  subst hv
  exact Json.readNat_of_tree hnode hn

theorem reads_bool {b : Bool} (node : Node) (v : Tree) (hnode : node.tree? = some v) (hv : v = .bool b) :
    Json.readBool node = .ok b := by
  subst hv
  exact Json.readBool_of_tree hnode

theorem reads_text {expected : String} {t : Text} (node : Node) (v : Tree) (hnode : node.tree? = some v)
    (hv : v = .string t) : Json.readText expected node = .ok t := by
  subst hv
  exact Json.readText_of_tree hnode

theorem reads_texts {expected : String} {ts : List Text} (node : Node) (v : Tree) (hnode : node.tree? = some v)
    (hv : v = .list (ts.map .string)) : Json.readList (Json.readText expected) node = .ok ts := by
  subst hv
  exact Json.readList_of_tree (fun _ _ => Json.readText_of_tree) hnode

/-- What the fields of a tally hold. -/
def tallyFields : List (String × (Tally → Tree → Prop)) :=
  [("blank", fun t v => v = .number (.ofNat t.blank)), ("comment", fun t v => v = .number (.ofNat t.comment)),
    ("code", fun t v => v = .number (.ofNat t.code)), ("files", fun t v => v = .number (.ofNat t.files))]

/-- What the fields of a pair hold. -/
def pairFields : List (String × (BlockPair → Tree → Prop)) :=
  [("start", fun p v => v = .string p.opening), ("end", fun p v => v = .string p.closing)]

/-- What the fields of a marker set hold; the pairs are objects themselves, with their fields in any order. -/
def markersFields : List (String × (Markers → Tree → Prop)) :=
  [("line", fun m v => v = .list (m.line.map .string)),
    ("block", fun m v => ∃ items, v = .list items ∧ List.Forall₂ (fun item p => item.Holds pairFields p) items m.block),
    ("continuation", fun m v => v = .list (m.continuation.map .string))]

/-- What the fields of marker lists hold. -/
def rawFields : List (String × (Markers.Raw → Tree → Prop)) :=
  [("line", fun m v => v = .list (m.line.map .string)), ("block_starts", fun m v => v = .list (m.openings.map .string)),
    ("block_ends", fun m v => v = .list (m.closings.map .string)),
    ("continuation", fun m v => v = .list (m.continuation.map .string))]

/-- What the fields of a plan hold. -/
def planFields : List (String × (SearchPlan → Tree → Prop)) :=
  [("roots", fun p v => v = .list (p.roots.map .string)),
    ("extensions", fun p v => v = .list (p.extensions.map .string)),
    ("recursive", fun p v => v = .bool p.options.isRecursive),
    ("include_hidden", fun p v => v = .bool p.options.includesHidden),
    ("follow_links", fun p v => v = .bool p.options.followsLinks),
    ("respect_ignore_files", fun p v => v = .bool p.options.respectsIgnoreFiles)]

/-- What the fields of a found file hold. -/
def fileFields : List (String × (FoundFile → Tree → Prop)) :=
  [("path", fun f v => v = .string f.path), ("ext", fun f v => v = .string f.extension),
    ("name", fun f v => v = .string f.name), ("size", fun f v => v = .number (.ofNat f.size))]

/-! ### Records -/

/-- The records that fit are written with their fields and read from them; no record is read from an object in which
one of the fields is missing or stands more than once. -/
structure Keeps (s : Stored α) (fits : α → Prop) (fields : List (String × (α → Tree → Prop))) : Prop where
  holds : ∀ x, (s.value x).tree.Holds fields x
  read_eq : ∀ x, fits x → ∀ node v, node.tree? = some v → v.Holds fields x → s.read node = .ok x
  countP_eq_one : ∀ node members x, node.tree? = some (.object members) → s.read node = .ok x →
    ∀ f ∈ fields, members.countP (fun m => m.1 = f.1.toList) = 1

/-- Records are kept if they are restored from their fields, which have slots of their own, and are written as objects
with these fields. -/
theorem keeps_of_shape {s : Stored α} {shape : Shape σ α} {fits : α → Prop}
    {fields : List (String × (α → Tree → Prop))} (draft : α → List String → σ) (hread : s.read = shape.read)
    (hseparate : shape.Separate) (hrestores : shape.Restores fits draft fields)
    (hvalue : ∀ x, (s.value x).tree.Holds fields x) : s.Keeps fits fields where
  holds := hvalue
  read_eq x hx node v hnode hv := by
    rw [hread]
    exact hrestores.read_eq hx hnode hv
  countP_eq_one node members x hnode hx g hg := by
    rw [hread] at hx
    have hname : g.1 ∈ shape.fields.map Json.Field.name := by
      rw [hrestores.names]
      exact List.mem_map_of_mem hg
    obtain ⟨f, hf, hname⟩ := List.mem_map.1 hname
    rw [← hname]
    exact hseparate.countP_eq_one hnode hx hf

theorem keeps_tally : tally.Keeps (fun t => t.blank < Json.bound64 ∧ t.comment < Json.bound64 ∧
    t.code < Json.bound64 ∧ t.files < Json.bound64) tallyFields := by
  refine keeps_of_shape (fun t given => (slot given "blank" t.blank, slot given "comment" t.comment,
    slot given "code" t.code, slot given "files" t.files)) rfl ⟨rfl, ?_, ?_, ?_⟩ ⟨rfl, fun _ => rfl, ?_, ?_, ?_⟩ ?_
  · decide
  · simp [field]
  · simp only [List.forall_mem_cons, List.not_mem_nil, false_imp_iff, implies_true, and_true]
    refine ⟨?_, ?_, ?_, ?_⟩ <;> exact setsOnly_field fun d x => by simp [field]
  · simp [field, isSome_slot]
  · refine .cons ⟨rfl, fun t ht => reads_field (reads_natural ht.1) fun given => by simp [slot]⟩ ?_
    refine .cons ⟨rfl, fun t ht => reads_field (reads_natural ht.2.1) fun given => by simp [slot]⟩ ?_
    refine .cons ⟨rfl, fun t ht => reads_field (reads_natural ht.2.2.1) fun given => by simp [slot]⟩ ?_
    exact .cons ⟨rfl, fun t ht => reads_field (reads_natural ht.2.2.2) fun given => by simp [slot]⟩ .nil
  · intro t given hall
    simp only [tallyFields, List.forall_mem_cons] at hall
    simp [slot_of_mem, hall]
  · intro t
    refine ⟨_, rfl, ?_⟩
    simp only [tallyFields, List.forall_mem_cons, List.not_mem_nil, false_imp_iff, implies_true, and_true]
    exact ⟨⟨_, rfl, rfl⟩, ⟨_, rfl, rfl⟩, ⟨_, rfl, rfl⟩, ⟨_, rfl, rfl⟩⟩

theorem keeps_blockPair : blockPair.Keeps (fun _ => True) pairFields := by
  refine keeps_of_shape (fun p given => (slot given "start" p.opening, slot given "end" p.closing)) rfl
    ⟨rfl, ?_, ?_, ?_⟩ ⟨rfl, fun _ => rfl, ?_, ?_, ?_⟩ ?_
  · decide
  · simp [field]
  · simp only [List.forall_mem_cons, List.not_mem_nil, false_imp_iff, implies_true, and_true]
    refine ⟨?_, ?_⟩ <;> exact setsOnly_field fun d x => by simp [field]
  · simp [field, isSome_slot]
  · refine .cons ⟨rfl, fun p _ => reads_field reads_text fun given => by simp [slot]⟩ ?_
    exact .cons ⟨rfl, fun p _ => reads_field reads_text fun given => by simp [slot]⟩ .nil
  · intro p given hall
    simp only [pairFields, List.forall_mem_cons] at hall
    simp [slot_of_mem, hall]
  · intro p
    refine ⟨_, rfl, ?_⟩
    simp only [pairFields, List.forall_mem_cons, List.not_mem_nil, false_imp_iff, implies_true, and_true]
    exact ⟨⟨_, rfl, rfl⟩, ⟨_, rfl, rfl⟩⟩

theorem reads_pairs {ps : List BlockPair} (node : Node) (v : Tree) (hnode : node.tree? = some v)
    (hv : ∃ items, v = .list items ∧ List.Forall₂ (fun item p => item.Holds pairFields p) items ps) :
    Json.readList blockPair.read node = .ok ps := by
  obtain ⟨items, rfl, hitems⟩ := hv
  refine Json.readList_of_forall₂ (hitems.imp ?_) hnode
  intro item p hp node hnode
  exact keeps_blockPair.read_eq p trivial node item hnode hp

theorem holds_pairs (ps : List BlockPair) :
    List.Forall₂ (fun item p => item.Holds pairFields p) (Value.trees (ps.map blockPair.value)) ps := by
  rw [Value.trees_eq_map, List.map_map, List.forall₂_map_left_iff, List.forall₂_same]
  exact fun p _ => keeps_blockPair.holds p

theorem keeps_markers : markers.Keeps (fun _ => True) markersFields := by
  refine keeps_of_shape (fun m given => (slot given "line" m.line, slot given "block" m.block,
    slot given "continuation" m.continuation)) rfl ⟨rfl, ?_, ?_, ?_⟩ ⟨rfl, fun _ => rfl, ?_, ?_, ?_⟩ ?_
  · decide
  · simp [field]
  · simp only [List.forall_mem_cons, List.not_mem_nil, false_imp_iff, implies_true, and_true]
    refine ⟨?_, ?_, ?_⟩ <;> exact setsOnly_field fun d x => by simp [field]
  · simp [field, isSome_slot]
  · refine .cons ⟨rfl, fun m _ => reads_field reads_texts fun given => by simp [slot]⟩ ?_
    refine .cons ⟨rfl, fun m _ => reads_field reads_pairs fun given => by simp [slot]⟩ ?_
    exact .cons ⟨rfl, fun m _ => reads_field reads_texts fun given => by simp [slot]⟩ .nil
  · intro m given hall
    simp only [markersFields, List.forall_mem_cons] at hall
    simp [slot_of_mem, hall]
  · intro m
    refine ⟨_, rfl, ?_⟩
    simp only [markersFields, List.forall_mem_cons, List.not_mem_nil, false_imp_iff, implies_true, and_true]
    exact ⟨⟨_, rfl, Value.tree_texts _⟩, ⟨_, rfl, _, rfl, holds_pairs _⟩, ⟨_, rfl, Value.tree_texts _⟩⟩

theorem keeps_rawMarkers : rawMarkers.Keeps (fun _ => True) rawFields := by
  refine keeps_of_shape (fun m given => (slot given "line" m.line, slot given "block_starts" m.openings,
    slot given "block_ends" m.closings, slot given "continuation" m.continuation)) rfl
    ⟨rfl, ?_, ?_, ?_⟩ ⟨rfl, fun _ => rfl, ?_, ?_, ?_⟩ ?_
  · decide
  · simp [field]
  · simp only [List.forall_mem_cons, List.not_mem_nil, false_imp_iff, implies_true, and_true]
    refine ⟨?_, ?_, ?_, ?_⟩ <;> exact setsOnly_field fun d x => by simp [field]
  · simp [field, isSome_slot]
  · refine .cons ⟨rfl, fun m _ => reads_field reads_texts fun given => by simp [slot]⟩ ?_
    refine .cons ⟨rfl, fun m _ => reads_field reads_texts fun given => by simp [slot]⟩ ?_
    refine .cons ⟨rfl, fun m _ => reads_field reads_texts fun given => by simp [slot]⟩ ?_
    exact .cons ⟨rfl, fun m _ => reads_field reads_texts fun given => by simp [slot]⟩ .nil
  · intro m given hall
    simp only [rawFields, List.forall_mem_cons] at hall
    simp [slot_of_mem, hall]
  · intro m
    refine ⟨_, rfl, ?_⟩
    simp only [rawFields, List.forall_mem_cons, List.not_mem_nil, false_imp_iff, implies_true, and_true]
    exact ⟨⟨_, rfl, Value.tree_texts _⟩, ⟨_, rfl, Value.tree_texts _⟩, ⟨_, rfl, Value.tree_texts _⟩,
      ⟨_, rfl, Value.tree_texts _⟩⟩

theorem keeps_plan : plan.Keeps (fun _ => True) planFields := by
  refine keeps_of_shape (fun p given => ⟨slot given "roots" p.roots, slot given "extensions" p.extensions,
    slot given "recursive" p.options.isRecursive, slot given "include_hidden" p.options.includesHidden,
    slot given "follow_links" p.options.followsLinks,
    slot given "respect_ignore_files" p.options.respectsIgnoreFiles⟩) rfl
    ⟨rfl, ?_, ?_, ?_⟩ ⟨rfl, fun _ => rfl, ?_, ?_, ?_⟩ ?_
  · decide
  · simp [field]
  · simp only [List.forall_mem_cons, List.not_mem_nil, false_imp_iff, implies_true, and_true]
    refine ⟨?_, ?_, ?_, ?_, ?_, ?_⟩ <;> exact setsOnly_field fun d x => by simp [field]
  · simp [field, isSome_slot]
  · refine .cons ⟨rfl, fun p _ => reads_field reads_texts fun given => by simp [slot]⟩ ?_
    refine .cons ⟨rfl, fun p _ => reads_field reads_texts fun given => by simp [slot]⟩ ?_
    refine .cons ⟨rfl, fun p _ => reads_field reads_bool fun given => by simp [slot]⟩ ?_
    refine .cons ⟨rfl, fun p _ => reads_field reads_bool fun given => by simp [slot]⟩ ?_
    refine .cons ⟨rfl, fun p _ => reads_field reads_bool fun given => by simp [slot]⟩ ?_
    exact .cons ⟨rfl, fun p _ => reads_field reads_bool fun given => by simp [slot]⟩ .nil
  · intro p given hall
    simp only [planFields, List.forall_mem_cons] at hall
    simp [slot_of_mem, hall]
  · intro p
    refine ⟨_, rfl, ?_⟩
    simp only [planFields, List.forall_mem_cons, List.not_mem_nil, false_imp_iff, implies_true, and_true]
    exact ⟨⟨_, rfl, Value.tree_texts _⟩, ⟨_, rfl, Value.tree_texts _⟩, ⟨_, rfl, rfl⟩, ⟨_, rfl, rfl⟩, ⟨_, rfl, rfl⟩,
      ⟨_, rfl, rfl⟩⟩

theorem keeps_foundFile : foundFile.Keeps (fun f => f.size < Json.bound64) fileFields := by
  refine keeps_of_shape (fun f given => (slot given "path" f.path, slot given "ext" f.extension,
    slot given "name" f.name, slot given "size" f.size)) rfl ⟨rfl, ?_, ?_, ?_⟩ ⟨rfl, fun _ => rfl, ?_, ?_, ?_⟩ ?_
  · decide
  · simp [field]
  · simp only [List.forall_mem_cons, List.not_mem_nil, false_imp_iff, implies_true, and_true]
    refine ⟨?_, ?_, ?_, ?_⟩ <;> exact setsOnly_field fun d x => by simp [field]
  · simp [field, isSome_slot]
  · refine .cons ⟨rfl, fun f _ => reads_field reads_text fun given => by simp [slot]⟩ ?_
    refine .cons ⟨rfl, fun f _ => reads_field reads_text fun given => by simp [slot]⟩ ?_
    refine .cons ⟨rfl, fun f _ => reads_field reads_text fun given => by simp [slot]⟩ ?_
    exact .cons ⟨rfl, fun f hf => reads_field (reads_natural hf) fun given => by simp [slot]⟩ .nil
  · intro f given hall
    simp only [fileFields, List.forall_mem_cons] at hall
    simp [slot_of_mem, hall]
  · intro f
    refine ⟨_, rfl, ?_⟩
    simp only [fileFields, List.forall_mem_cons, List.not_mem_nil, false_imp_iff, implies_true, and_true]
    exact ⟨⟨_, rfl, rfl⟩, ⟨_, rfl, rfl⟩, ⟨_, rfl, rfl⟩, ⟨_, rfl, rfl⟩⟩

/-! ### Texts -/

/-- Records are kept faithfully in texts: each that fits comes back from its own text, and from every text of an
object with its fields; no record comes from the text of an object in which one of the fields is missing or stands
more than once. -/
structure Faithful (s : Stored α) (fits : α → Prop) (fields : List (String × (α → Tree → Prop))) : Prop where
  reads_back : ∀ x, fits x → s.decode (s.encode x) = .ok x
  any_layout : ∀ x, fits x → ∀ (v : Tree) t, Written t v.bodies → v.Holds fields x → s.decode t = .ok x
  once : ∀ members t, Written t (Tree.object members).bodies → ∀ f ∈ fields,
    members.countP (fun m => m.1 = f.1.toList) ≠ 1 → ∃ fault, s.decode t = .error fault

theorem exists_decode (s : Stored α) {v : Tree} {t : Text} (h : Written t v.bodies) :
    ∃ node, node.tree? = some v ∧ s.decode t = s.read node := by
  obtain ⟨node, hdocument, hnode⟩ := Json.exists_ofText h
  refine ⟨node, hnode, ?_⟩
  simp only [decode, Json.readDocument, hdocument]
  cases s.read node <;> rfl

theorem exists_fault (s : Stored α) {t : Text} (h : ∀ x, s.decode t ≠ .ok x) : ∃ fault, s.decode t = .error fault := by
  cases hx : s.decode t with
  | error fault => exact ⟨fault, rfl⟩
  | ok x => exact absurd hx (h x)

theorem Keeps.faithful {s : Stored α} {fits : α → Prop} {fields : List (String × (α → Tree → Prop))}
    (h : s.Keeps fits fields) : s.Faithful fits fields := by
  have hlayout : ∀ x, fits x → ∀ (v : Tree) t, Written t v.bodies → v.Holds fields x → s.decode t = .ok x := by
    intro x hx v t ht hv
    obtain ⟨node, hnode, hdecode⟩ := s.exists_decode ht
    rw [hdecode]
    exact h.read_eq x hx node v hnode hv
  refine ⟨fun x hx => hlayout x hx _ _ (s.value x).written_compact (h.holds x), hlayout, ?_⟩
  intro members t ht f hf hcount
  apply s.exists_fault
  intro x hx
  obtain ⟨node, hnode, hdecode⟩ := s.exists_decode ht
  rw [hdecode] at hx
  exact hcount (h.countP_eq_one node members x hnode hx f hf)

/-- No marker set comes from a text in which a field of one of its pairs is missing or stands more than once. -/
theorem decode_markers_of_pair {members : List (Text × Tree)} {t : Text} (ht : Written t (Tree.object members).bodies)
    {items : List Tree} (hblock : ("block".toList, .list items) ∈ members) {pair : List (Text × Tree)}
    (hpair : .object pair ∈ items) {f : String × (BlockPair → Tree → Prop)} (hf : f ∈ pairFields)
    (hcount : pair.countP (fun m => m.1 = f.1.toList) ≠ 1) : ∃ fault, markers.decode t = .error fault := by
  apply markers.exists_fault
  intro x hx
  obtain ⟨node, hnode, hdecode⟩ := markers.exists_decode ht
  rw [hdecode] at hx
  obtain ⟨list, d, d', hlist, hread⟩ := Shape.exists_of_read hnode hx hblock rfl
  obtain ⟨ps, hread, -⟩ := exists_of_read_field hread
  obtain ⟨item, p, hitem, hread⟩ := Json.exists_of_readList hread hlist hpair
  exact hcount (keeps_blockPair.countP_eq_one item pair p hitem hread f hf)

/-- **Stored records come back**: tallies with counters of 64 bits, pairs, marker sets, marker lists, plans and found
files with sizes of 64 bits are kept faithfully; and a pair in which a field is missing or stands twice spoils the
marker set around it. -/
theorem records_faithful :
    tally.Faithful (fun t => t.blank < Nat.pow 2 64 ∧ t.comment < Nat.pow 2 64 ∧ t.code < Nat.pow 2 64 ∧
        t.files < Nat.pow 2 64) tallyFields ∧
      markers.Faithful (fun _ => True) markersFields ∧ rawMarkers.Faithful (fun _ => True) rawFields ∧
      blockPair.Faithful (fun _ => True) pairFields ∧ plan.Faithful (fun _ => True) planFields ∧
      foundFile.Faithful (fun f => f.size < Nat.pow 2 64) fileFields ∧
      ∀ members t, Written t (Tree.object members).bodies → ∀ items, ("block".toList, .list items) ∈ members →
        ∀ pair, .object pair ∈ items → ∀ f ∈ pairFields, pair.countP (fun m => m.1 = f.1.toList) ≠ 1 →
          ∃ fault, markers.decode t = .error fault :=
  ⟨keeps_tally.faithful, keeps_markers.faithful, keeps_rawMarkers.faithful, keeps_blockPair.faithful,
    keeps_plan.faithful, keeps_foundFile.faithful,
    fun _ _ ht _ hblock _ hpair _ hf hcount => decode_markers_of_pair ht hblock hpair hf hcount⟩

open Json.Value.Writes (punct quoted) in
/-- A pair with its fields the other way round, a letter of a name escaped, white space and another field between them;
a pair with one field; and a tally with a field that stands twice. -/
theorem records_faithful_reordered :
    blockPair.decode "\x7b \"\\u0065nd\":\"*/\",\"x\":[],\t\"start\":\"/*\"\x7d".toList =
        .ok ⟨"/*".toList, "*/".toList⟩ ∧
      (∃ fault, blockPair.decode (Value.object [("start", .string "/*".toList)]).compact = .error fault) ∧
      ∃ fault, tally.decode (Value.object [("blank", .natural 1), ("comment", .natural 2), ("code", .natural 3),
        ("files", .natural 4), ("code", .natural 3)]).compact = .error fault := by
  obtain ⟨htally, -, -, hpair, -⟩ := records_faithful
  refine ⟨?_, ?_, ?_⟩
  · have he : Json.SpelledChar 'e' "\\u0065".toList := .digits (n := 0x65) rfl rfl rfl
    have hend : Json.SpelledText "end".toList "\\u0065nd".toList :=
      .cons he (Json.spelledText_flatMap_escape "nd".toList)
    have hstart : Written "\t\"start\":\"/*\"\x7d".toList
        [.string (.ok "start".toList), .punct ':', .string (.ok "/*".toList), .punct '\x7d'] :=
      .white rfl (quoted "start".toList (punct (quoted "/*".toList (punct .nil))))
    have hother := punct (c := ',') (quoted "x".toList (punct (c := ':') (punct (c := '[') (punct (c := ']')
      (punct (c := ',') hstart)))))
    have hwritten := punct (c := '\x7b') (.white (c := ' ') rfl (.string hend (punct (c := ':')
      (quoted "*/".toList hother))))
    refine hpair.any_layout _ trivial (.object [("end".toList, .string "*/".toList), ("x".toList, .list []),
      ("start".toList, .string "/*".toList)]) _ hwritten ⟨_, rfl, ?_⟩
    simp only [pairFields, List.forall_mem_cons, List.not_mem_nil, false_imp_iff, implies_true, and_true]
    exact ⟨⟨_, rfl, rfl⟩, ⟨_, rfl, rfl⟩⟩
  · exact hpair.once _ _ (Value.written_compact _) _ (.tail _ (.head _)) (by decide)
  · exact htally.once _ _ (Value.written_compact _) _ (.tail _ (.tail _ (.head _))) (by decide)

end Stored

end LineCensus
