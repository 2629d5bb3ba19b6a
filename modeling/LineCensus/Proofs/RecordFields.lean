import Mathlib.Data.List.Nodup
import LineCensus.Proofs.JsonRecords
import LineCensus.Proofs.ReportReading

/-!
# Records in any order

`Shape.Fills` follows the members of an object as they stand. Here the order is left open: `Tree.Holds` says of an
object that each field of a record stands in it exactly once and holds what it should, and from every such object the
record is read, whatever stands beside the fields (`Shape.Restores.read_eq`). The invariant of the reader is that a
draft is determined by the names that were given, in whichever order they came.

The other way round, a record is only read from an object in which each of its fields stands once
(`Shape.Separate.countP_eq_one`): a field sets its own slot and no other, a slot that is set already is refused, and in
the end all of them must be.
-/

namespace LineCensus.Json

/-! ### Values without faults -/

mutual

/-- A value that was read to its end has no fault. -/
theorem Node.fault?_of_tree : (node : Node) → ∀ v, node.tree? = some v → node.fault? = none
  | .null _, _, _ => rfl
  | .bool _ _, _, _ => rfl
  | .number _ _ _, _, _ => rfl
  | .string _ _ _, _, _ => rfl
  | .list _ items (.closed _), _, h => by
    obtain ⟨vs, hvs, -⟩ := Option.map_eq_some_iff.1 h
    rw [Node.fault?, faultInItems?_of_trees items vs hvs]
    rfl
  | .object _ members (.closed _), _, h => by
    obtain ⟨fields, hfields, -⟩ := Option.map_eq_some_iff.1 h
    rw [Node.fault?, faultInMembers?_of_members members fields hfields]
    rfl

theorem faultInItems?_of_trees : (items : List Node) → ∀ vs, treesOf? items = some vs → faultInItems? items = none
  | [], _, _ => rfl
  | node :: rest, vs, h => by
    simp only [treesOf?, Option.bind_eq_bind, Option.bind_eq_some_iff] at h
    obtain ⟨v, hv, vs', hvs, -⟩ := h
    rw [faultInItems?, node.fault?_of_tree v hv, faultInItems?_of_trees rest vs' hvs]
    rfl

theorem faultInMembers?_of_members : (members : List (Key × Node)) → ∀ fields, membersOf? members = some fields →
    faultInMembers? members = none
  | [], _, _ => rfl
  | (⟨.ok name, _⟩, node) :: rest, fields, h => by
    simp only [membersOf?, Option.bind_eq_bind, Option.bind_eq_some_iff] at h
    obtain ⟨v, hv, fields', hfields, -⟩ := h
    rw [faultInMembers?, node.fault?_of_tree v hv, faultInMembers?_of_members rest fields' hfields]
    rfl

end

/-! ### Numbers and items -/

theorem Node.eq_number {node : Node} {n : Numeral} (h : node.tree? = some (.number n)) :
    ∃ start stop, node = .number n start stop := by
  unfold tree? at h
  split at h <;> simp_all

theorem readNat_of_tree {expected : String} {node : Node} {n : Nat} (h : node.tree? = some (.number (.ofNat n)))
    (hn : n < bound64) : readNat expected node = .ok n := by
  obtain ⟨start, stop, rfl⟩ := node.eq_number h
  simp only [readNat, Numeral.value_ofNat hn]

/-- What comes of one reading behind another comes of the second. -/
theorem exists_of_bind {ε α β : Type} {x : Except ε α} {f : α → Except ε β} {y : β} (h : x >>= f = .ok y) :
    ∃ a, x = .ok a ∧ f a = .ok y := by
  cases x with
  | error fault => cases h
  | ok a => exact ⟨a, rfl, h⟩

/-- Of a list that is read, every item is read. -/
theorem exists_of_readList {α : Type} {item : Node → Except Fault α} {node : Node} {vs : List Tree} {xs : List α}
    (h : readList item node = .ok xs) (hnode : node.tree? = some (.list vs)) {v : Tree} (hv : v ∈ vs) :
    ∃ node x, node.tree? = some v ∧ item node = .ok x := by
  obtain ⟨start, items, stop, rfl, htrees⟩ := node.eq_list hnode
  obtain ⟨xs, hread, -⟩ := exists_of_bind h
  clear h hnode
  induction vs generalizing items xs with
  | nil => cases hv
  | cons v' vs ih =>
    obtain ⟨node, rest, rfl, hnode, hrest⟩ := treesOf?_eq_cons htrees
    rw [List.mapM_cons] at hread
    obtain ⟨x, hfirst, hread⟩ := exists_of_bind hread
    obtain ⟨ys, hbehind, -⟩ := exists_of_bind hread
    cases hv with
    | head => exact ⟨node, x, hnode, hfirst⟩
    | tail _ hv => exact ih hv rest hrest ys hbehind

/-! ### Fields of an object -/

namespace Tree

variable {α : Type}

theorem member?_object {name : String} {members : List (Text × Tree)} {v : Tree} :
    (object members).member? name = some v ↔ members.filter (fun m => m.1 = name.toList) = [(name.toList, v)] := by
  constructor
  · intro h
    simp only [member?] at h
    split at h
    · rename_i m w hfilter
      have hm : (m, w) ∈ members.filter fun m => m.1 = name.toList := by simp [hfilter]
      have hname : m = name.toList := of_decide_eq_true (List.mem_filter.1 hm).2
      rw [hfilter, hname, Option.some.inj h]
    · cases h
  · intro h
    simp only [member?, h]

/-- A member whose name is another one does not matter. -/
theorem member?_cons_of_ne {name : String} {m : Text × Tree} (hm : m.1 ≠ name.toList) (ms : List (Text × Tree)) :
    (object (m :: ms)).member? name = (object ms).member? name := by
  have hfilter : (m :: ms).filter (fun m => m.1 = name.toList) = ms.filter (fun m => m.1 = name.toList) :=
    List.filter_cons_of_neg (by simp [hm])
  simp only [member?, hfilter]

/-- Behind the one member of a name, no member has this name. -/
theorem member?_cons_self {name : String} {v w : Tree} {ms : List (Text × Tree)}
    (h : (object ((name.toList, v) :: ms)).member? name = some w) : w = v ∧ ∀ m ∈ ms, m.1 ≠ name.toList := by
  rw [member?_object, List.filter_cons_of_pos (by simp), List.cons.injEq, Prod.mk.injEq] at h
  refine ⟨h.1.2.symm, fun m hm hname => ?_⟩
  have hnone := List.filter_eq_nil_iff.1 h.2 m hm
  simp [hname] at hnone

/-- An object in which each of the fields stands exactly once and holds what it should for `x`. -/
def Holds {α : Type} (v : Tree) (fields : List (String × (α → Tree → Prop))) (x : α) : Prop :=
  ∃ members, v = .object members ∧ ∀ f ∈ fields, ∃ w, v.member? f.1 = some w ∧ f.2 x w

/-- What the members `ms` have for a field, behind others that had the fields in `given`: nothing if it is one of
these, and else what it should hold. -/
def Awaits (ms : List (Text × Tree)) (given : List String) (name : String) (holds : Tree → Prop) : Prop :=
  if name ∈ given then ∀ m ∈ ms, m.1 ≠ name.toList else ∃ w, (object ms).member? name = some w ∧ holds w

theorem Awaits.of_cons_ne {m : Text × Tree} {ms : List (Text × Tree)} {given : List String} {name : String}
    {holds : Tree → Prop} (h : Awaits (m :: ms) given name holds) (hm : m.1 ≠ name.toList) :
    Awaits ms given name holds := by
  unfold Awaits at h ⊢
  split
  · rename_i hgiven
    rw [if_pos hgiven] at h
    exact fun m' hm' => h m' (.tail _ hm')
  · rename_i hgiven
    rwa [if_neg hgiven, member?_cons_of_ne hm] at h

/-- The member of a field comes when the field was not given yet, and not again. -/
theorem Awaits.of_cons {v : Tree} {ms : List (Text × Tree)} {given : List String} {name : String}
    {holds : Tree → Prop} (h : Awaits ((name.toList, v) :: ms) given name holds) :
    name ∉ given ∧ holds v ∧ ∀ m ∈ ms, m.1 ≠ name.toList := by
  unfold Awaits at h
  split at h
  · exact absurd rfl (h _ (.head _))
  · rename_i hgiven
    obtain ⟨w, hw, hholds⟩ := h
    obtain ⟨rfl, hnone⟩ := member?_cons_self hw
    exact ⟨hgiven, hholds, hnone⟩

end Tree

/-! ### Reading records -/

/-- Reading the field sets it, and among the fields `fs` no other. -/
def Field.SetsOnly {σ : Type} (g : Field σ) (fs : List (Field σ)) : Prop :=
  ∀ d node d', g.read d node = .ok d' → ∀ f ∈ fs, f.isSet d' = (f.isSet d || decide (f.name = g.name))

namespace Shape

variable {σ α : Type} {shape : Shape σ α}

/-- Records are read from their fields: a record has a draft for each set of fields that are given, in which they are
set and the others are not; what a field should hold is read into the draft that has this field too; and a draft with
all fields is built into the record. -/
structure Restores (shape : Shape σ α) (fits : α → Prop) (draft : α → List String → σ)
    (fields : List (String × (α → Tree → Prop))) : Prop where
  lenient : shape.refusesUnknown = false
  blank : ∀ x, draft x [] = shape.blank
  isSet : ∀ f ∈ shape.fields, ∀ x given, f.isSet (draft x given) = decide (f.name ∈ given)
  read : List.Forall₂ (fun f g => f.name = g.1 ∧ ∀ x, fits x → ∀ given node v, node.tree? = some v → g.2 x v →
    f.read (draft x given) node = .ok (draft x (f.name :: given))) shape.fields fields
  built : ∀ x given, (∀ g ∈ fields, g.1 ∈ given) → shape.build (draft x given) = x

variable {fits : α → Prop} {draft : α → List String → σ} {fields : List (String × (α → Tree → Prop))} {x : α}

theorem Restores.names (h : shape.Restores fits draft fields) : shape.fields.map Field.name = fields.map Prod.fst := by
  rw [← List.forall₂_eq_eq_eq, List.forall₂_map_left_iff, List.forall₂_map_right_iff]
  exact h.read.imp fun _ _ hfield => hfield.1

/-- A field that the reader knows is one of the fields. -/
theorem Restores.exists_field (h : shape.Restores fits draft fields) {f : Field σ} (hf : f ∈ shape.fields) :
    ∃ g ∈ fields, g.1 = f.name ∧ ∀ x, fits x → ∀ given node v, node.tree? = some v → g.2 x v →
      f.read (draft x given) node = .ok (draft x (f.name :: given)) := by
  obtain ⟨n, hn, rfl⟩ := List.getElem_of_mem hf
  have hlength := h.read.length_eq
  obtain ⟨hname, hread⟩ := h.read.get hn (hlength ▸ hn)
  exact ⟨_, List.getElem_mem _, hname.symm, hread⟩

theorem find?_field_eq_some {name : Text} {f : Field σ}
    (h : shape.fields.find? (fun f => f.name.toList = name) = some f) : f ∈ shape.fields ∧ f.name.toList = name := by
  have hname := List.find?_some h
  exact ⟨List.mem_of_find?_eq_some h, of_decide_eq_true hname⟩

theorem find?_field_eq_none {name : Text} :
    shape.fields.find? (fun f => f.name.toList = name) = none ↔ ∀ f ∈ shape.fields, f.name.toList ≠ name := by
  simp [List.find?_eq_none]

/-- A member that is a field is read into the draft that has it too, and any other is passed over; what the others
should hold is still to come. -/
theorem Restores.readMember_eq (h : shape.Restores fits draft fields) (hx : fits x) {given : List String} {name : Text}
    {v : Tree} {ms : List (Text × Tree)} (awaits : ∀ g ∈ fields, Tree.Awaits ((name, v) :: ms) given g.1 (g.2 x))
    {node : Node} (hnode : node.tree? = some v) (behind : Nat) :
    ∃ given', shape.readMember (draft x given) (⟨.ok name, behind⟩, node) = .ok (draft x given') ∧
      ∀ g ∈ fields, Tree.Awaits ms given' g.1 (g.2 x) := by
  simp only [readMember, bind, Except.bind]
  cases hfind : shape.fields.find? fun f => f.name.toList = name with
  | some f =>
    obtain ⟨hf, rfl⟩ := find?_field_eq_some hfind
    obtain ⟨g, hg, hname, hread⟩ := h.exists_field hf
    have hfirst := awaits g hg
    rw [hname] at hfirst
    obtain ⟨hnew, hholds, hnone⟩ := hfirst.of_cons
    have hunset : f.isSet (draft x given) = false := by
      rw [h.isSet f hf]
      exact decide_eq_false hnew
    refine ⟨f.name :: given, ?_, fun g' hg' => ?_⟩
    · simp only [hunset, Bool.false_eq_true, if_false]
      exact hread x hx given node v hnode hholds
    · -- nothing may come any more for the field that was read, and the others wait as before
      by_cases hsame : g'.1 = f.name
      · rw [hsame, Tree.Awaits, if_pos List.mem_cons_self]
        exact hnone
      · have hother := (awaits g' hg').of_cons_ne fun heq => hsame (String.toList_injective heq.symm)
        simpa only [Tree.Awaits, List.mem_cons, hsame, false_or] using hother
  | none =>
    refine ⟨given, ?_, fun g hg => ?_⟩
    · simp only [h.lenient, Bool.false_eq_true, if_false, node.fault?_of_tree v hnode]
      rfl
    · have hname : g.1 ∈ shape.fields.map Field.name := by
        rw [h.names]
        exact List.mem_map_of_mem hg
      obtain ⟨f, hf, hname⟩ := List.mem_map.1 hname
      refine (awaits g hg).of_cons_ne fun heq => find?_field_eq_none.1 hfind f hf ?_
      rw [hname]
      exact heq.symm

/-- All fields are given in the end. -/
theorem Restores.foldlM_eq (h : shape.Restores fits draft fields) (hx : fits x) {members : List (Key × Node)}
    {ms : List (Text × Tree)} (hmembers : membersOf? members = some ms) {given : List String}
    (awaits : ∀ g ∈ fields, Tree.Awaits ms given g.1 (g.2 x)) :
    ∃ given', members.foldlM shape.readMember (draft x given) = .ok (draft x given') ∧ ∀ g ∈ fields, g.1 ∈ given' := by
  induction ms generalizing members given with
  | nil =>
    rw [membersOf?_eq_nil hmembers]
    refine ⟨given, rfl, fun g hg => ?_⟩
    by_contra hnew
    obtain ⟨w, hw, -⟩ := by simpa only [Tree.Awaits, if_neg hnew] using awaits g hg
    cases hw
  | cons m ms ih =>
    obtain ⟨behind, node, rest, rfl, hnode, hrest⟩ := membersOf?_eq_cons hmembers
    obtain ⟨given', hread, hawaits⟩ := h.readMember_eq hx awaits hnode behind
    rw [List.foldlM_cons, hread]
    exact ih hrest hawaits

/-- **Fields are read in any order**: from an object in which each field of a record stands once and holds what it
should, the record is read. -/
theorem Restores.read_eq (h : shape.Restores fits draft fields) (hx : fits x) {node : Node} {v : Tree}
    (hnode : node.tree? = some v) (hv : v.Holds fields x) : shape.read node = .ok x := by
  obtain ⟨members, rfl, holds⟩ := hv
  obtain ⟨start, nodes, stop, rfl, hmembers⟩ := node.eq_object hnode
  have hawaits : ∀ g ∈ fields, Tree.Awaits members [] g.1 (g.2 x) := by
    intro g hg
    simpa only [Tree.Awaits, List.not_mem_nil, if_false] using holds g hg
  obtain ⟨given, hfold, hall⟩ := h.foldlM_eq hx hmembers hawaits
  have hset : shape.fields.find? (fun f => !f.isSet (draft x given)) = none := by
    refine List.find?_eq_none.2 fun f hf => ?_
    obtain ⟨g, hg, hname, -⟩ := h.exists_field hf
    have hgiven := hall g hg
    rw [hname] at hgiven
    simp [h.isSet f hf, hgiven]
  simp only [Shape.read, ← h.blank x, hfold, bind, Except.bind, finish, hset, h.built x given hall]

/-! ### What is refused -/

/-- Every field must be given, and each has a slot of its own. -/
structure Separate (shape : Shape σ α) : Prop where
  complete : shape.isComplete = true
  nodup : (shape.fields.map Field.name).Nodup
  blank : ∀ f ∈ shape.fields, f.isSet shape.blank = false
  setsOnly : ∀ g ∈ shape.fields, g.SetsOnly shape.fields

/-- A member sets the field of its name, which was not set before, and no other. -/
theorem Separate.toNat_isSet_readMember (h : shape.Separate) {d d' : σ} {name : Text} {behind : Nat} {node : Node}
    (hread : shape.readMember d (⟨.ok name, behind⟩, node) = .ok d') {f : Field σ} (hf : f ∈ shape.fields) :
    (f.isSet d').toNat = (f.isSet d).toNat + if name = f.name.toList then 1 else 0 := by
  simp only [readMember, bind, Except.bind] at hread
  cases hfind : shape.fields.find? fun f => f.name.toList = name with
  | some g =>
    obtain ⟨hg, rfl⟩ := find?_field_eq_some hfind
    -- a field that is set is refused, so the member sets its own anew
    have hunset : g.isSet d = false := by
      rw [← Bool.not_eq_true]
      intro hset
      simp [hfind, hset] at hread
    have hset : g.read d node = .ok d' := by simpa [hfind, hunset] using hread
    rw [h.setsOnly g hg d node d' hset f hf]
    by_cases hsame : f.name = g.name
    · obtain rfl := List.inj_on_of_nodup_map h.nodup hf hg hsame
      simp [hunset]
    · have hother : g.name.toList ≠ f.name.toList := fun heq => hsame (String.toList_injective heq.symm)
      simp [hsame, hother]
  | none =>
    have hother : name ≠ f.name.toList := (find?_field_eq_none.1 hfind f hf).symm
    have hsame : d' = d := by
      simp only [hfind] at hread
      split at hread
      · cases hread
      · split at hread
        · cases hread
        · exact (Except.ok.inj hread).symm
    rw [hsame, if_neg hother, Nat.add_zero]

/-- Reading members adds to the fields that are set how often each comes. -/
theorem Separate.toNat_isSet_foldlM (h : shape.Separate) {members : List (Key × Node)} {ms : List (Text × Tree)}
    (hmembers : membersOf? members = some ms) {d d' : σ} (hread : members.foldlM shape.readMember d = .ok d')
    {f : Field σ} (hf : f ∈ shape.fields) :
    (f.isSet d').toNat = (f.isSet d).toNat + ms.countP fun m => m.1 = f.name.toList := by
  induction ms generalizing members d with
  | nil =>
    rw [membersOf?_eq_nil hmembers] at hread
    cases hread
    rfl
  | cons m ms ih =>
    obtain ⟨behind, node, rest, rfl, -, hrest⟩ := membersOf?_eq_cons hmembers
    rw [List.foldlM_cons] at hread
    obtain ⟨e, hfirst, hread⟩ := exists_of_bind hread
    have hmember := h.toNat_isSet_readMember hfirst hf
    rw [ih hrest hread, hmember, List.countP_cons]
    simp only [decide_eq_true_eq]
    omega

/-- A record is built when every field that must be given is set. -/
theorem isSet_of_finish {d : σ} {stop : Nat} {x : α} (h : shape.finish d stop = .ok x)
    (complete : shape.isComplete = true) {f : Field σ} (hf : f ∈ shape.fields) : f.isSet d = true := by
  by_contra hunset
  have hsome : (shape.fields.find? fun f => !f.isSet d).isSome = true :=
    List.find?_isSome.2 ⟨f, hf, by simp [hunset]⟩
  obtain ⟨g, hg⟩ := Option.isSome_iff_exists.1 hsome
  simp [finish, hg, complete] at h

/-- **Every field exactly once**: a record is only read from an object in which each of its fields stands once. -/
theorem Separate.countP_eq_one (h : shape.Separate) {node : Node} {members : List (Text × Tree)}
    (hnode : node.tree? = some (.object members)) {x : α} (hread : shape.read node = .ok x) {f : Field σ}
    (hf : f ∈ shape.fields) : members.countP (fun m => m.1 = f.name.toList) = 1 := by
  obtain ⟨start, nodes, stop, rfl, hmembers⟩ := node.eq_object hnode
  obtain ⟨d, hfold, hfinish⟩ := exists_of_bind hread
  have hcount := h.toNat_isSet_foldlM hmembers hfold hf
  rw [isSet_of_finish hfinish h.complete hf, h.blank f hf] at hcount
  simpa using hcount.symm

/-- Of a record that is read, every field that comes is read. -/
theorem exists_of_read {node : Node} {members : List (Text × Tree)} (hnode : node.tree? = some (.object members))
    {x : α} (hread : shape.read node = .ok x) {name : Text} {v : Tree} (hv : (name, v) ∈ members) {f : Field σ}
    (hf : shape.fields.find? (fun f => f.name.toList = name) = some f) :
    ∃ node d d', node.tree? = some v ∧ f.read d node = .ok d' := by
  obtain ⟨start, nodes, stop, rfl, hmembers⟩ := node.eq_object hnode
  obtain ⟨d, hfold, -⟩ := exists_of_bind hread
  clear hread hnode
  generalize shape.blank = first at hfold
  induction members generalizing nodes first with
  | nil => cases hv
  | cons m ms ih =>
    obtain ⟨behind, node, rest, rfl, hnode, hrest⟩ := membersOf?_eq_cons hmembers
    rw [List.foldlM_cons] at hfold
    obtain ⟨e, hfirst, hfold⟩ := exists_of_bind hfold
    cases hv with
    | tail _ hv => exact ih hv rest hrest e hfold
    | head =>
      refine ⟨node, first, e, hnode, ?_⟩
      simp only [readMember, bind, Except.bind, hf] at hfirst
      split at hfirst
      · cases hfirst
      · exact hfirst

end Shape

end LineCensus.Json
