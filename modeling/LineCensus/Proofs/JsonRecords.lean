import LineCensus.Json.Decode
import LineCensus.Proofs.JsonTrees

/-!
# Records that trees hold

A reader of texts, lists or records looks at the tree of a value only: `readText`, `readList` and
`Shape.read` give what the tree holds. For a record, `Shape.Fills` says which draft its members come to, one
after the other.
-/

namespace LineCensus.Json

/-! ### Values of a tree -/

namespace Node

variable {node : Node}

theorem eq_bool {b : Bool} (h : node.tree? = some (.bool b)) : ∃ stop, node = .bool b stop := by
  unfold tree? at h
  split at h <;> simp_all

theorem eq_string {t : Text} (h : node.tree? = some (.string t)) :
    ∃ start stop, node = .string (.ok t) start stop := by
  unfold tree? at h
  split at h <;> simp_all

theorem eq_list {vs : List Tree} (h : node.tree? = some (.list vs)) :
    ∃ start items stop, node = .list start items (.closed stop) ∧ treesOf? items = some vs := by
  unfold tree? at h
  split at h <;> simp_all

theorem eq_object {fields : List (Text × Tree)} (h : node.tree? = some (.object fields)) :
    ∃ start members stop, node = .object start members (.closed stop) ∧ membersOf? members = some fields := by
  unfold tree? at h
  split at h <;> simp_all

end Node

theorem treesOf?_eq_nil {items : List Node} (h : treesOf? items = some []) : items = [] := by
  cases items with
  | nil => rfl
  | cons node rest => simp [treesOf?, Option.bind_eq_some_iff] at h

theorem treesOf?_eq_cons {items : List Node} {v : Tree} {vs : List Tree} (h : treesOf? items = some (v :: vs)) :
    ∃ node rest, items = node :: rest ∧ node.tree? = some v ∧ treesOf? rest = some vs := by
  cases items with
  | nil => simp [treesOf?] at h
  | cons node rest =>
    simp only [treesOf?, Option.bind_eq_bind, Option.bind_eq_some_iff, Option.pure_def, Option.some.injEq,
      List.cons.injEq] at h
    obtain ⟨v', hv, vs', hvs, rfl, rfl⟩ := h
    exact ⟨node, rest, rfl, hv, hvs⟩

theorem membersOf?_eq_nil {members : List (Key × Node)} (h : membersOf? members = some []) : members = [] := by
  cases members with
  | nil => rfl
  | cons member rest =>
    obtain ⟨⟨name, behind⟩, node⟩ := member
    cases name <;> simp [membersOf?, Option.bind_eq_some_iff] at h

theorem membersOf?_eq_cons {members : List (Key × Node)} {name : Text} {v : Tree}
    {fields : List (Text × Tree)} (h : membersOf? members = some ((name, v) :: fields)) :
    ∃ behind node rest, members = (⟨.ok name, behind⟩, node) :: rest ∧ node.tree? = some v ∧
      membersOf? rest = some fields := by
  cases members with
  | nil => simp [membersOf?] at h
  | cons member rest =>
    obtain ⟨⟨name', behind⟩, node⟩ := member
    cases name' with
    | error fault => simp [membersOf?] at h
    | ok name' =>
      simp only [membersOf?, Option.bind_eq_bind, Option.bind_eq_some_iff, Option.pure_def, Option.some.injEq,
        List.cons.injEq, Prod.mk.injEq] at h
      obtain ⟨v', hv, fields', hfields, ⟨rfl, rfl⟩, rfl⟩ := h
      exact ⟨behind, node, rest, rfl, hv, hfields⟩

/-! ### Texts and lists -/

theorem readBool_of_tree {node : Node} {b : Bool} (h : node.tree? = some (.bool b)) : readBool node = .ok b := by
  obtain ⟨stop, rfl⟩ := node.eq_bool h
  rfl

theorem readText_of_tree {expected : String} {node : Node} {t : Text} (h : node.tree? = some (.string t)) :
    readText expected node = .ok t := by
  obtain ⟨start, stop, rfl⟩ := node.eq_string h
  rfl

/-- A list is read if each of its items is. -/
theorem readList_of_forall₂ {α : Type} {item : Node → Except Fault α} {vs : List Tree} {xs : List α}
    (hitems : List.Forall₂ (fun v x => ∀ node : Node, node.tree? = some v → item node = .ok x) vs xs) {node : Node}
    (h : node.tree? = some (.list vs)) : readList item node = .ok xs := by
  obtain ⟨start, items, stop, rfl, htrees⟩ := node.eq_list h
  have hread : items.mapM item = .ok xs := by
    clear h
    induction hitems generalizing items with
    | nil =>
      rw [treesOf?_eq_nil htrees]
      rfl
    | cons hitem _ ih =>
      obtain ⟨node, rest, rfl, hnode, hrest⟩ := treesOf?_eq_cons htrees
      rw [List.mapM_cons, hitem node hnode, ih rest hrest]
      rfl
  rw [readList, hread]
  rfl

theorem readList_of_tree {α : Type} {item : Node → Except Fault α} {tree : α → Tree}
    (hitem : ∀ node x, node.tree? = some (tree x) → item node = .ok x) {node : Node} {xs : List α}
    (h : node.tree? = some (.list (xs.map tree))) : readList item node = .ok xs := by
  refine readList_of_forall₂ ?_ h
  rw [List.forall₂_map_left_iff, List.forall₂_same]
  exact fun x _ node hnode => hitem node x hnode

/-! ### Records -/

namespace Shape

variable {σ α : Type} {shape : Shape σ α}

/-- From the draft `d` on, members with these names and trees come to another draft: each is a field that is
not set yet. -/
inductive Fills (shape : Shape σ α) : σ → List (Text × Tree) → σ → Prop where
  | nil {d : σ} : Fills shape d [] d
  | cons {d d' d'' : σ} {f : Field σ} {name : Text} {v : Tree} {fields : List (Text × Tree)}
      (known : shape.fields.find? (fun f => f.name.toList = name) = some f) (unset : f.isSet d = false)
      (reads : ∀ node, node.tree? = some v → f.read d node = .ok d') (rest : Fills shape d' fields d'') :
      Fills shape d ((name, v) :: fields) d''

theorem Fills.foldlM_eq {d d' : σ} {fields : List (Text × Tree)} {members : List (Key × Node)}
    (h : shape.Fills d fields d') (hmembers : membersOf? members = some fields) :
    members.foldlM shape.readMember d = .ok d' := by
  induction h generalizing members with
  | nil =>
    rw [membersOf?_eq_nil hmembers]
    rfl
  | @cons d d' d'' f name v fields known unset reads _ ih =>
    obtain ⟨behind, node, rest, rfl, hnode, hrest⟩ := membersOf?_eq_cons hmembers
    have hmember : shape.readMember d (⟨.ok name, behind⟩, node) = .ok d' := by
      simp only [readMember, bind, Except.bind, known, unset, Bool.false_eq_true, if_false]
      exact reads node hnode
    rw [List.foldlM_cons, hmember]
    exact ih hrest

/-- A record is read if its members fill a draft, completely if they must. -/
theorem Fills.read_eq {d : σ} {fields : List (Text × Tree)} {node : Node} (h : shape.Fills shape.blank fields d)
    (complete : shape.isComplete = true → shape.fields.all (fun f => f.isSet d) = true)
    (hnode : node.tree? = some (.object fields)) : shape.read node = .ok (shape.build d) := by
  obtain ⟨start, members, stop, rfl, hmembers⟩ := node.eq_object hnode
  have hfinish : shape.finish d stop = .ok (shape.build d) := by
    unfold finish
    split
    · rename_i f hmissing
      rw [if_neg]
      intro hcomplete
      have hset := List.all_eq_true.1 (complete hcomplete) f (List.mem_of_find?_eq_some hmissing)
      have hunset := List.find?_some hmissing
      simp [hset] at hunset
    · rfl
  simp only [read, h.foldlM_eq hmembers]
  exact hfinish

end Shape

end LineCensus.Json
