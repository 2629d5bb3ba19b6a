import LineCensus.Walk

/-!
# What a walk visits, step by step

Of the visits of a walk only those of files matter for what a search finds. `mem_visit_succ` says what files are
visited in a directory, given those that are visited in its entries, and `mem_run` with which directory a walk
begins. Nothing else needs to open the definition of a walk.
-/

namespace LineCensus.Walk

open FileTree (Node)

variable {t : FileTree} {options : WalkOptions}

/-- The levels of a directory that is entered by a name from a directory with these levels. -/
def enterLevel (t : FileTree) (options : WalkOptions) (levels : List Level) (name : Text) (target : Location) :
    List Level :=
  if options.respectsIgnoreFiles then ⟨name, DirectoryRules.load t target⟩ :: levels else []

/-- A file is visited as an entry of the directory, or further down in an entry that is entered. -/
theorem mem_visit_succ {fuel size : Nat} {path p n : Text} {l : Location} {ancestors : List Ancestor}
    {levels : List Level} {children : List (Text × Node)} :
    .file p n size ∈ visit t options (fuel + 1) path l ancestors levels children ↔
      ∃ entry ∈ children,
        (∃ target bytes, look t options ancestors (Path.join path entry.1) l entry.1 entry.2 =
            .ok (some (target, .file bytes)) ∧
          isWanted options levels false entry.1 = true ∧
          p = Path.join path entry.1 ∧ n = entry.1 ∧ size = bytes.length) ∨
        ∃ target inner, look t options ancestors (Path.join path entry.1) l entry.1 entry.2 =
            .ok (some (target, .directory inner)) ∧
          isWanted options levels true entry.1 = true ∧ options.isRecursive = true ∧
          .file p n size ∈ visit t options fuel (Path.join path entry.1) target
            (⟨Path.join path entry.1, target⟩ :: ancestors) (enterLevel t options levels entry.1 target) inner := by
  rw [visit, List.mem_flatMap]
  apply exists_congr
  rintro ⟨name, node⟩
  apply and_congr_right
  intro _
  simp only
  split
  · rename_i hlook
    simp [hlook]
  · rename_i target bytes hlook
    by_cases hwanted : isWanted options levels false name = true
    · simp [hlook, hwanted, and_assoc]
    · simp [hlook, hwanted]
  · rename_i target inner hlook
    by_cases hwanted : isWanted options levels true name = true
    · by_cases hdeeper : options.isRecursive = true
      · simp [hlook, hwanted, hdeeper, enterLevel, and_assoc]
      · simp [hlook, hwanted, hdeeper]
    · simp [hlook, hwanted]
  · rename_i seen hfile hdirectory hlook
    refine iff_of_false List.not_mem_nil ?_
    rintro (⟨target, bytes, h, -⟩ | ⟨target, inner, h, -⟩)
    · exact hfile target bytes (Except.ok.inj (hlook.symm.trans h))
    · exact hdirectory target inner (Except.ok.inj (hlook.symm.trans h))

/-- A walk visits the file to which its root leads, or files in the directory to which it leads. -/
theorem mem_run {root p n : Text} {size : Nat} :
    .file p n size ∈ run t options root ↔ isStandardInput root = false ∧ ∃ l, t.locate true root = .ok l ∧
      ((∃ bytes, t.at? l = some (.file bytes) ∧ p = root ∧ n = Path.displayName root ∧ size = bytes.length) ∨
        ∃ children, t.at? l = some (.directory children) ∧
          .file p n size ∈ visit t options (fuel t) root l [⟨root, l⟩]
            (if options.respectsIgnoreFiles then levelsAt t l else []) children) := by
  rw [run]
  by_cases hinput : isStandardInput root = true
  · simp [hinput]
  · simp only [hinput]
    cases hroot : t.locate true root with
    | error e => simp
    | ok l =>
      simp only [Except.ok.injEq, exists_eq_left']
      cases hl : t.at? l with
      | none => simp
      | some node => cases node <;> simp

end LineCensus.Walk
