import LineCensus.Proofs.HiddenNames

/-!
# The files below a root

In a tree without links, and without ignore files, a walk is told by the tree alone: it visits a file exactly if
its names are wanted one by one, and no deeper than asked (`mem_visit_iff`). The fuel of a walk is never used up,
as every directory it enters has fewer nodes than the one before. `mem_below_directory` says this of a root that
leads to a directory, `below_file` says what is found at a root that leads to a file.
-/

namespace LineCensus

open LineCensus.Path (components)

namespace Text

/-- A text is all behind its last `c`, or ends with this character and what is behind it. -/
theorem eq_afterLast (c : Char) (t : Text) :
    c ∉ afterLast c t ∧ (t = afterLast c t ∨ ∃ s, t = s ++ c :: afterLast c t) := by
  have hsplit := congrArg List.reverse (List.takeWhile_append_dropWhile (p := (· != c)) (l := t.reverse))
  rw [List.reverse_append, List.reverse_reverse] at hsplit
  refine ⟨?_, ?_⟩
  · intro hmem
    have hne := List.mem_takeWhile_imp (List.mem_reverse.1 hmem)
    simp at hne
  · cases hrest : t.reverse.dropWhile (· != c) with
    | nil =>
      left
      rw [hrest] at hsplit
      exact hsplit.symm
    | cons d rest =>
      right
      have hd : d = c := by simpa [hrest] using List.head?_dropWhile_not (· != c) t.reverse
      refine ⟨rest.reverse, ?_⟩
      rw [hrest, hd, List.reverse_cons, List.append_assoc] at hsplit
      exact hsplit.symm

end Text

namespace FileTree

/-! ### Nodes and their number -/

namespace Node

variable {n c : Node} {cs : List (Text × Node)} {name : Text}

theorem count_pos (n : Node) : 0 < n.count := by
  cases n <;> simp [count]

theorem count_lt_of_mem (h : (name, c) ∈ cs) : c.count < (directory cs).count := by
  rw [count]
  induction cs with
  | nil => cases h
  | cons d rest ih =>
    obtain ⟨k, d⟩ := d
    rw [countAll]
    rcases List.mem_cons.1 h with he | h
    · cases he
      omega
    · have hrest := ih h
      omega

theorem mem_of_lookup (h : cs.lookup name = some c) : (name, c) ∈ cs := by
  obtain ⟨before, after, rfl, -⟩ := List.lookup_eq_some_iff.1 h
  simp

theorem count_le_of_at? {l : Location} (h : n.at? l = some c) : c.count ≤ n.count := by
  induction l generalizing n with
  | nil =>
    cases h
    exact le_rfl
  | cons name l ih =>
    simp only [at?] at h
    split at h
    · rename_i d hd
      cases n with
      | directory cs => exact (ih h).trans (count_lt_of_mem (mem_of_lookup hd)).le
      | _ => cases hd
    · cases h

end Node

variable {t : FileTree} {l : Location}

theorem at?_append_of_at? {n : Node} (hl : t.at? l = some n) (k : Location) : t.at? (l ++ k) = n.at? k := by
  rw [at?, Node.at?_append, show t.top.at? l = _ from hl, Option.bind_some]

/-- What lies below a directory lies in one of its entries. -/
theorem exists_entry {children : List (Text × Node)} (hl : t.at? l = some (.directory children)) {name : Text}
    {rest : Location} {n : Node} (h : t.at? (l ++ name :: rest) = some n) :
    ∃ c, (name, c) ∈ children ∧ c.at? rest = some n := by
  rw [at?_append_of_at? hl, Node.at?] at h
  split at h
  · rename_i c hc
    exact ⟨c, Node.mem_of_lookup hc, h⟩
  · cases h

theorem count_le_fuel {n : Node} (h : t.at? l = some n) : n.count ≤ Walk.fuel t := by
  have hle : n.count ≤ t.top.count := Node.count_le_of_at? h
  rw [Walk.fuel]
  nlinarith

/-! ### Paths that lead to a file -/

/-- The last step to a file is its name. -/
theorem exists_dropLast_of_walkSteps (ht : t.top.isPlain) {follow : Bool} {links : Nat} {ss : List Text} {s : Text}
    {m : Location} {bytes : List UInt8} (h : t.walkSteps follow links m (ss ++ [s]) = .ok l)
    (hl : t.at? l = some (.file bytes)) : s ≠ ['.'] ∧ s ≠ ['.', '.'] ∧ ∃ k, l = k ++ [s] := by
  rw [walkSteps_append ht] at h
  cases hw : t.walkSteps follow links m ss with
  | error e =>
    rw [hw] at h
    cases h
  | ok k =>
    simp only [hw, Except.bind, walkSteps_cons ht, walkSteps] at h
    split_ifs at h with hdir hdot hup hnone
    · cases h
      simp [hl, Node.isDirectory] at hdir
    · -- the directory above a directory is no file
      cases h
      exfalso
      cases k using List.reverseRecOn with
      | nil => simp [show t.at? [] = _ from hl, Node.isDirectory] at hdir
      | append_singleton k x =>
        rw [List.dropLast_concat] at hl
        rw [at?_append_of_at? hl] at hdir
        simp [Node.at?, Node.children] at hdir
    · cases h
      exact ⟨hdot, hup, k, rfl⟩

/-- The last step of a path leads to the directory, to the one above, or is the name with which the path ends. -/
theorem exists_last_step {p : Text} (hp : p ≠ []) :
    ∃ ss s, steps p = ss ++ [s] ∧ (s = ['.'] ∨ s = ['.', '.'] ∨ Path.fileName? p = some s) := by
  obtain ⟨hslash, hend⟩ := Text.eq_afterLast '/' p
  generalize Text.afterLast '/' p = s at hslash hend
  by_cases hnil : s = []
  · -- the path ends with a slash
    obtain rfl | ⟨q, rfl⟩ := hend
    · exact absurd hnil hp
    · refine ⟨((q ++ '/' :: s).splitOn '/').filter (· ≠ []), ['.'], ?_, .inl rfl⟩
      rw [steps, if_pos (by simp [hnil])]
  · obtain ⟨ss, hss⟩ : ∃ ss, steps p = ss ++ [s] := by
      obtain rfl | ⟨q, rfl⟩ := hend
      · exact ⟨[], steps_of_notMem hp hslash⟩
      · exact ⟨_, steps_append_slash hnil hslash q⟩
    refine ⟨ss, s, hss, ?_⟩
    by_cases hdot : s = ['.']
    · exact .inl hdot
    · by_cases hup : s = ['.', '.']
      · exact .inr (.inl hup)
      · right; right
        have hname : Path.isEntryName s := Path.isEntryName_iff.2 ⟨hnil, hslash, hdot, hup⟩
        have hcomponents : ∃ cs, components p = cs ++ [.name s] := by
          obtain rfl | ⟨q, rfl⟩ := hend
          · exact ⟨_, Path.components_join hname []⟩
          · refine ⟨if q = [] then [.root] else components q, ?_⟩
            rw [Path.components_append_slash, Path.splitOn_of_isEntryName hname]
            simp [Path.component?_of_isEntryName hname]
        obtain ⟨cs, hcs⟩ := hcomponents
        simp [Path.fileName?, hcs]

/-- A path that leads to a file ends with its name. -/
theorem exists_fileName (ht : t.top.isPlain) {p : Text} {bytes : List UInt8} (hp : t.locate true p = .ok l)
    (hl : t.at? l = some (.file bytes)) : ∃ k name, l = k ++ [name] ∧ Path.fileName? p = some name := by
  rw [locate] at hp
  split at hp
  · cases hp
  · rename_i hnil
    obtain ⟨ss, s, hss, hs⟩ := exists_last_step hnil
    rw [hss] at hp
    obtain ⟨hdot, hup, k, rfl⟩ := exists_dropLast_of_walkSteps ht hp hl
    exact ⟨k, s, rfl, (hs.resolve_left hdot).resolve_left hup⟩

end FileTree

namespace Walk

open FileTree (Node)

variable {t : FileTree} {options : WalkOptions}

/-! ### What a walk visits -/

/-- Without ignore files, an entry is wanted unless it is hidden. -/
theorem isWanted_eq (hrespects : options.respectsIgnoreFiles = false) (levels : List Level) (isDirectory : Bool)
    (name : Text) : isWanted options levels isDirectory name = (options.includesHidden || !isHidden name) := by
  simp [isWanted, hrespects]

/-- The names lead from a directory to a file that a walk is to visit. -/
structure Shows (options : WalkOptions) (ns : List Text) (n : Text) : Prop where
  depth : options.isRecursive = true ∨ ns = []
  visible : options.includesHidden = true ∨ ∀ m ∈ ns ++ [n], isHidden m = false

theorem shows_iff {ns : List Text} {n : Text} :
    Shows options ns n ↔ (options.isRecursive = true ∨ ns = []) ∧
      (options.includesHidden = true ∨ ∀ m ∈ ns ++ [n], m.head? ≠ some '.') := by
  have hvisible : (∀ m ∈ ns ++ [n], isHidden m = false) ↔ ∀ m ∈ ns ++ [n], m.head? ≠ some '.' :=
    forall₂_congr fun m _ => decide_eq_false_iff_not
  rw [← hvisible]
  exact ⟨fun h => ⟨h.depth, h.visible⟩, fun h => ⟨h.1, h.2⟩⟩

theorem shows_nil {n : Text} : Shows options [] n ↔ (options.includesHidden || !isHidden n) = true := by
  constructor
  · rintro ⟨-, hvisible⟩
    simpa using hvisible
  · intro h
    exact ⟨.inr rfl, by simpa using h⟩

theorem shows_cons {m n : Text} {ns : List Text} :
    Shows options (m :: ns) n ↔
      (options.includesHidden || !isHidden m) = true ∧ options.isRecursive = true ∧ Shows options ns n := by
  constructor
  · rintro ⟨hdepth, hvisible⟩
    have hdeeper : options.isRecursive = true := by simpa using hdepth
    refine ⟨?_, hdeeper, .inl hdeeper, ?_⟩
    · rcases hvisible with h | h
      · simp [h]
      · simp [h m (by simp)]
    · exact hvisible.imp_right fun h k hk => h k (List.mem_cons_of_mem m hk)
  · rintro ⟨hm, hdeeper, -, hvisible⟩
    refine ⟨.inl hdeeper, ?_⟩
    simp only [Bool.or_eq_true, Bool.not_eq_true'] at hm
    by_cases hincludes : options.includesHidden = true
    · exact .inl hincludes
    · right
      intro k hk
      rcases List.mem_cons.1 hk with rfl | hk
      · exact hm.resolve_left hincludes
      · exact hvisible.resolve_left hincludes k hk

/-- In a tree without links, and without ignore files, a walk visits the files below a directory to which names
lead that it shows. -/
theorem mem_visit_iff (ht : t.top.isPlain) (hrespects : options.respectsIgnoreFiles = false) {fuel size : Nat}
    {path p n : Text} {l : Location} {ancestors : List Ancestor} {levels : List Level} {children : List (Text × Node)}
    (hl : t.at? l = some (.directory children)) (hfuel : (Node.directory children).count ≤ fuel) :
    .file p n size ∈ visit t options fuel path l ancestors levels children ↔
      ∃ ns bytes, t.at? (l ++ ns ++ [n]) = some (.file bytes) ∧ Shows options ns n ∧
        p = (ns ++ [n]).foldl Path.join path ∧ size = bytes.length := by
  induction fuel generalizing path l ancestors levels children with
  | zero =>
    have hpos := Node.count_pos (.directory children)
    omega
  | succ fuel ih =>
    have hinner : ∀ {name : Text} {inner : List (Text × Node)}, (name, .directory inner) ∈ children →
        (Node.directory inner).count ≤ fuel := by
      intro name inner hentry
      have hlt := Node.count_lt_of_mem hentry
      omega
    rw [mem_visit_succ]
    constructor
    · rintro ⟨⟨name, node⟩, hentry, h⟩
      obtain ⟨-, hat⟩ := FileTree.at?_entry ht hl hentry
      cases node with
      | file bytes =>
        rcases h with ⟨target, bytes', hlook, hwanted, rfl, rfl, rfl⟩ | ⟨target, inner, hlook, -⟩
        · cases hlook
          rw [isWanted_eq hrespects] at hwanted
          exact ⟨[], bytes, by rwa [List.append_nil], shows_nil.2 hwanted, rfl, rfl⟩
        · cases hlook
      | link target => cases FileTree.Node.isPlain_at? ht hat
      | directory inner =>
        rcases h with ⟨target, bytes, hlook, -⟩ | ⟨target, inner', hlook, hwanted, hdeeper, hv⟩
        · cases hlook
        · cases hlook
          rw [isWanted_eq hrespects] at hwanted
          obtain ⟨ns, bytes, hfile, hshows, hp, hsize⟩ := (ih hat (hinner hentry)).1 hv
          refine ⟨name :: ns, bytes, ?_, shows_cons.2 ⟨hwanted, hdeeper, hshows⟩, hp, hsize⟩
          simpa using hfile
    · rintro ⟨ns, bytes, hfile, hshows, rfl, rfl⟩
      cases ns with
      | nil =>
        rw [List.append_nil] at hfile
        obtain ⟨c, hentry, hc⟩ := FileTree.exists_entry hl hfile
        cases hc
        refine ⟨(n, .file bytes), hentry, .inl ⟨_, bytes, rfl, ?_, rfl, rfl, rfl⟩⟩
        rw [isWanted_eq hrespects]
        exact shows_nil.1 hshows
      | cons m ns =>
        obtain ⟨hm, hdeeper, hshows⟩ := shows_cons.1 hshows
        rw [List.append_assoc, List.cons_append] at hfile
        obtain ⟨c, hentry, hc⟩ := FileTree.exists_entry hl hfile
        obtain ⟨-, hat⟩ := FileTree.at?_entry ht hl hentry
        -- what has entries is a directory
        cases c with
        | file bytes => cases ns <;> cases hc
        | link target => cases FileTree.Node.isPlain_at? ht hat
        | directory inner =>
          refine ⟨(m, .directory inner), hentry, .inr ⟨_, inner, rfl, ?_, hdeeper, ?_⟩⟩
          · rw [isWanted_eq hrespects]
            exact hm
          · refine (ih hat (hinner hentry)).2 ⟨ns, bytes, ?_, hshows, rfl, rfl⟩
            rw [List.append_assoc, FileTree.at?_append_of_at? hat]
            exact hc

end Walk

namespace SearchPlan

variable {t : FileTree} {plan : SearchPlan} {l : Location} {r : Text}

/-- The file of this name and these bytes to which names lead from a root. -/
def fileBelow (r : Text) (ns : List Text) (name : Text) (bytes : List UInt8) : FoundFile :=
  ⟨(ns ++ [name]).foldl Path.join r, extensionKey name, name, bytes.length⟩

theorem contains_of_at? {n : FileTree.Node} (hr : t.locate true r = .ok l) (hl : t.at? l = some n) :
    t.contains r = true := by
  simp [FileTree.contains, FileTree.find, hr, hl, Except.isOk, Except.toBool, bind, Except.bind, pure, Except.pure]

/-- What is found below a directory are the files that the walk shows, if the plan names them. -/
theorem mem_below_directory (ht : t.top.isPlain) (hrespects : plan.options.respectsIgnoreFiles = false)
    {children : List (Text × FileTree.Node)} (hinput : Walk.isStandardInput r = false)
    (hr : t.locate true r = .ok l) (hl : t.at? l = some (.directory children)) {f : FoundFile} :
    f ∈ below t plan r ↔ ∃ ns name bytes, t.at? (l ++ ns ++ [name]) = some (.file bytes) ∧
      Walk.Shows plan.options ns name ∧ plan.names name = true ∧ f = fileBelow r ns name bytes := by
  have hrun : ∀ p n size, .file p n size ∈ Walk.run t plan.options r ↔
      ∃ ns bytes, t.at? (l ++ ns ++ [n]) = some (.file bytes) ∧ Walk.Shows plan.options ns n ∧
        p = (ns ++ [n]).foldl Path.join r ∧ size = bytes.length := by
    intro p n size
    rw [Walk.mem_run]
    simp only [hinput, hr, hl, true_and, Except.ok.injEq, exists_eq_left', Option.some.injEq, reduceCtorEq,
      FileTree.Node.directory.injEq, false_and, exists_false, false_or]
    exact Walk.mem_visit_iff ht hrespects hl (FileTree.count_le_fuel hl)
  rw [mem_below, hrun, contains_of_at? hr hl]
  constructor
  · rintro ⟨-, ⟨ns, bytes, hfile, hshows, hpath, hsize⟩, hnames, hextension⟩
    refine ⟨ns, f.name, bytes, hfile, hshows, hnames, ?_⟩
    rw [fileBelow, ← hpath, ← hsize, ← hextension]
  · rintro ⟨ns, name, bytes, hfile, hshows, hnames, rfl⟩
    exact ⟨rfl, ⟨ns, bytes, hfile, hshows, rfl, rfl⟩, hnames, rfl⟩

/-- At a root that leads to a file, this file alone is found, if the plan names it. -/
theorem below_file (ht : t.top.isPlain) {bytes : List UInt8} (hinput : Walk.isStandardInput r = false)
    (hr : t.locate true r = .ok l) (hl : t.at? l = some (.file bytes)) :
    ∃ k name, l = k ++ [name] ∧
      below t plan r = if plan.names name then [⟨r, extensionKey name, name, bytes.length⟩] else [] := by
  obtain ⟨k, name, hk, hname⟩ := FileTree.exists_fileName ht hr hl
  refine ⟨k, name, hk, ?_⟩
  have hrun : Walk.run t plan.options r = [.file r name bytes.length] := by
    rw [Walk.run, if_neg (by simp [hinput]), hr]
    simp only [hl, Path.displayName, hname, Option.getD_some]
  rw [below, visits?, if_pos (contains_of_at? hr hl), hrun]
  by_cases hnames : plan.names name = true <;> simp [found?, hnames]

/-- Nothing is found below a root that stands for the standard input. -/
theorem below_of_isStandardInput (hinput : Walk.isStandardInput r = true) : below t plan r = [] := by
  unfold below visits?
  split <;> simp [Walk.run, hinput]

/-- Nothing is found below a root that leads nowhere. -/
theorem below_of_not_contains (hr : t.contains r = false) : below t plan r = [] := by
  simp [below, visits?, hr]

end SearchPlan

end LineCensus
