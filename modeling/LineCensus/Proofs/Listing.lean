import LineCensus.Proofs.FilesBelow

/-!
# Lists of files

`Listing found listed` says what a search makes of the files it finds: they come in the order of paths, every path
once, as the entry that was found first. There is one such list (`Listing.unique`), and a search gives it
(`listing_files`): sorting is stable, so of the spellings of one path the first that was found stays in front
(`filter_mergeSort`), and it is the one that is kept (`find?_dropRepeated`).

Which files are found is told by their names (`Listed`), and in a tree without links by the tree (`FoundAt`).
-/

namespace LineCensus

open LineCensus.Path (components)

/-! ### Extensions -/

/-- The name ends with this extension, or is all extension. -/
def IsExtension (name ext : Text) : Prop := '.' ∉ ext ∧ (name = ext ∨ ∃ s, name = s ++ '.' :: ext)

theorem isExtension_iff {name ext : Text} : IsExtension name ext ↔ ext = Text.afterLast '.' name := by
  constructor
  · rintro ⟨hdot, hname⟩
    have hrest : (ext.reverse).takeWhile (· != '.') = ext.reverse := by
      apply List.takeWhile_eq_self_iff.2
      intro c hc
      have hne : c ≠ '.' := fun h => hdot (h ▸ List.mem_reverse.1 hc)
      simpa using hne
    obtain rfl | ⟨s, rfl⟩ := hname
    · rw [Text.afterLast, hrest, List.reverse_reverse]
    · rw [Text.afterLast, List.reverse_append, List.reverse_cons, List.append_assoc, List.takeWhile_append, hrest]
      simp
  · rintro rfl
    exact Text.eq_afterLast '.' name

/-- One of these extensions is that of the name; upper and lower case are not told apart. -/
def Listed (extensions : List Text) (name : Text) : Prop :=
  ∃ ext, IsExtension name ext ∧ ∃ e ∈ extensions, Text.lower e = Text.lower ext

instance (extensions : List Text) (name : Text) : Decidable (Listed extensions name) :=
  decidable_of_iff (∃ e ∈ extensions, Text.lower e = Text.lower (Text.afterLast '.' name)) <| by
    simp only [Listed, isExtension_iff, exists_eq_left]

namespace SearchPlan

theorem names_iff {plan : SearchPlan} {name : Text} : plan.names name = true ↔ Listed plan.extensions name := by
  rw [names, List.contains_iff_mem, List.mem_map, extensionKey]
  constructor
  · intro h
    exact ⟨_, isExtension_iff.2 rfl, h⟩
  · rintro ⟨ext, hext, h⟩
    rwa [isExtension_iff.1 hext] at h

/-! ### The listing of what was found -/

/-- The entries that were found, each path once under the entry found first, in the order of paths. -/
structure Listing (found listed : List FoundFile) : Prop where
  increasing : listed.Pairwise fun f g => Path.compare f.path g.path = .lt
  complete : ∀ f ∈ found, ∃ g ∈ listed, Path.Same g.path f.path
  first : ∀ g ∈ listed, (found.find? fun f => decide (Path.Same f.path g.path)) = some g

theorem Listing.subset {found as bs : List FoundFile} (ha : Listing found as) (hb : Listing found bs) : as ⊆ bs := by
  intro f hf
  have hfirst := ha.first f hf
  obtain ⟨g, hg, hsame⟩ := hb.complete f (List.mem_of_find?_eq_some hfirst)
  have hclass : (fun h : FoundFile => decide (Path.Same h.path g.path)) = fun h => decide (Path.Same h.path f.path) := by
    funext h
    exact decide_eq_decide.2 ⟨fun hg => hg.trans hsame, fun hf => hf.trans hsame.symm⟩
  have hgfirst := hb.first g hg
  rw [hclass, hfirst] at hgfirst
  cases hgfirst
  exact hg

/-- What increases is told by its members. -/
theorem eq_of_increasing {α : Type} {as bs : List α} {cmp : α → α → Ordering} [Std.OrientedCmp cmp]
    (ha : as.Pairwise fun a b => cmp a b = .lt) (hb : bs.Pairwise fun a b => cmp a b = .lt) (hab : as ⊆ bs)
    (hba : bs ⊆ as) : as = bs := by
  have hirrefl : Std.Irrefl fun a b => cmp a b = .lt := ⟨fun a h => by simp [Std.ReflCmp.compare_self] at h⟩
  have hantisymm : Std.Antisymm fun a b => cmp a b = .lt :=
    ⟨fun a b hab hba => by simp [Std.OrientedCmp.gt_of_lt hab] at hba⟩
  exact List.Subset.antisymm_of_pairwise ha hb hab hba

instance : Std.OrientedCmp fun f g : FoundFile => Path.compare f.path g.path where
  eq_swap := Std.OrientedCmp.eq_swap

theorem Listing.unique {found as bs : List FoundFile} (ha : Listing found as) (hb : Listing found bs) : as = bs :=
  eq_of_increasing ha.increasing hb.increasing (ha.subset hb) (hb.subset ha)

theorem find?_dropWhile {α : Type} {p q : α → Bool} (h : ∀ a, p a = true → q a = false) (as : List α) :
    (as.dropWhile p).find? q = as.find? q := by
  induction as with
  | nil => rfl
  | cons a as ih =>
    rw [List.dropWhile_cons]
    split
    · rename_i ha
      rw [ih, List.find?_cons_of_neg (by simp [h a ha])]
    · rfl

/-- Of each path the first entry is kept. -/
theorem find?_dropRepeated (q : Text) (fs : List FoundFile) :
    ((dropRepeated fs).find? fun f => decide (Path.Same f.path q)) = fs.find? fun f => decide (Path.Same f.path q) := by
  induction fs with
  | nil => rfl
  | cons f fs ih =>
    rw [dropRepeated]
    by_cases hf : Path.Same f.path q
    · rw [List.find?_cons_of_pos (by simpa using hf), List.find?_cons_of_pos (by simpa using hf)]
    · rw [List.find?_cons_of_neg (by simpa using hf), List.find?_cons_of_neg (by simpa using hf), ← ih]
      apply find?_dropWhile
      intro g hg
      have hfg : Path.Same f.path g.path := by simpa using hg
      have hgq : ¬ Path.Same g.path q := fun h => hf (hfg.trans h)
      simpa using hgq

/-- Sorting keeps the order of the entries of one path. -/
theorem filter_mergeSort (q : Text) (fs : List FoundFile) :
    ((fs.mergeSort fun f g => (Path.compare f.path g.path).isLE).filter fun f => decide (Path.Same f.path q)) =
      fs.filter fun f => decide (Path.Same f.path q) := by
  have hclass : (fs.filter fun f => decide (Path.Same f.path q)).Pairwise fun f g =>
      (Path.compare f.path g.path).isLE := by
    refine List.pairwise_of_forall_mem_list ?_
    intro f hf g hg
    have hfq : Path.Same f.path q := by simpa using (List.mem_filter.1 hf).2
    have hgq : Path.Same g.path q := by simpa using (List.mem_filter.1 hg).2
    rw [Path.compare_eq_iff.2 (hfq.trans hgq.symm)]
    rfl
  have hsub := (List.sublist_mergeSort ordered_trans ordered_total hclass List.filter_sublist).filter
    fun f => decide (Path.Same f.path q)
  simp only [List.filter_filter, Bool.and_self] at hsub
  refine (hsub.eq_of_length ?_).symm
  exact ((List.mergeSort_perm fs _).filter _).length_eq.symm

variable {t : FileTree} {plan : SearchPlan}

/-- A search gives the listing of what it finds. -/
theorem listing_files (t : FileTree) (plan : SearchPlan) : Listing (plan.allFound t) (plan.files t) where
  increasing := by
    have hsorted := (mergeSort_pairwise (plan.allFound t)).sublist (dropRepeated_sublist _)
    refine (hsorted.and (files_pairwise t plan)).imp ?_
    rintro f g ⟨hle, hne⟩
    rcases Ordering.isLE_iff_eq_lt_or_eq_eq.1 hle with hlt | heq
    · exact hlt
    · exact absurd (Path.compare_eq_iff.1 heq) hne
  complete f hf := exists_same_of_mem (List.mem_mergeSort.2 hf)
  first g hg := by
    have hself : ((plan.files t).find? fun f => decide (Path.Same f.path g.path)) = some g := by
      cases hfind : (plan.files t).find? fun f => decide (Path.Same f.path g.path) with
      | none => exact absurd (List.find?_eq_none.1 hfind g hg) (by simp [Path.Same])
      | some f =>
        have hsame : Path.Same f.path g.path := by simpa using List.find?_some hfind
        have hsymm : Std.Symm fun f g : FoundFile => ¬ Path.Same f.path g.path := ⟨fun _ _ h h' => h h'.symm⟩
        by_contra hne
        exact (files_pairwise t plan).forall (List.mem_of_find?_eq_some hfind) hg (fun h => hne (congrArg some h)) hsame
    rw [files, find?_dropRepeated, ← List.head?_filter, filter_mergeSort, List.head?_filter] at hself
    exact hself

theorem Listing.components_subset {found found' as bs : List FoundFile} (ha : Listing found as)
    (hb : Listing found' bs) (h : found ⊆ found') :
    (as.map fun f => components f.path) ⊆ bs.map fun f => components f.path := by
  intro c hc
  obtain ⟨f, hf, rfl⟩ := List.mem_map.1 hc
  obtain ⟨g, hg, hsame⟩ := hb.complete f (h (List.mem_of_find?_eq_some (ha.first f hf)))
  exact List.mem_map.2 ⟨g, hg, hsame⟩

instance : Std.OrientedCmp Path.compareComponents := by
  rw [Path.compareComponents_eq_compareLex]
  infer_instance

/-- The same found in another order is listed under the same paths. -/
theorem Listing.components_eq {found found' as bs : List FoundFile} (ha : Listing found as)
    (hb : Listing found' bs) (h : found.Perm found') :
    (as.map fun f => components f.path) = bs.map fun f => components f.path := by
  refine @eq_of_increasing _ _ _ Path.compareComponents _ ?_ ?_ ?_ ?_
  · exact List.pairwise_map.2 ha.increasing
  · exact List.pairwise_map.2 hb.increasing
  · exact ha.components_subset hb h.subset
  · exact hb.components_subset ha h.symm.subset

/-! ### What is found -/

/-- The visit at which a file is found. -/
def visitOf (f : FoundFile) : Walk.Visit := .file f.path f.name f.size

/-- The visit is one of a file with one of these extensions. -/
def isListed (extensions : List Text) : Walk.Visit → Bool
  | .file _ name _ => decide (Listed extensions name)
  | _ => false

theorem map_visitOf (vs : List Walk.Visit) :
    (vs.filterMap plan.found?).map visitOf = vs.filter (isListed plan.extensions) := by
  induction vs with
  | nil => rfl
  | cons v vs ih =>
    cases v with
    | file path name size =>
      by_cases hlisted : Listed plan.extensions name
      · simp [found?, isListed, hlisted, names_iff.2 hlisted, visitOf, ih]
      · have hnames : ¬ plan.names name = true := fun h => hlisted (names_iff.1 h)
        simp [found?, isListed, hlisted, hnames, ih]
    | _ =>
      rw [List.filterMap_cons_none rfl, List.filter_cons_of_neg (by simp [isListed])]
      exact ih

/-- What is found at a root: nothing if it leads nowhere, else the files with a listed extension that the walk
visits. In a tree without links, and without ignore files, these are the file to which the root leads, or those
below the directory to which it leads, but for the root that stands for the standard input. -/
structure FoundAt (t : FileTree) (plan : SearchPlan) (r : Text) : Prop where
  missing : t.contains r = false → below t plan r = []
  walked : t.contains r = true →
    (below t plan r).map visitOf = (Walk.run t plan.options r).filter (isListed plan.extensions)
  extension : ∀ f ∈ below t plan r, ∃ ext, IsExtension f.name ext ∧ f.extension = Text.lower ext
  input : components r = [.name ['-']] → below t plan r = []
  file : t.top.isPlain → plan.options.respectsIgnoreFiles = false → components r ≠ [.name ['-']] →
    ∀ l bytes, t.locate true r = .ok l → t.at? l = some (.file bytes) →
      ∃ k name, l = k ++ [name] ∧
        (below t plan r).map visitOf = if Listed plan.extensions name then [.file r name bytes.length] else []
  directory : t.top.isPlain → plan.options.respectsIgnoreFiles = false → components r ≠ [.name ['-']] →
    ∀ l children, t.locate true r = .ok l → t.at? l = some (.directory children) →
      ∀ f, f ∈ below t plan r ↔ ∃ ns name bytes, f = fileBelow r ns name bytes ∧
        t.at? (l ++ ns ++ [name]) = some (.file bytes) ∧ Listed plan.extensions name ∧
        (plan.options.isRecursive = true ∨ ns = []) ∧
        (plan.options.includesHidden = true ∨ ∀ m ∈ ns ++ [name], m.head? ≠ some '.')

theorem isStandardInput_eq_false {r : Text} (h : components r ≠ [.name ['-']]) : Walk.isStandardInput r = false := by
  simp [Walk.isStandardInput, h]

theorem foundAt (t : FileTree) (plan : SearchPlan) (r : Text) : FoundAt t plan r where
  missing := below_of_not_contains
  walked h := by rw [below, visits?, if_pos h, Option.getD_some, map_visitOf]
  extension f hf := by
    obtain ⟨-, -, -, hextension⟩ := mem_below.1 hf
    exact ⟨_, isExtension_iff.2 rfl, hextension⟩
  input h := below_of_isStandardInput (by simp [Walk.isStandardInput, h])
  file ht _ hinput l bytes hr hl := by
    obtain ⟨k, name, hk, hbelow⟩ : ∃ k name, l = k ++ [name] ∧
        below t plan r = if plan.names name then [⟨r, extensionKey name, name, bytes.length⟩] else [] :=
      below_file ht (isStandardInput_eq_false hinput) hr hl
    refine ⟨k, name, hk, ?_⟩
    by_cases hlisted : Listed plan.extensions name
    · simp [hbelow, hlisted, names_iff.2 hlisted, visitOf]
    · have hnames : ¬ plan.names name = true := fun h => hlisted (names_iff.1 h)
      simp [hbelow, hlisted, hnames]
  directory ht hrespects hinput l children hr hl f := by
    rw [mem_below_directory ht hrespects (isStandardInput_eq_false hinput) hr hl]
    constructor
    · rintro ⟨ns, name, bytes, hfile, hshows, hnames, hf⟩
      exact ⟨ns, name, bytes, hf, hfile, names_iff.1 hnames, Walk.shows_iff.1 hshows⟩
    · rintro ⟨ns, name, bytes, hf, hfile, hlisted, hshows⟩
      exact ⟨ns, name, bytes, hfile, Walk.shows_iff.2 hshows, names_iff.2 hlisted, hf⟩

/-- **The listing of a search**: the files that are found root by root are listed in the order of paths, every
path once as it was found first, and no other list does this; the roots in another order give the same paths.
`FoundAt` says what is found at each root. -/
theorem files_listing (t : FileTree) (plan : SearchPlan) :
    (∀ listed, Listing (plan.allFound t) listed ↔ listed = plan.files t) ∧
    (∀ roots : List Text, roots.Perm plan.roots →
      ((SearchPlan.files t { plan with roots }).map fun f => components f.path) =
        (plan.files t).map fun f => components f.path) ∧
    plan.allFound t = plan.roots.flatMap (below t plan) ∧ ∀ r, FoundAt t plan r := by
  refine ⟨?_, ?_, rfl, foundAt t plan⟩
  · intro listed
    constructor
    · intro h
      exact h.unique (listing_files t plan)
    · rintro rfl
      exact listing_files t plan
  · intro roots hroots
    refine (listing_files t _).components_eq (listing_files t plan) ?_
    exact hroots.flatMap_right (below t plan)

/-- A file in a directory, one further down whose extension is spelled in capitals, and a hidden one. -/
def sources : FileTree :=
  ⟨.directory [("src".toList, .directory
    [("x.c".toList, .file [0x78]), ("sub".toList, .directory [("y.C".toList, .file [])]),
      (".z.c".toList, .file [])])], []⟩

/-- The first root is a file below the second, spelled with two slashes. -/
def overlapping : SearchPlan := ⟨["src//x.c".toList, "src".toList], ["c".toList], ⟨true, false, false, false⟩⟩

/-- The file further down is listed, and of the two spellings of a path the one found first. -/
theorem files_listing_overlapping :
    sources.top.isPlain ∧ overlapping.options.respectsIgnoreFiles = false ∧
    (∃ f ∈ overlapping.files sources, Path.Same f.path "src/sub/y.C".toList) ∧
    ∀ f ∈ overlapping.files sources, Path.Same f.path "src/x.c".toList → f.path = "src//x.c".toList := by
  have plain : sources.top.isPlain := by decide
  obtain ⟨hlistings, -, hfound, hroots⟩ := files_listing sources overlapping
  have hlisting := (hlistings _).2 rfl
  refine ⟨plain, rfl, ?_, ?_⟩
  · have leads : sources.locate true "src".toList = .ok ["src".toList] := by cbv
    have hbelow := ((hroots "src".toList).directory plain rfl (by decide) _ _ leads rfl _).2
      ⟨["sub".toList], "y.C".toList, [], rfl, rfl, by decide, .inl rfl, .inr (by decide)⟩
    obtain ⟨f, hf, hsame⟩ := hlisting.complete _ (mem_allFound.2 ⟨_, by decide, hbelow⟩)
    exact ⟨f, hf, hsame⟩
  · intro f hf hsame
    have leads : sources.locate true "src//x.c".toList = .ok ["src".toList, "x.c".toList] := by cbv
    obtain ⟨k, name, hk, hvisits⟩ := (hroots "src//x.c".toList).file plain rfl (by decide) _ _ leads rfl
    have hplace : ["src".toList] ++ ["x.c".toList] = k ++ [name] := hk
    have hname : "x.c".toList = name := List.singleton_inj.1 (List.append_inj' hplace rfl).2
    rw [← hname, if_pos (by decide)] at hvisits
    obtain ⟨g, hg, hvisit⟩ := List.map_eq_singleton_iff.1 hvisits
    have hpath : g.path = "src//x.c".toList := (Walk.Visit.file.inj hvisit).1
    have hspelling : Path.Same "src//x.c".toList "src/x.c".toList := by decide
    have hgf : Path.Same g.path f.path := (hpath ▸ hspelling).trans hsame.symm
    have hfirst := hlisting.first f hf
    rw [hfound, overlapping, List.flatMap_cons, ← overlapping, hg, List.singleton_append,
      List.find?_cons_of_pos (by simpa using hgf)] at hfirst
    rw [← Option.some.inj hfirst, hpath]

/-- A directory whose name stands for the standard input. -/
def dashed : FileTree := ⟨.directory [("-".toList, .directory [("a.c".toList, .file [0x78])])], []⟩

/-- What is found below a directory is not told by its files alone: below the root `-` nothing is found. -/
theorem found_not_by_names_alone : ¬ ∀ (t : FileTree) (plan : SearchPlan), t.top.isPlain →
    plan.options.respectsIgnoreFiles = false → ∀ r ∈ plan.roots, ∀ l children, t.locate true r = .ok l →
      t.at? l = some (.directory children) → ∀ ns name bytes, t.at? (l ++ ns ++ [name]) = some (.file bytes) →
        Listed plan.extensions name → (plan.options.isRecursive = true ∨ ns = []) →
          (plan.options.includesHidden = true ∨ ∀ m ∈ ns ++ [name], m.head? ≠ some '.') →
            fileBelow r ns name bytes ∈ plan.allFound t := by
  intro hcomplete
  have leads : dashed.locate true "-".toList = .ok ["-".toList] := by cbv
  have hmem := hcomplete dashed (everyC ["-".toList]) (by decide) rfl "-".toList (by decide) _ _ leads rfl [] "a.c".toList
    [0x78] rfl (by decide) (.inl rfl) (.inr (by decide))
  obtain ⟨r, hr, hbelow⟩ := mem_allFound.1 hmem
  obtain rfl : r = "-".toList := by simpa [everyC] using hr
  rw [below_of_isStandardInput (by decide)] at hbelow
  cases hbelow

end SearchPlan

end LineCensus
