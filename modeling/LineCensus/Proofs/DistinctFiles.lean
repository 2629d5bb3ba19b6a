import Mathlib
import LineCensus.Search
import LineCensus.Proofs.PlainTrees
import LineCensus.Proofs.WalkSteps

/-!
# The files of a search, each once

A search lists each path once (`files_pairwise`): sorting brings the spellings of one path together,
and of neighbours only the first is kept. Two paths may still lead to one file. In a tree without
links, paths that begin alike (`Path.stem`) and lead to one place are spellings of one path
(`same_of_stem_eq`), so what a search lists twice it found below two roots that begin differently.
-/

namespace LineCensus

namespace Path

/-! ### The order of paths -/

namespace Component

theorem compare_eq_compareLex :
    Component.compare = compareLex (compareOn rank) (compareOn fun c => c.text.map Char.toNat) := rfl

instance : Std.TransCmp Component.compare := by
  rw [compare_eq_compareLex]
  infer_instance

theorem eq_of_compare {a b : Component} (h : a.compare b = .eq) : a = b := by
  simp only [Component.compare, Ordering.then_eq_eq, Std.LawfulEqOrd.compare_eq_iff_eq] at h
  have htext : a.text = b.text := List.map_injective_iff.2 (fun _ _ => Char.toNat_inj.1) h.2
  cases a <;> cases b <;> simp_all [rank, text]

instance : Std.LawfulEqCmp Component.compare where
  compare_self := Std.ReflCmp.compare_self
  eq_of_compare := eq_of_compare

end Component

theorem compareComponents_eq_compareLex : compareComponents = List.compareLex Component.compare := by
  funext as bs
  induction as generalizing bs with
  | nil =>
    cases bs with
    | nil => rw [compareComponents, List.compareLex_nil_nil]
    | cons b bs => rw [compareComponents, List.compareLex_nil_cons]
  | cons a as ih =>
    cases bs with
    | nil => rw [compareComponents, List.compareLex_cons_nil]
    | cons b bs => rw [compareComponents, List.compareLex_cons_cons, ih]

instance : Std.TransCmp Path.compare where
  eq_swap := by
    simp only [Path.compare, compareComponents_eq_compareLex]
    exact Std.OrientedCmp.eq_swap
  isLE_trans := by
    simp only [Path.compare, compareComponents_eq_compareLex]
    exact Std.TransCmp.isLE_trans

/-- The order of paths tells apart what are not two spellings of one path. -/
theorem compare_eq_iff {p q : Text} : Path.compare p q = .eq ↔ Same p q := by
  rw [Path.compare, compareComponents_eq_compareLex, Std.LawfulEqCmp.compare_eq_iff_eq, Same]

/-! ### How a path begins -/

namespace Component

/-- The component is a name. -/
def isName : Component → Bool
  | name _ => true
  | _ => false

end Component

/-- What stands before the names with which a path ends: a leading slash, a leading dot, or nothing, and
all up to the last `..` if there is one. -/
def stem (p : Text) : List Component := (components p).rdropWhile Component.isName

/-- Names behind a path do not change how it begins. -/
theorem stem_eq_of_append {p q : Text} {ns : List Text} (h : components p = components q ++ ns.map Component.name) :
    stem p = stem q := by
  rw [stem, stem, h]
  simp only [List.rdropWhile, List.reverse_append]
  rw [List.dropWhile_append_of_pos]
  simp [Component.isName]

theorem Component.exists_names {cs : List Component} (h : ∀ c ∈ cs, c.isName) : ∃ ns : List Text, cs = ns.map name := by
  induction cs with
  | nil => exact ⟨[], rfl⟩
  | cons c cs ih =>
    obtain ⟨ns, rfl⟩ := ih fun d hd => h d (List.mem_cons_of_mem c hd)
    cases c with
    | name n => exact ⟨n :: ns, rfl⟩
    | _ => cases h _ (List.mem_cons_self ..)

theorem components_eq_stem_append (p : Text) : ∃ ns : List Text, components p = stem p ++ ns.map Component.name := by
  obtain ⟨ns, hns⟩ := Component.exists_names fun c (hc : c ∈ (components p).rtakeWhile Component.isName) =>
    List.mem_rtakeWhile_imp hc
  exact ⟨ns, by rw [← hns, stem, List.rdropWhile_append_rtakeWhile]⟩

end Path

open LineCensus.Path (Component components stem)

namespace FileTree

/-- Paths that begin alike and lead to one place are two spellings of one path. -/
theorem same_of_stem_eq {t : FileTree} {p q : Text} {l : Location} (ht : t.top.isPlain) (hp : t.locate true p = .ok l)
    (hq : t.locate true q = .ok l) (h : stem p = stem q) : Path.Same p q := by
  obtain ⟨ns, hns⟩ := Path.components_eq_stem_append p
  obtain ⟨ms, hms⟩ := Path.components_eq_stem_append q
  have hl := (locate_eq ht hp).symm.trans (locate_eq ht hq)
  rw [hns, hms, ← h, destination_append, destination_append, destination_names, destination_names] at hl
  rw [Path.Same, hns, hms, List.append_cancel_left hl, h]

/-- Two spellings of one path lead to one place, if they lead anywhere. -/
theorem locate_eq_of_same {t : FileTree} {p q : Text} {l m : Location} (ht : t.top.isPlain)
    (hp : t.locate true p = .ok l) (hq : t.locate true q = .ok m) (h : Path.Same p q) : l = m := by
  rw [locate_eq ht hp, locate_eq ht hq, h]

end FileTree

namespace Walk

open FileTree (Node)

variable {t : FileTree} {options : WalkOptions}

/-- The path goes on from `root` by names, and leads to a file of this size. -/
structure LeadsToFile (t : FileTree) (root p : Text) (size : Nat) : Prop where
  continues : ∃ ns : List Text, components p = components root ++ ns.map Component.name
  arrives : ∃ l bytes, t.locate true p = .ok l ∧ t.at? l = some (.file bytes) ∧ bytes.length = size

theorem LeadsToFile.of_entry {root p name : Text} {size : Nat} (hname : Path.isEntryName name)
    (h : LeadsToFile t (Path.join root name) p size) : LeadsToFile t root p size where
  continues := by
    obtain ⟨ns, hns⟩ := h.continues
    exact ⟨name :: ns, by rw [hns, Path.components_join hname]; simp⟩
  arrives := h.arrives

/-- Files that are visited in a directory are below it. -/
theorem leadsToFile_of_visit (ht : t.top.isPlain) {fuel : Nat} {path : Text} {l : Location} {ancestors : List Ancestor}
    {levels : List Level} {children : List (Text × Node)} (hpath : t.locate true path = .ok l)
    (hl : t.at? l = some (.directory children)) {p name : Text} {size : Nat}
    (hv : .file p name size ∈ visit t options fuel path l ancestors levels children) :
    LeadsToFile t path p size := by
  induction fuel generalizing path l ancestors levels children with
  | zero => cases hv
  | succ fuel ih =>
    obtain ⟨⟨entry, node⟩, hentry, hv⟩ := mem_visit_succ.1 hv
    obtain ⟨hname, hat⟩ := FileTree.at?_entry ht hl hentry
    have hchild := FileTree.locate_join ht hpath hl hentry
    refine .of_entry hname ?_
    cases node with
    | file bytes =>
      rcases hv with ⟨target, bytes', hlook, -, rfl, -, rfl⟩ | ⟨target, inner, hlook, -⟩
      · cases hlook
        exact ⟨⟨[], by simp⟩, _, bytes, hchild, hat, rfl⟩
      · cases hlook
    | link target => cases FileTree.Node.isPlain_at? ht hat
    | directory inner =>
      rcases hv with ⟨target, bytes, hlook, -⟩ | ⟨target, inner', hlook, -, -, hv⟩
      · cases hlook
      · cases hlook
        exact ih hchild hat hv

theorem leadsToFile_of_run (ht : t.top.isPlain) {root p name : Text} {size : Nat}
    (hv : .file p name size ∈ run t options root) : LeadsToFile t root p size := by
  obtain ⟨-, l, hroot, ⟨bytes, hl, rfl, -, rfl⟩ | ⟨children, hl, hv⟩⟩ := mem_run.1 hv
  · exact ⟨⟨[], by simp⟩, l, bytes, hroot, hl, rfl⟩
  · exact leadsToFile_of_visit ht hroot hl hv

end Walk

namespace SearchPlan

/-! ### Each path once -/

theorem dropRepeated_sublist (fs : List FoundFile) : (dropRepeated fs).Sublist fs := by
  induction fs with
  | nil => simp [dropRepeated]
  | cons f fs ih => exact ((List.dropWhile_sublist _).trans ih).cons_cons f

/-- Of every path one spelling is kept. -/
theorem exists_same_of_mem {f : FoundFile} {fs : List FoundFile} (hf : f ∈ fs) :
    ∃ g ∈ dropRepeated fs, Path.Same g.path f.path := by
  induction fs with
  | nil => cases hf
  | cons h fs ih =>
    rcases List.mem_cons.1 hf with rfl | hf
    · exact ⟨f, by simp [dropRepeated], rfl⟩
    · obtain ⟨g, hg, hsame⟩ := ih hf
      have hsplit := List.takeWhile_append_dropWhile (p := fun g : FoundFile => decide (Path.Same h.path g.path))
        (l := dropRepeated fs)
      rw [← hsplit, List.mem_append] at hg
      rcases hg with hg | hg
      · have hhg : Path.Same h.path g.path := by simpa using List.mem_takeWhile_imp hg
        exact ⟨h, by simp [dropRepeated], hhg.trans hsame⟩
      · exact ⟨g, List.mem_cons_of_mem h hg, hsame⟩

/-- The order in which files are listed. -/
def Ordered (f g : FoundFile) : Prop := (Path.compare f.path g.path).isLE

theorem not_same_of_mem_dropWhile {f g : FoundFile} {fs : List FoundFile} (hf : ∀ h ∈ fs, Ordered f h)
    (hfs : fs.Pairwise Ordered) (hg : g ∈ fs.dropWhile fun h => decide (Path.Same f.path h.path)) :
    ¬ Path.Same f.path g.path := by
  induction fs with
  | nil => cases hg
  | cons h fs ih =>
    obtain ⟨hle, hfs⟩ := List.pairwise_cons.1 hfs
    rw [List.dropWhile_cons] at hg
    split at hg
    · exact ih (fun k hk => hf k (List.mem_cons_of_mem h hk)) hfs hg
    · rename_i hfh
      intro hfg
      rcases List.mem_cons.1 hg with rfl | hg
      · simp [hfg] at hfh
      · -- `f ≤ h ≤ g`, and `g` is spelled as `f`
        have hgf : (Path.compare h.path f.path).isLE := by
          rw [Std.TransCmp.congr_right (Path.compare_eq_iff.2 hfg)]
          exact hle g hg
        have heq := Std.OrientedCmp.isLE_antisymm (hf h (List.mem_cons_self ..)) hgf
        simp [Path.compare_eq_iff.1 heq] at hfh

theorem dropRepeated_pairwise {fs : List FoundFile} (hfs : fs.Pairwise Ordered) :
    (dropRepeated fs).Pairwise fun f g => ¬ Path.Same f.path g.path := by
  induction fs with
  | nil => exact .nil
  | cons f fs ih =>
    obtain ⟨hle, hfs⟩ := List.pairwise_cons.1 hfs
    have hsub := dropRepeated_sublist fs
    refine List.pairwise_cons.2 ⟨fun g hg => ?_, (ih hfs).sublist (List.dropWhile_sublist _)⟩
    exact not_same_of_mem_dropWhile (fun h hh => hle h (hsub.subset hh)) (hfs.sublist hsub) hg

variable {t : FileTree} {plan : SearchPlan}

theorem ordered_trans (f g h : FoundFile) :
    (Path.compare f.path g.path).isLE → (Path.compare g.path h.path).isLE → (Path.compare f.path h.path).isLE :=
  Std.TransCmp.isLE_trans

theorem ordered_total (f g : FoundFile) : (Path.compare f.path g.path).isLE || (Path.compare g.path f.path).isLE := by
  rw [Bool.or_eq_true, or_iff_not_imp_left]
  intro h
  rw [Std.OrientedCmp.lt_of_not_isLE h]
  rfl

theorem mergeSort_pairwise (fs : List FoundFile) :
    (fs.mergeSort fun f g => (Path.compare f.path g.path).isLE).Pairwise Ordered :=
  List.pairwise_mergeSort ordered_trans ordered_total fs

theorem files_pairwise (t : FileTree) (plan : SearchPlan) :
    (plan.files t).Pairwise fun f g => ¬ Path.Same f.path g.path :=
  dropRepeated_pairwise (mergeSort_pairwise _)

theorem mem_allFound_of_mem_files {f : FoundFile} (hf : f ∈ plan.files t) : f ∈ plan.allFound t :=
  List.mem_mergeSort.1 ((dropRepeated_sublist _).subset hf)

/-- What a plan finds below a root. -/
def below (t : FileTree) (plan : SearchPlan) (root : Text) : List FoundFile :=
  ((visits? t plan root).getD []).filterMap plan.found?

theorem mem_allFound {f : FoundFile} : f ∈ plan.allFound t ↔ ∃ r ∈ plan.roots, f ∈ below t plan r :=
  List.mem_flatMap

theorem mem_below {f : FoundFile} {root : Text} :
    f ∈ below t plan root ↔ t.contains root = true ∧ .file f.path f.name f.size ∈ Walk.run t plan.options root ∧
      plan.names f.name = true ∧ f.extension = extensionKey f.name := by
  unfold below visits?
  by_cases hcontains : t.contains root = true
  · simp only [hcontains, if_true, Option.getD_some, List.mem_filterMap, true_and]
    constructor
    · rintro ⟨v, hv, hfound⟩
      cases v with
      | file path name size =>
        simp only [found?] at hfound
        split at hfound
        · cases hfound
          exact ⟨hv, ‹_›, rfl⟩
        · cases hfound
      | _ => cases hfound
    · rintro ⟨hv, hnames, hextension⟩
      refine ⟨_, hv, ?_⟩
      rw [found?, if_pos hnames, ← hextension]
  · simp [hcontains]

theorem leadsToFile_of_below (ht : t.top.isPlain) {f : FoundFile} {root : Text} (hf : f ∈ below t plan root) :
    Walk.LeadsToFile t root f.path f.size :=
  Walk.leadsToFile_of_run ht (mem_below.1 hf).2.1

/-- The place of a file that is found is the place of a file that is listed, under one path. -/
theorem exists_listed (ht : t.top.isPlain) {f : FoundFile} {r : Text} (hr : r ∈ plan.roots) (hf : f ∈ below t plan r) :
    ∃ g ∈ plan.files t, Path.Same g.path f.path ∧ t.locate true g.path = t.locate true f.path := by
  obtain ⟨g, hg, hsame⟩ := exists_same_of_mem (List.mem_mergeSort.2 (mem_allFound.2 ⟨r, hr, hf⟩))
  obtain ⟨s, -, hs⟩ := mem_allFound.1 (mem_allFound_of_mem_files hg)
  obtain ⟨l, -, hl, -⟩ := (leadsToFile_of_below ht hs).arrives
  obtain ⟨m, -, hm, -⟩ := (leadsToFile_of_below ht hf).arrives
  exact ⟨g, hg, hsame, by rw [hl, hm, FileTree.locate_eq_of_same ht hl hm hsame]⟩

/-- What is found below a root begins like the root. -/
theorem stem_of_below (ht : t.top.isPlain) {f : FoundFile} {r : Text} (hf : f ∈ below t plan r) :
    stem f.path = stem r := by
  obtain ⟨ns, hns⟩ := (leadsToFile_of_below ht hf).continues
  exact Path.stem_eq_of_append hns

/-- If no file is listed twice, what is found at one place begins alike. -/
theorem stem_eq_of_nodup (ht : t.top.isPlain) (h : ((plan.files t).map fun f => t.locate true f.path).Nodup)
    {r s : Text} (hr : r ∈ plan.roots) (hs : s ∈ plan.roots) {f g : FoundFile} (hf : f ∈ below t plan r)
    (hg : g ∈ below t plan s) (heq : t.locate true f.path = t.locate true g.path) : stem r = stem s := by
  obtain ⟨f₁, hf₁, hfsame, hfl⟩ := exists_listed ht hr hf
  obtain ⟨g₁, hg₁, hgsame, hgl⟩ := exists_listed ht hs hg
  have hfg : f₁ = g₁ := by
    apply List.inj_on_of_nodup_map h hf₁ hg₁
    rw [hfl, hgl, heq]
  have hsame : Path.Same f.path g.path := hfsame.symm.trans (hfg ▸ hgsame)
  calc stem r = stem f.path := (stem_of_below ht hf).symm
    _ = stem g.path := by rw [stem, stem, hsame]
    _ = stem s := stem_of_below ht hg

/-- If what is found at one place begins alike, no file is listed twice. -/
theorem nodup_of_stem_eq (ht : t.top.isPlain)
    (h : ∀ r ∈ plan.roots, ∀ s ∈ plan.roots, ∀ f ∈ below t plan r, ∀ g ∈ below t plan s,
      t.locate true f.path = t.locate true g.path → stem r = stem s) :
    ((plan.files t).map fun f => t.locate true f.path).Nodup := by
  rw [List.Nodup, List.pairwise_map]
  apply (files_pairwise t plan).imp_of_mem
  intro f g hf hg hne heq
  obtain ⟨r, hr, hfr⟩ := mem_allFound.1 (mem_allFound_of_mem_files hf)
  obtain ⟨s, hs, hgs⟩ := mem_allFound.1 (mem_allFound_of_mem_files hg)
  obtain ⟨l, -, hl, -⟩ := (leadsToFile_of_below ht hfr).arrives
  have hstem : stem f.path = stem g.path := by
    rw [stem_of_below ht hfr, stem_of_below ht hgs, h r hr s hs f hfr g hgs heq]
  exact hne (FileTree.same_of_stem_eq ht hl (heq ▸ hl) hstem)

/-- **Each file once**: a search in a tree without links lists files only, and all that it finds below its
roots. It lists none of them twice exactly if it finds none below two roots that begin differently; so it
never does if all its roots begin alike. -/
theorem files_nodup_iff (t : FileTree) (plan : SearchPlan) (ht : t.top.isPlain) :
    (∀ f ∈ plan.files t, ∃ l bytes,
      t.locate true f.path = .ok l ∧ t.at? l = some (.file bytes) ∧ bytes.length = f.size) ∧
    (∀ r ∈ plan.roots, ∀ f ∈ below t plan r, ∃ g ∈ plan.files t,
      Path.Same g.path f.path ∧ t.locate true g.path = t.locate true f.path) ∧
    (((plan.files t).map fun f => t.locate true f.path).Nodup ↔
      ∀ r ∈ plan.roots, ∀ s ∈ plan.roots, ∀ f ∈ below t plan r, ∀ g ∈ below t plan s,
        t.locate true f.path = t.locate true g.path → stem r = stem s) := by
  refine ⟨?_, ?_, ?_, nodup_of_stem_eq ht⟩
  · intro f hf
    obtain ⟨r, -, hfr⟩ := mem_allFound.1 (mem_allFound_of_mem_files hf)
    exact (leadsToFile_of_below ht hfr).arrives
  · intro r hr f hf
    exact exists_listed ht hr hf
  · intro h r hr s hs f hf g hg heq
    exact stem_eq_of_nodup ht h hr hs hf hg heq

/-- A file, and another one further down. -/
def nested : FileTree :=
  ⟨.directory [("src".toList, .directory
    [("sub".toList, .directory [("x.c".toList, .file [0x78])]), ("y.c".toList, .file [0x79, 0x0a])])], []⟩

/-- All files that end with `.c` below these roots. -/
def everyC (roots : List Text) : SearchPlan := ⟨roots, ["c".toList], ⟨true, false, false, false⟩⟩

/-- The roots lie in one another, one is spelled with a dot, and all of them begin with a name. -/
theorem files_nodup_nested : nested.top.isPlain ∧
    ((everyC ["src/sub//".toList, "src".toList, "src/./sub/x.c".toList]).files nested).map FoundFile.path =
      ["src/sub//x.c".toList, "src/y.c".toList] ∧
    (((everyC ["src/sub//".toList, "src".toList, "src/./sub/x.c".toList]).files nested).map fun f =>
      nested.locate true f.path).Nodup := by
  have plain : nested.top.isPlain := by decide
  have alike : ∀ r ∈ ["src/sub//".toList, "src".toList, "src/./sub/x.c".toList], stem r = [] := by decide
  refine ⟨plain, by cbv, (files_nodup_iff nested (everyC _) plain).2.2.2 ?_⟩
  intro r hr s hs _ _ _ _ _
  rw [alike r hr, alike s hs]

/-- Below `.` and below `src` a search finds the same files, and lists them under the path of each. -/
theorem nested_listed_twice : nested.top.isPlain ∧
    ((everyC [".".toList, "src".toList]).files nested).map FoundFile.path =
      ["./src/sub/x.c".toList, "./src/y.c".toList, "src/sub/x.c".toList, "src/y.c".toList] ∧
    ¬ (((everyC [".".toList, "src".toList]).files nested).map fun f => nested.locate true f.path).Nodup := by
  have places : (((everyC [".".toList, "src".toList]).files nested).map fun f => nested.locate true f.path) =
      [.ok ["src".toList, "sub".toList, "x.c".toList], .ok ["src".toList, "y.c".toList],
        .ok ["src".toList, "sub".toList, "x.c".toList], .ok ["src".toList, "y.c".toList]] := by cbv
  refine ⟨by decide, by cbv, ?_⟩
  rw [places]
  simp

end SearchPlan

end LineCensus
