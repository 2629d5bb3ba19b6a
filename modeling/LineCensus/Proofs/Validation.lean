import Mathlib.Data.List.Count
import Mathlib.Data.List.Lattice
import LineCensus.Draft

/-!
# What a draft is accepted for, and what it is refused for

`Draft.validate` accepts the drafts that are `Draft.Acceptable`, and takes over all that they ask for.
The problems of any other draft are counted a second time by `Draft.occurrences`, each by itself, and
`validate` names each as often as it occurs (`count_problems`); only an empty text in two lists is named
as an empty marker of both roles and not as a shared one.
-/

namespace LineCensus

namespace Markers

/-- An empty text is a marker of both roles. -/
def Problem.isSharedEmpty : Problem → Bool
  | shared [] _ _ => true
  | _ => false

namespace Raw

/-- How often a problem occurs in marker lists: a shared marker once for every time it stands in the first
of the two lists, any other problem once. -/
def occurrences (r : Raw) : Problem → Nat
  | .unpaired n k => if n = r.openings.length ∧ k = r.closings.length ∧ n ≠ k then 1 else 0
  | .empty role => if (r.list role).contains [] then 1 else 0
  | .shared t a b => if exclusive.contains (a, b) && (r.list b).contains t then (r.list a).count t else 0

variable (r : Raw)

theorem occurrences_empty (role : Role) :
    r.occurrences (.empty role) = if [] ∈ r.list role then 1 else 0 := by
  simp only [occurrences, List.contains_iff_mem]

theorem occurrences_shared (t : Text) (a b : Role) :
    r.occurrences (.shared t a b) = if (a, b) ∈ exclusive ∧ t ∈ r.list b then (r.list a).count t else 0 := by
  simp only [occurrences, Bool.and_eq_true, List.contains_iff_mem]

/-- Unequal lengths are named once. -/
theorem count_unpaired (p : Problem) :
    (if r.openings.length = r.closings.length then []
      else [Problem.unpaired r.openings.length r.closings.length]).count p =
      match p with
      | .unpaired n k => r.occurrences (.unpaired n k)
      | _ => 0 := by
  split <;> cases p <;> simp only [occurrences, List.count_nil, List.count_singleton, beq_iff_eq, reduceCtorEq,
    Problem.unpaired.injEq, if_false]
  · rw [if_neg]
    rintro ⟨rfl, rfl, hne⟩
    exact hne ‹_›
  · rename_i hne n k
    congr 1
    apply propext
    constructor
    · rintro ⟨rfl, rfl⟩
      exact ⟨rfl, rfl, hne⟩
    · rintro ⟨rfl, rfl, -⟩
      exact ⟨rfl, rfl⟩

/-- Every role with an empty marker is named once. -/
theorem count_empty (p : Problem) :
    (([Role.line, .opening, .closing, .continuation].filter fun k => [] ∈ r.list k).map Problem.empty).count p =
      match p with
      | .empty role => r.occurrences (.empty role)
      | _ => 0 := by
  have hinj : Function.Injective Problem.empty := fun _ _ h => Problem.empty.inj h
  cases p with
  | unpaired n k => exact List.count_eq_zero.2 (by simp)
  | shared t a b => exact List.count_eq_zero.2 (by simp)
  | empty role =>
    have hroles : [Role.line, .opening, .closing, .continuation].count role = 1 := by
      cases role <;> rfl
    rw [List.count_map_of_injective _ _ hinj]
    simp only [occurrences_empty]
    split
    · rename_i hempty
      rw [List.count_filter (by simpa using hempty), hroles]
    · rename_i hempty
      exact List.count_eq_zero.2 (by simp [hempty])

/-- The texts that are markers of both roles, as often as they stand in the list of the first. -/
theorem count_shared (a b : Role) (p : Problem) :
    (((r.list a).filter fun t => t ≠ [] ∧ t ∈ r.list b).map fun t => Problem.shared t a b).count p =
      match p with
      | .shared t a' b' => if a' = a ∧ b' = b ∧ t ≠ [] ∧ t ∈ r.list b then (r.list a).count t else 0
      | _ => 0 := by
  cases p with
  | unpaired n k => exact List.count_eq_zero.2 (by simp)
  | empty role => exact List.count_eq_zero.2 (by simp)
  | shared t a' b' =>
    by_cases hroles : a' = a ∧ b' = b
    · obtain ⟨rfl, rfl⟩ := hroles
      have hinj : Function.Injective fun t => Problem.shared t a' b' := fun _ _ h => (Problem.shared.inj h).1
      have hmap := List.count_map_of_injective
        ((r.list a').filter fun t => t ≠ [] ∧ t ∈ r.list b') (fun t => Problem.shared t a' b') hinj t
      simp only [true_and]
      rw [hmap]
      split
      · rename_i hshared
        rw [List.count_filter (by simpa using hshared)]
      · rename_i hshared
        exact List.count_eq_zero.2 (by simpa using fun _ => hshared)
    · dsimp only
      rw [if_neg fun h => hroles ⟨h.1, h.2.1⟩]
      refine List.count_eq_zero.2 ?_
      simp only [List.mem_map, Problem.shared.injEq, not_exists, not_and]
      rintro _ - - rfl rfl
      exact hroles ⟨rfl, rfl⟩

/-- Every problem of marker lists is named as often as it occurs, but for empty texts in two lists. -/
theorem count_problems (p : Problem) :
    r.problems.count p = if p.isSharedEmpty then 0 else r.occurrences p := by
  rw [problems, List.count_append, List.count_append, count_unpaired, count_empty, List.count_flatMap]
  simp only [exclusive, List.map_cons, List.map_nil, Function.comp_apply, count_shared, List.sum_cons, List.sum_nil]
  cases p with
  | unpaired n k => simp [Problem.isSharedEmpty]
  | empty role => simp [Problem.isSharedEmpty]
  | shared t a b =>
    cases t with
    | nil => simp [Problem.isSharedEmpty]
    | cons c t => cases a <;> cases b <;> simp [Problem.isSharedEmpty, occurrences_shared, exclusive]

/-- Lists without empty markers are taken over as they are, the i-th opening with the i-th closing text. -/
theorem toMarkers_eq {r : Raw} (hline : [] ∉ r.line) (hopening : [] ∉ r.openings) (hclosing : [] ∉ r.closings)
    (hcontinuation : [] ∉ r.continuation) :
    r.toMarkers = ⟨r.line, r.openings.zipWith BlockPair.mk r.closings, r.continuation⟩ := by
  have htexts : ∀ {ts : List Text}, [] ∉ ts → ts.filter (· ≠ []) = ts := by
    intro ts hts
    refine List.filter_eq_self.2 fun t ht => decide_eq_true ?_
    rintro rfl
    exact hts ht
  have hpairs : ∀ p ∈ r.openings.zipWith BlockPair.mk r.closings, p.opening ≠ [] ∧ p.closing ≠ [] := by
    intro p hp
    rw [← List.map_uncurry_zip_eq_zipWith] at hp
    obtain ⟨⟨s, e⟩, hse, rfl⟩ := List.mem_map.1 hp
    obtain ⟨hs, he⟩ := List.of_mem_zip hse
    constructor
    · rintro rfl
      exact hopening hs
    · rintro rfl
      exact hclosing he
  have hblock : (r.openings.zipWith BlockPair.mk r.closings).filter
      (fun p => p.opening ≠ [] ∧ p.closing ≠ []) = r.openings.zipWith BlockPair.mk r.closings :=
    List.filter_eq_self.2 fun p hp => decide_eq_true (hpairs p hp)
  rw [toMarkers, ofParallel, ofLists, htexts hline, hblock, htexts hcontinuation]

/-- No opening and no closing text is lost when they are paired. -/
theorem map_zipWith_pair {openings closings : List Text} (h : openings.length = closings.length) :
    (openings.zipWith BlockPair.mk closings).map BlockPair.opening = openings ∧
      (openings.zipWith BlockPair.mk closings).map BlockPair.closing = closings := by
  rw [← List.map_uncurry_zip_eq_zipWith, List.map_map, List.map_map]
  exact ⟨List.map_fst_zip (Nat.le_of_eq h), List.map_snd_zip (Nat.le_of_eq h.symm)⟩

end Raw

end Markers

namespace Draft

/-- What `validate` asks of a draft. A text may be an opening and a closing text, and a list may hold a
text twice. -/
structure Acceptable (d : Draft) : Prop where
  paired : d.markers.openings.length = d.markers.closings.length
  line : [] ∉ d.markers.line
  opening : [] ∉ d.markers.openings
  closing : [] ∉ d.markers.closings
  continuation : [] ∉ d.markers.continuation
  line_opening : d.markers.line.Disjoint d.markers.openings
  line_closing : d.markers.line.Disjoint d.markers.closings
  line_continuation : d.markers.line.Disjoint d.markers.continuation
  opening_continuation : d.markers.openings.Disjoint d.markers.continuation
  closing_continuation : d.markers.closings.Disjoint d.markers.continuation
  directory : d.directories ≠ []
  extension : d.extensions ≠ []
  extensions : ∀ e ∈ d.extensions, plainExtension e ≠ []

/-- An empty text is a marker of both roles. -/
def Problem.isSharedEmpty : Problem → Bool
  | marker p => p.isSharedEmpty
  | _ => false

/-- How often a problem occurs in a draft. -/
def occurrences (d : Draft) : Problem → Nat
  | .marker p => d.markers.occurrences p
  | .noDirectory => if d.directories = [] then 1 else 0
  | .noExtension => if d.extensions = [] then 1 else 0
  | .emptyExtension => if ∃ e ∈ d.extensions, plainExtension e = [] then 1 else 0

variable {d : Draft}

theorem plainExtensions_contains_nil :
    d.plainExtensions.contains [] = true ↔ ∃ e ∈ d.extensions, plainExtension e = [] := by
  rw [List.contains_iff_mem, plainExtensions, List.mem_map]

theorem count_map_marker (ps : List Markers.Problem) (p : Problem) :
    (ps.map Problem.marker).count p =
      match p with
      | .marker q => ps.count q
      | _ => 0 := by
  have hinj : Function.Injective Problem.marker := fun _ _ h => Problem.marker.inj h
  cases p with
  | marker q => exact List.count_map_of_injective ps _ hinj q
  | noDirectory => exact List.count_eq_zero.2 (by simp)
  | noExtension => exact List.count_eq_zero.2 (by simp)
  | emptyExtension => exact List.count_eq_zero.2 (by simp)

theorem count_directory (d : Draft) (p : Problem) :
    (if d.directories = [] then [Problem.noDirectory] else []).count p =
      match p with
      | .noDirectory => d.occurrences .noDirectory
      | _ => 0 := by
  cases p <;> simp only [occurrences] <;> split <;> rfl

/-- A draft without extensions has no empty one. -/
theorem count_extension (d : Draft) (p : Problem) :
    (if d.extensions = [] then [Problem.noExtension]
      else if d.plainExtensions.contains [] then [.emptyExtension] else []).count p =
      match p with
      | .noExtension => d.occurrences .noExtension
      | .emptyExtension => d.occurrences .emptyExtension
      | _ => 0 := by
  have hempty : d.extensions = [] → ¬ d.plainExtensions.contains [] = true := by
    intro he
    rw [plainExtensions, he]
    exact Bool.false_ne_true
  simp only [occurrences, ← plainExtensions_contains_nil]
  by_cases he : d.extensions = []
  · rw [if_pos he, if_pos he, if_neg (hempty he)]
    cases p <;> rfl
  · rw [if_neg he, if_neg he]
    split <;> cases p <;> rfl

/-- Every problem of a draft is named as often as it occurs, but for empty texts in two lists. -/
theorem count_problems (d : Draft) (p : Problem) :
    d.problems.count p = if p.isSharedEmpty then 0 else d.occurrences p := by
  rw [problems, List.count_append, List.count_append, count_map_marker, count_directory, count_extension]
  cases p with
  | marker q => exact d.markers.count_problems q
  | noDirectory => exact Nat.zero_add _
  | noExtension => exact Nat.zero_add _
  | emptyExtension => exact Nat.zero_add _

/-- A problem that is named occurs, and one that occurs is named unless it is an empty text in two lists. -/
theorem mem_problems_iff {p : Problem} : p ∈ d.problems ↔ p.isSharedEmpty = false ∧ 0 < d.occurrences p := by
  rw [← List.count_pos_iff, count_problems]
  cases p.isSharedEmpty <;> simp

/-- Nothing occurs in an acceptable draft. -/
theorem Acceptable.occurrences_eq_zero (h : d.Acceptable) (p : Problem) : d.occurrences p = 0 := by
  cases p with
  | noDirectory => exact if_neg h.directory
  | noExtension => exact if_neg h.extension
  | emptyExtension =>
    refine if_neg ?_
    rintro ⟨e, he, hnil⟩
    exact h.extensions e he hnil
  | marker p =>
    cases p with
    | unpaired n k =>
      refine if_neg ?_
      rintro ⟨rfl, rfl, hne⟩
      exact hne h.paired
    | empty role =>
      rw [occurrences, Markers.Raw.occurrences_empty]
      refine if_neg ?_
      cases role with
      | line => exact h.line
      | opening => exact h.opening
      | closing => exact h.closing
      | continuation => exact h.continuation
    | shared t a b =>
      have hapart : (a, b) ∈ Markers.Raw.exclusive → (d.markers.list a).Disjoint (d.markers.list b) := by
        intro hab
        simp only [Markers.Raw.exclusive, List.mem_cons, Prod.mk.injEq, List.not_mem_nil, or_false] at hab
        rcases hab with ⟨rfl, rfl⟩ | ⟨rfl, rfl⟩ | ⟨rfl, rfl⟩ | ⟨rfl, rfl⟩ | ⟨rfl, rfl⟩
        · exact h.line_opening
        · exact h.line_closing
        · exact h.line_continuation
        · exact h.opening_continuation
        · exact h.closing_continuation
      rw [occurrences, Markers.Raw.occurrences_shared]
      split
      · rename_i hab
        exact List.count_eq_zero.2 fun ha => hapart hab.1 ha hab.2
      · rfl

/-- A draft in which nothing occurs is acceptable. Empty texts in two lists need not be asked about: each of
them is an empty marker by itself. -/
theorem acceptable_of_occurrences (h : ∀ p, p.isSharedEmpty = false → d.occurrences p = 0) : d.Acceptable := by
  have hnot : ∀ {c : Prop} [Decidable c], (if c then 1 else 0) = 0 → ¬ c := by
    intro c _ hc hholds
    rw [if_pos hholds] at hc
    cases hc
  have hempty : ∀ role, [] ∉ d.markers.list role := by
    intro role
    have hcount := h (.marker (.empty role)) rfl
    rw [occurrences, Markers.Raw.occurrences_empty] at hcount
    exact hnot hcount
  have hshared : ∀ a b, (a, b) ∈ Markers.Raw.exclusive → (d.markers.list a).Disjoint (d.markers.list b) := by
    intro a b hab t ha hb
    have hmark : Markers.Problem.isSharedEmpty (.shared t a b) = false := by
      cases t with
      | nil => exact absurd ha (hempty a)
      | cons c t => rfl
    have hcount := h (.marker (.shared t a b)) hmark
    rw [occurrences, Markers.Raw.occurrences_shared, if_pos ⟨hab, hb⟩] at hcount
    exact List.count_eq_zero.1 hcount ha
  have hpaired := hnot (h (.marker (.unpaired d.markers.openings.length d.markers.closings.length)) rfl)
  have hextensions := hnot (h .emptyExtension rfl)
  exact
    { paired := Classical.not_not.1 fun hne => hpaired ⟨rfl, rfl, hne⟩
      line := hempty .line
      opening := hempty .opening
      closing := hempty .closing
      continuation := hempty .continuation
      line_opening := hshared .line .opening (by decide)
      line_closing := hshared .line .closing (by decide)
      line_continuation := hshared .line .continuation (by decide)
      opening_continuation := hshared .opening .continuation (by decide)
      closing_continuation := hshared .closing .continuation (by decide)
      directory := hnot (h .noDirectory rfl)
      extension := hnot (h .noExtension rfl)
      extensions := fun e he hnil => hextensions ⟨e, he, hnil⟩ }

theorem problems_eq_nil_iff : d.problems = [] ↔ d.Acceptable := by
  have hnone : d.problems = [] ↔ ∀ p, p.isSharedEmpty = false → d.occurrences p = 0 := by
    rw [List.eq_nil_iff_forall_not_mem]
    refine forall_congr' fun p => ?_
    rw [mem_problems_iff, not_and, Nat.not_lt, Nat.le_zero]
  rw [hnone]
  exact ⟨acceptable_of_occurrences, fun h p _ => h.occurrences_eq_zero p⟩

theorem validate_eq_ok_iff {s : Settings} : d.validate = .ok s ↔ d.Acceptable ∧ s = d.settings := by
  rw [validate, ← problems_eq_nil_iff]
  split
  · rename_i h
    exact ⟨fun hs => ⟨h, (Except.ok.inj hs).symm⟩, fun hs => congrArg Except.ok hs.2.symm⟩
  · rename_i h
    exact ⟨nofun, fun hs => absurd hs.1 h⟩

theorem validate_eq_error_iff {f : Failure} :
    d.validate = .error f ↔ d.problems ≠ [] ∧ f = refusal d.problems := by
  rw [validate]
  split
  · rename_i h
    exact ⟨nofun, fun hf => absurd h hf.1⟩
  · rename_i h
    exact ⟨fun hf => ⟨h, (Except.error.inj hf).symm⟩, fun hf => congrArg Except.error hf.2.symm⟩

/-- The markers of an acceptable draft are all taken over. -/
theorem Acceptable.markers_eq (h : d.Acceptable) :
    d.settings.markers = ⟨d.markers.line, d.markers.openings.zipWith BlockPair.mk d.markers.closings,
      d.markers.continuation⟩ :=
  Markers.Raw.toMarkers_eq h.line h.opening h.closing h.continuation

/-- **Validation is exact**: a draft gives settings exactly if it is acceptable, and then nothing of it is
lost or reordered; any other is refused for one reason, which names every problem as often as it occurs,
but names an empty text in two lists as an empty marker of both and not as a shared one. -/
theorem validate_exact (d : Draft) :
    ((∃ s, d.validate = .ok s) ↔ d.Acceptable) ∧
      (∀ s, d.validate = .ok s →
        s.directories = d.directories ∧ s.isRecursive = d.isRecursive ∧
        s.extensions = d.extensions.map plainExtension ∧ s.markers.line = d.markers.line ∧
        s.markers.continuation = d.markers.continuation ∧
        s.markers.block.map BlockPair.opening = d.markers.openings ∧
        s.markers.block.map BlockPair.closing = d.markers.closings) ∧
      ∀ f, d.validate = .error f → ∃ ps, ps ≠ [] ∧
        f = .invalidConfiguration (String.intercalate "; " (ps.map Problem.message)) ∧
        ∀ p, ps.count p = if p.isSharedEmpty then 0 else d.occurrences p := by
  refine ⟨?_, ?_, ?_⟩
  · constructor
    · rintro ⟨s, hs⟩
      exact (validate_eq_ok_iff.1 hs).1
    · intro h
      exact ⟨_, validate_eq_ok_iff.2 ⟨h, rfl⟩⟩
  · intro s hs
    obtain ⟨h, rfl⟩ := validate_eq_ok_iff.1 hs
    obtain ⟨hopenings, hclosings⟩ := Markers.Raw.map_zipWith_pair h.paired
    rw [h.markers_eq]
    exact ⟨rfl, rfl, rfl, rfl, rfl, hopenings, hclosings⟩
  · intro f hf
    obtain ⟨hne, rfl⟩ := validate_eq_error_iff.1 hf
    exact ⟨d.problems, hne, rfl, count_problems d⟩

/-- Many faults at once, where a comment marker that stands twice is a continuation marker, too; and a draft
without faults, in which one text opens and closes blocks. -/
theorem validate_exact_many_faults :
    (let d : Draft :=
        ⟨[], [" . ".toList], true, ⟨["#".toList, [], "#".toList], ["/*".toList], [], ["#".toList]⟩⟩
      ∃ (f : Failure) (ps : List Problem), d.validate = .error f ∧
        f = .invalidConfiguration (String.intercalate "; " (ps.map Problem.message)) ∧
        ps.count (.marker (.shared "#".toList .line .continuation)) = 2 ∧
        ps.count (.marker (.unpaired 1 0)) = 1 ∧ ps.count .emptyExtension = 1) ∧
    let d : Draft := ⟨["src".toList], [" ..rs".toList], true,
      ⟨["//".toList, "//".toList], ["''".toList, "/*".toList], ["''".toList, "*/".toList], []⟩⟩
    ∃ s, d.validate = .ok s ∧ s.extensions = ["rs".toList] ∧ s.markers.line = ["//".toList, "//".toList] ∧
      s.markers.block.map BlockPair.opening = ["''".toList, "/*".toList] ∧
      s.markers.block.map BlockPair.closing = ["''".toList, "*/".toList] := by
  refine ⟨?_, ?_⟩
  · intro d
    have hf : d.validate = .error (refusal d.problems) := rfl
    obtain ⟨-, -, herror⟩ := validate_exact d
    obtain ⟨ps, -, hreason, hcount⟩ := herror _ hf
    refine ⟨_, ps, hf, hreason, ?_, ?_, ?_⟩
    · rw [hcount]
      decide
    · rw [hcount]
      decide
    · rw [hcount]
      decide
  · intro d
    have hs : d.validate = .ok d.settings := rfl
    obtain ⟨-, hok, -⟩ := validate_exact d
    obtain ⟨-, -, hextensions, hline, -, hopenings, hclosings⟩ := hok _ hs
    exact ⟨_, hs, hextensions, hline, hopenings, hclosings⟩

/-- An empty text that is both a comment marker and an opening is not named as a shared marker. -/
theorem shared_empty_not_named :
    let d : Draft := ⟨["src".toList], ["c".toList], false, ⟨[[]], [[]], ["x".toList], []⟩⟩
    ∃ reason, d.validate = .error (.invalidConfiguration reason) ∧
      ¬ ∀ p, 0 < d.occurrences p → p.message.toList <:+: reason.toList := by
  intro d
  refine ⟨"empty comment marker; empty block comment start marker", rfl, fun h => ?_⟩
  have hinfix := h (.marker (.shared [] .line .opening)) (by decide)
  have hle := hinfix.length_le
  revert hle
  decide

end Draft

end LineCensus
