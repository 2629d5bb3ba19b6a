import Mathlib.Algebra.Order.Ring.Nat
import LineCensus.Census
import LineCensus.Proofs.LineReading

/-!
# What a census adds up

A file is skipped for the first of two reasons, that the watcher refuses it or that it cannot be read
to its end (`Census.fault?`). `tallyFiles_eq` gives the outcome of every file, by its reason or by the
verdicts on its own lines, and `settle_ok` says what a run that is not refused adds up and reports.
-/

namespace LineCensus.Census

variable {m : Markers} {source : Text → Contents} {watcher : Option Watcher}

/-- Why the file at place `i` is skipped. -/
def fault? (source : Text → Contents) (watcher : Option Watcher) (i : Nat) (path : Text) : Option Failure :=
  (watcher.bind fun w => w.onFile i path).or (source path).failure

/-- The tally of a file with these verdicts on its lines. -/
def fileTally (vs : List Verdict) : Tally := (Tally.zero.recordAll vs).recordFile

/-- The outcome of the file at a place with these verdicts on its lines. -/
def outcome (source : Text → Contents) (watcher : Option Watcher) (vs : List Verdict) (i : Nat) (path : Text) :
    Except Failure Tally :=
  match fault? source watcher i path with
  | some f => .error f
  | none => .ok (fileTally vs)

theorem tallyFile_eq {vs : List Verdict} {path : Text} (hvs : m.classify (source path).lines = .ok vs) (i : Nat) :
    tallyFile m source watcher i path = .ok (outcome source watcher vs i path) := by
  unfold tallyFile outcome fault?
  cases watcher.bind fun w => w.onFile i path with
  | some f => rfl
  | none =>
    rw [Option.none_or]
    simp only [tallyLines, hvs]
    cases (source path).failure <;> rfl

theorem tallyFiles_eq {verdicts : Text → List Verdict}
    (hv : ∀ path, m.classify (source path).lines = .ok (verdicts path)) (i : Nat) (paths : List Text) :
    tallyFiles m source watcher i paths =
      .ok ((paths.zipIdx i).map fun e => (e.1, outcome source watcher (verdicts e.1) e.2 e.1)) := by
  induction paths generalizing i with
  | nil => rfl
  | cons path rest ih =>
    simp only [tallyFiles, tallyFile_eq (hv path), ih]
    rfl

/-- The entry for a file in the list of skipped files. -/
def skipped? : Text × Except Failure Tally → Option Skipped
  | (path, .error f) => some ⟨path, f.message⟩
  | (_, .ok _) => none

/-- The tally of a file that is counted. -/
def counted? : Text × Except Failure Tally → Option Tally
  | (_, .error _) => none
  | (_, .ok tally) => some tally

/-- A run that is not refused adds up the tallies of the files that are counted, and lists the others
in order. -/
theorem settle_ok {n i : Nat} {total : Tally} {skipped : List Skipped}
    {outcomes : List (Text × Except Failure Tally)} {census : Census}
    (h : (settle watcher n i total skipped outcomes).1 = .ok census) :
    census = ⟨(outcomes.filterMap counted?).foldl Tally.merge total, n, skipped ++ outcomes.filterMap skipped?⟩ := by
  induction outcomes generalizing i total skipped with
  | nil =>
    have hc : census = ⟨total, n, skipped⟩ := by
      unfold settle at h
      split at h
      · cases h
        rfl
      · split at h
        · cases h
        · cases h
          rfl
    rw [hc]
    simp
  | cons e rest ih =>
    obtain ⟨path, result⟩ := e
    cases result with
    | ok tally => exact ih h
    | error f =>
      have hrest : (settle watcher n (i + 1) total (skipped ++ [⟨path, f.message⟩]) rest).1 = .ok census := by
        simp only [settle] at h
        split at h
        · exact h
        · split at h
          · cases h
          · exact h
      rw [ih hrest]
      simp [List.filterMap_cons, skipped?, counted?]

/-! ### The totals -/

theorem skipped?_outcome (vs : List Verdict) (i : Nat) (path : Text) :
    skipped? (path, outcome source watcher vs i path) =
      (fault? source watcher i path).map fun f => ⟨path, f.message⟩ := by
  unfold outcome
  cases fault? source watcher i path <;> rfl

theorem counted?_outcome (vs : List Verdict) (i : Nat) (path : Text) :
    counted? (path, outcome source watcher vs i path) =
      if (fault? source watcher i path).isNone then some (fileTally vs) else none := by
  unfold outcome
  cases fault? source watcher i path <;> rfl

/-- A number that merging adds up is added up over a list of tallies. -/
theorem foldl_merge_of_add {f : Tally → Nat} (hf : ∀ s t : Tally, f (s.merge t) = f s + f t) (total : Tally)
    (ts : List Tally) : f (ts.foldl Tally.merge total) = f total + (ts.map f).sum := by
  induction ts generalizing total with
  | nil => rfl
  | cons t ts ih => rw [List.foldl_cons, ih, hf, List.map_cons, List.sum_cons, Nat.add_assoc]

/-- The files that are counted, with their places. -/
def countedFiles (source : Text → Contents) (watcher : Option Watcher) (paths : List Text) : List (Text × Nat) :=
  paths.zipIdx.filter fun e => (fault? source watcher e.2 e.1).isNone

/-- The entries for the files that are skipped. -/
def skippedFiles (source : Text → Contents) (watcher : Option Watcher) (paths : List Text) : List Skipped :=
  paths.zipIdx.filterMap fun e => (fault? source watcher e.2 e.1).map fun f => ⟨e.1, f.message⟩

theorem filterMap_ite_some {α β : Type} (p : α → Bool) (f : α → β) (l : List α) :
    (l.filterMap fun a => if p a then some (f a) else none) = (l.filter p).map f := by
  rw [← List.filterMap_eq_filter, ← List.filterMap_eq_map, List.filterMap_filterMap]
  congr 1
  funext a
  cases h : p a <;> simp [Option.guard, h]

/-- Every file is either counted or skipped. -/
theorem length_countedFiles_add (source : Text → Contents) (watcher : Option Watcher) (paths : List Text) :
    (countedFiles source watcher paths).length + (skippedFiles source watcher paths).length = paths.length := by
  have hlen : paths.length = paths.zipIdx.length := List.length_zipIdx.symm
  rw [hlen, countedFiles, skippedFiles]
  induction paths.zipIdx with
  | nil => rfl
  | cons e rest ih =>
    rw [List.filter_cons, List.filterMap_cons, List.length_cons]
    cases fault? source watcher e.2 e.1 with
    | none =>
      simp only [Option.isNone_none, if_true, Option.map_none, List.length_cons]
      omega
    | some f =>
      simp only [Option.isNone_some, Bool.false_eq_true, if_false, Option.map_some, List.length_cons]
      omega

theorem length_file (hm : m.Progressing) (carry : Carry) (lines : List Text) :
    (Reading.file m hm carry lines).length = lines.length := by
  induction lines generalizing carry with
  | nil => rfl
  | cons raw rest ih => rw [Reading.file, List.length_cons, ih, List.length_cons]

/-- A run ends, and one that is not refused gives this census. -/
theorem runWatched_ok {verdicts : Text → List Verdict}
    (hv : ∀ path, m.classify (source path).lines = .ok (verdicts path)) (watcher : Option Watcher)
    (listed : Except Failure (List Text)) :
    ∃ result calls, runWatched m source watcher listed = .ok (result, calls) ∧
      ∀ census, result = .ok census → ∃ paths, listed = .ok paths ∧
        census = ⟨((countedFiles source watcher paths).map fun e => fileTally (verdicts e.1)).foldl
          Tally.merge .zero, paths.length, skippedFiles source watcher paths⟩ := by
  cases listed with
  | error f => exact ⟨_, _, rfl, nofun⟩
  | ok paths =>
    simp only [runWatched, tallyFiles_eq hv]
    refine ⟨_, _, rfl, fun census hc => ⟨paths, rfl, ?_⟩⟩
    rw [settle_ok hc, List.filterMap_map, List.filterMap_map, List.nil_append]
    simp only [Function.comp_def, skipped?_outcome, counted?_outcome]
    rw [filterMap_ite_some]
    rfl

theorem count_fileTally (vs : List Verdict) (b : Bucket) :
    (fileTally vs).count b = vs.countP fun v => v.bucket = b := by
  rw [fileTally, Tally.count_recordFile, Tally.count_recordAll, Tally.count_zero, Nat.zero_add]

theorem total_fileTally (vs : List Verdict) : (fileTally vs).total = vs.length := by
  rw [fileTally, Tally.total_recordFile, Tally.total_recordAll]
  exact Nat.zero_add _

theorem files_fileTally (vs : List Verdict) : (fileTally vs).files = 1 := by
  rw [fileTally, Tally.files_recordFile, Tally.files_recordAll]
  rfl

/-- **Totals**: a run always ends, and if it is not refused it counts every listed file that is neither
refused by the watcher nor unreadable, by the verdicts on its own lines from the beginning of a file,
and lists the others in order with the reason. -/
theorem runWatched_totals (line : List Text) (block : List BlockPair) (continuation : List Text)
    (source : Text → Contents) (watcher : Option Watcher) (listed : Except Failure (List Text)) :
    let m := Markers.ofLists line block continuation
    ∃ verdicts : Text → List Verdict, (∀ path, m.classify (source path).lines = .ok (verdicts path)) ∧
      ∃ result calls, runWatched m source watcher listed = .ok (result, calls) ∧
        ∀ census, result = .ok census → ∃ paths, listed = .ok paths ∧
          census.discovered = paths.length ∧
          census.skipped = skippedFiles source watcher paths ∧
          census.tally.files + census.skipped.length = census.discovered ∧
          (∀ b, census.tally.count b = ((countedFiles source watcher paths).map fun e =>
            (verdicts e.1).countP fun v => v.bucket = b).sum) ∧
          census.tally.total = ((countedFiles source watcher paths).map fun e => (source e.1).lines.length).sum := by
  intro m
  have hm : m.Progressing := (Markers.solid_ofLists line block continuation).progressing
  have hv : ∀ path, m.classify (source path).lines = .ok (Reading.file m hm (.idle .code) (source path).lines) :=
    fun path => Markers.classify_eq_file hm _
  obtain ⟨result, calls, hrun, hok⟩ := runWatched_ok hv watcher listed
  refine ⟨_, hv, result, calls, hrun, fun census hc => ?_⟩
  obtain ⟨paths, hpaths, rfl⟩ := hok census hc
  refine ⟨paths, hpaths, rfl, rfl, ?_, fun b => ?_, ?_⟩
  · rw [foldl_merge_of_add Tally.files_merge, List.map_map, ← length_countedFiles_add source watcher paths]
    simp [Function.comp_def, files_fileTally, Tally.zero]
  · rw [foldl_merge_of_add (f := fun t => t.count b) fun s t => Tally.count_merge s t b, List.map_map,
      Tally.count_zero, Nat.zero_add]
    simp only [Function.comp_def, count_fileTally]
  · rw [foldl_merge_of_add Tally.total_merge, List.map_map]
    simp only [Function.comp_def, total_fileTally, length_file]
    exact Nat.zero_add _

/-- A file that is read twice and refused the second time, and one that cannot be read to its end. -/
theorem runWatched_totals_refused_twice :
    let m := Markers.ofLists [] [⟨"/*".toList, "*/".toList⟩] []
    let source : Text → Contents := fun path =>
      if path = ['a'] then ⟨["/*".toList, "".toList, "*/x".toList], none⟩
      else ⟨["y".toList], some (.threadPool "stopped")⟩
    let watcher : Watcher :=
      ⟨fun i _ => if i = 2 then some (.threadPool "refused") else none, fun _ _ _ => none, fun _ => none⟩
    ∃ census calls, runWatched m source (some watcher) (.ok [['a'], ['b'], ['a']]) = .ok (.ok census, calls) ∧
      census.tally = ⟨1, 1, 1, 1⟩ ∧ census.skipped.map Skipped.path = [['b'], ['a']] ∧
      census.tally.files + census.skipped.length = 3 := by
  intro m source watcher
  obtain ⟨census, calls, hrun, htally⟩ : ∃ census calls,
      runWatched m source (some watcher) (.ok [['a'], ['b'], ['a']]) = .ok (.ok census, calls) ∧
        census.tally = ⟨1, 1, 1, 1⟩ := ⟨_, _, rfl, rfl⟩
  obtain ⟨verdicts, -, result, calls', hrun', hok⟩ := runWatched_totals [] [⟨"/*".toList, "*/".toList⟩] []
    source (some watcher) (.ok [['a'], ['b'], ['a']])
  have hresult : result = .ok census := by
    rw [hrun] at hrun'
    exact (congrArg Prod.fst (Except.ok.inj hrun')).symm
  obtain ⟨paths, hpaths, hdiscovered, hskipped, hsum, -⟩ := hok census hresult
  cases Except.ok.inj hpaths
  refine ⟨census, calls, hrun, htally, ?_, hsum.trans hdiscovered⟩
  rw [hskipped]
  rfl

end LineCensus.Census
