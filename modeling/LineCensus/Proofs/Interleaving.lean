import Mathlib.Data.List.Sigma
import LineCensus.Census.Jobs
import LineCensus.Proofs.CensusTotals

/-!
# Reading files side by side gives the census of reading them in turn

What a job still has to do (`Job.finish`) is changed by none of its steps, so a job that has ended holds
the outcome its file has by itself (`Job.Step.finish_eq`). `Jobs.Sound` carries this through every
interleaving, together with which files were announced. Every step leaves fewer to be made and no job
gets stuck, so each interleaving can be completed (`Jobs.exists_finishes`).
-/

namespace LineCensus.Census

variable {m : Markers} {source : Text → Contents} {watcher : Option Watcher}

namespace Job

/-- The outcome of a job, if it went on by itself from here. -/
def finish (m : Markers) (source : Text → Contents) (watcher : Option Watcher) (i : Nat) (path : Text) :
    Job → Except Stuck (Except Failure Tally)
  | waiting => tallyFile m source watcher i path
  | reading t tally rest => do
    let vs ← t.feedAll m rest
    match (source path).failure with
    | some f => return .error f
    | none => return .ok (tally.recordAll vs).recordFile
  | ended outcome => .ok outcome

/-- No step changes what the job will come to. -/
theorem Step.finish_eq {i : Nat} {path : Text} {job job' : Job} (h : Step m source watcher i path job job') :
    job'.finish m source watcher i path = job.finish m source watcher i path := by
  cases h with
  | refuse h => simp only [finish, tallyFile, h]
  | announce h =>
    simp only [finish, tallyFile, h, tallyLines, Markers.classify, Tally.recordAll]
    cases Tracker.start.feedAll m (source path).lines with
    | error e => rfl
    | ok vs => cases (source path).failure <;> rfl
  | @line t t' tally l rest v h =>
    simp only [finish, Tracker.feedAll, h]
    cases hrest : t'.feedAll m rest with
    | error e => simp only [bind, Except.bind, hrest]
    | ok vs => simp only [bind, Except.bind, hrest, pure, Except.pure, Tally.recordAll, List.foldl_cons]
  | fail h =>
    simp only [finish, Tracker.feedAll, h]
    rfl
  | complete h =>
    simp only [finish, Tracker.feedAll, h]
    rfl

/-- The number of steps a job has left at most. -/
def weight (source : Text → Contents) (path : Text) : Job → Nat
  | waiting => (source path).lines.length + 2
  | reading _ _ rest => rest.length + 1
  | ended _ => 0

theorem Step.weight_lt {i : Nat} {path : Text} {job job' : Job} (h : Step m source watcher i path job job') :
    job'.weight source path < job.weight source path := by
  cases h <;> simp [weight]

/-- A job that comes to an outcome has ended or can make a step. -/
theorem ended_or_step {i : Nat} {path : Text} {job : Job} {outcome : Except Failure Tally}
    (h : job.finish m source watcher i path = .ok outcome) :
    job = .ended outcome ∨ ∃ job', Step m source watcher i path job job' := by
  cases job with
  | waiting =>
    right
    cases hw : watcher.bind fun w => w.onFile i path with
    | some f => exact ⟨_, .refuse hw⟩
    | none => exact ⟨_, .announce hw⟩
  | reading t tally rest =>
    right
    cases rest with
    | nil =>
      cases hf : (source path).failure with
      | some f => exact ⟨_, .fail hf⟩
      | none => exact ⟨_, .complete hf⟩
    | cons l rest =>
      cases hl : t.feed m l with
      | error e =>
        simp only [finish, Tracker.feedAll, hl] at h
        cases h
      | ok r => exact ⟨_, .line hl⟩
  | ended outcome' =>
    cases h
    exact .inl rfl

theorem Step.ne_waiting {i : Nat} {path : Text} {job job' : Job} (h : Step m source watcher i path job job') :
    job' ≠ .waiting := by
  cases h <;> nofun

end Job

namespace Jobs

/-- In every interleaving the files stand at their places, each job comes to the outcome its file has
by itself, and the files of all jobs that have begun were announced, each once. -/
structure Sound (m : Markers) (source : Text → Contents) (watcher : Option Watcher) (paths : List Text)
    (s : Jobs) : Prop where
  paths : s.jobs.map Prod.fst = paths
  finish : ∀ i path job, s.jobs[i]? = some (path, job) →
    job.finish m source watcher i path = tallyFile m source watcher i path
  announced : ∀ i path, (path, i) ∈ s.announced ↔ ∃ job, s.jobs[i]? = some (path, job) ∧ job ≠ .waiting
  once : s.announced.Nodup

theorem sound_start (paths : List Text) : Sound m source watcher paths (start paths) where
  paths := by simp [start, Function.comp_def]
  finish := by
    intro i path job h
    simp only [start, List.getElem?_map, Option.map_eq_some_iff] at h
    obtain ⟨_, -, he⟩ := h
    cases he
    rfl
  announced := by
    intro i path
    refine ⟨nofun, ?_⟩
    rintro ⟨job, h, hjob⟩
    simp only [start, List.getElem?_map, Option.map_eq_some_iff] at h
    obtain ⟨_, -, he⟩ := h
    cases he
    exact absurd rfl hjob
  once := List.nodup_nil

theorem getElem?_set_of_some {α : Type} {l : List α} {i : Nat} {x : α} (hi : l[i]? = some x) (y : α) (j : Nat) :
    (l.set i y)[j]? = if i = j then some y else l[j]? := by
  rw [List.getElem?_set]
  split
  · exact if_pos (List.getElem?_eq_some_iff.1 hi).1
  · rfl

/-- A step of one job keeps every file at its place. -/
theorem map_fst_set {l : List (Text × Job)} {i : Nat} {path : Text} {job : Job} (hi : l[i]? = some (path, job))
    (job' : Job) : (l.set i (path, job')).map Prod.fst = l.map Prod.fst := by
  apply List.ext_getElem?
  intro j
  rw [List.getElem?_map, List.getElem?_map, getElem?_set_of_some hi]
  split
  · rename_i hij
    rw [← hij, hi]
    rfl
  · rfl

theorem Sound.finish_set {paths : List Text} {s : Jobs} (hs : Sound m source watcher paths s) {i : Nat}
    {path : Text} {job job' : Job} (hi : s.jobs[i]? = some (path, job))
    (h : Job.Step m source watcher i path job job') :
    ∀ j path' job'', (s.jobs.set i (path, job'))[j]? = some (path', job'') →
      job''.finish m source watcher j path' = tallyFile m source watcher j path' := by
  intro j path' job'' hj
  rw [getElem?_set_of_some hi] at hj
  split at hj
  · rename_i hij
    cases hj
    subst hij
    rw [h.finish_eq, hs.finish i path job hi]
  · exact hs.finish j path' job'' hj

/-- After a step of the job at place `i`, that job has begun and the others are as they were. -/
theorem begun_set {l : List (Text × Job)} {i : Nat} {path : Text} {job job' : Job}
    (hi : l[i]? = some (path, job)) (hne : job' ≠ .waiting) (j : Nat) (path' : Text) :
    (∃ job'', (l.set i (path, job'))[j]? = some (path', job'') ∧ job'' ≠ .waiting) ↔
      (∃ job'', l[j]? = some (path', job'') ∧ job'' ≠ .waiting) ∨ (path', j) = (path, i) := by
  rw [getElem?_set_of_some hi]
  by_cases hij : i = j
  · subst hij
    rw [if_pos rfl, hi]
    constructor
    · rintro ⟨_, he, -⟩
      cases he
      exact .inr rfl
    · rintro (⟨_, he, -⟩ | he)
      · cases he
        exact ⟨job', rfl, hne⟩
      · cases he
        exact ⟨job', rfl, hne⟩
  · rw [if_neg hij]
    refine (or_iff_left ?_).symm
    intro he
    cases he
    exact hij rfl

theorem Sound.step {paths : List Text} {s s' : Jobs} (hs : Sound m source watcher paths s)
    (h : Step m source watcher s s') : Sound m source watcher paths s' := by
  cases h with
  | @first i path job hi hjob =>
    have hnew : (path, i) ∉ s.announced := by
      intro hmem
      obtain ⟨job', hi', hne⟩ := (hs.announced i path).1 hmem
      rw [hi] at hi'
      cases hi'
      exact hne rfl
    refine ⟨(map_fst_set hi job).trans hs.paths, hs.finish_set hi hjob, fun j path' => ?_, ?_⟩
    · rw [List.mem_append, List.mem_singleton, begun_set hi hjob.ne_waiting, hs.announced]
    · exact List.nodup_append.2 ⟨hs.once, List.nodup_singleton _, by
        rintro x hx y hy rfl
        rw [List.mem_singleton] at hy
        exact hnew (hy ▸ hx)⟩
  | @next i path job job' hi hne hjob =>
    refine ⟨(map_fst_set hi job').trans hs.paths, hs.finish_set hi hjob, fun j path' => ?_, hs.once⟩
    rw [hs.announced, begun_set hi hjob.ne_waiting]
    refine (or_iff_left_of_imp ?_).symm
    intro he
    cases he
    exact ⟨job, hi, hne⟩

theorem Reached.sound {paths : List Text} {s : Jobs} (h : Reached m source watcher paths s) :
    Sound m source watcher paths s := by
  induction h with
  | start => exact sound_start paths
  | step _ hs ih => exact ih.step hs

/-! ### Complete interleavings -/

/-- The number of steps all jobs have left at most. -/
def weight (source : Text → Contents) (s : Jobs) : Nat := (s.jobs.map fun e => e.2.weight source e.1).sum

theorem sum_map_set_lt {α : Type} {f : α → Nat} {l : List α} {i : Nat} {x y : α} (hi : l[i]? = some x)
    (h : f y < f x) : ((l.set i y).map f).sum < (l.map f).sum := by
  induction l generalizing i with
  | nil => cases hi
  | cons a rest ih =>
    cases i with
    | zero =>
      cases hi
      simp only [List.set_cons_zero, List.map_cons, List.sum_cons]
      omega
    | succ i =>
      have hrest := ih (i := i) hi
      simp only [List.set_cons_succ, List.map_cons, List.sum_cons]
      omega

/-- No interleaving goes on for ever. -/
theorem Step.weight_lt {s s' : Jobs} (h : Step m source watcher s s') : s'.weight source < s.weight source := by
  cases h with
  | first hi h => exact sum_map_set_lt hi h.weight_lt
  | next hi _ h => exact sum_map_set_lt hi h.weight_lt

theorem outcomes?_eq_some {jobs : List (Text × Job)} {outcomes : List (Text × Except Failure Tally)}
    (h : outcomes? jobs = some outcomes) : jobs = outcomes.map fun e => (e.1, .ended e.2) := by
  induction jobs generalizing outcomes with
  | nil =>
    cases h
    rfl
  | cons e rest ih =>
    obtain ⟨path, job⟩ := e
    cases job with
    | waiting => cases h
    | reading => cases h
    | ended outcome =>
      obtain ⟨outcomes', hrest, rfl⟩ := Option.map_eq_some_iff.1 h
      rw [ih hrest, List.map_cons]

theorem exists_outcomes {jobs : List (Text × Job)} (h : ∀ e ∈ jobs, ∃ outcome, e.2 = .ended outcome) :
    ∃ outcomes, outcomes? jobs = some outcomes := by
  induction jobs with
  | nil => exact ⟨[], rfl⟩
  | cons e rest ih =>
    obtain ⟨outcome, he⟩ := h e List.mem_cons_self
    obtain ⟨outcomes, hrest⟩ := ih fun e' he' => h e' (List.mem_cons_of_mem _ he')
    refine ⟨(e.1, outcome) :: outcomes, ?_⟩
    obtain ⟨path, job⟩ := e
    subst he
    exact congrArg (Option.map _) hrest

/-- A state whose files all come to an outcome is complete or goes on. -/
theorem Sound.ended_or_step {paths : List Text} {s : Jobs} (hs : Sound m source watcher paths s)
    (h : ∀ i path, ∃ outcome, tallyFile m source watcher i path = .ok outcome) :
    (∃ outcomes, outcomes? s.jobs = some outcomes) ∨ ∃ s', Step m source watcher s s' := by
  by_cases hall : ∀ e ∈ s.jobs, ∃ outcome, e.2 = .ended outcome
  · left
    exact exists_outcomes hall
  · right
    simp only [not_forall] at hall
    obtain ⟨⟨path, job⟩, he, hne⟩ := hall
    obtain ⟨i, hi⟩ := List.mem_iff_getElem?.1 he
    obtain ⟨outcome, hfile⟩ := h i path
    rcases Job.ended_or_step ((hs.finish i path job hi).trans hfile) with hended | ⟨job', hstep⟩
    · exact absurd ⟨outcome, hended⟩ hne
    · by_cases hw : job = .waiting
      · subst hw
        exact ⟨_, .first hi hstep⟩
      · exact ⟨_, .next hi hw hstep⟩

/-- Every interleaving can be completed. -/
theorem Reached.completes {paths : List Text} (h : ∀ i path, ∃ outcome, tallyFile m source watcher i path = .ok outcome)
    {s : Jobs} (hs : Reached m source watcher paths s) :
    ∃ s' outcomes, Reached m source watcher paths s' ∧ outcomes? s'.jobs = some outcomes := by
  -- by the steps that are left
  induction hn : s.weight source using Nat.strong_induction_on generalizing s with
  | _ n ih =>
    rcases hs.sound.ended_or_step h with ⟨outcomes, hended⟩ | ⟨s', hstep⟩
    · exact ⟨s, outcomes, hs, hended⟩
    · exact ih _ (hn ▸ hstep.weight_lt) (hs.step hstep) rfl

/-- Whatever is listed, a run side by side can be completed. -/
theorem exists_finishes (hm : m.Progressing) (source : Text → Contents) (watcher : Option Watcher)
    (listed : Except Failure (List Text)) :
    ∃ announced result calls, Finishes m source watcher listed announced result calls := by
  cases listed with
  | error f => exact ⟨_, _, _, .unlisted f⟩
  | ok paths =>
    have hfile : ∀ i path, ∃ outcome, tallyFile m source watcher i path = .ok outcome := fun i path =>
      ⟨_, tallyFile_eq (Markers.classify_eq_file hm (source path).lines) i⟩
    obtain ⟨s, outcomes, reached, ended⟩ := Reached.completes hfile (.start : Reached m source watcher paths _)
    exact ⟨_, _, _, .listed reached ended⟩

/-- Outcomes that are each those of a file by itself are those of reading the files in turn. -/
theorem tallyFiles_of_forall {i : Nat} {outcomes : List (Text × Except Failure Tally)}
    (h : ∀ k path outcome, outcomes[k]? = some (path, outcome) →
      tallyFile m source watcher (i + k) path = .ok outcome) :
    tallyFiles m source watcher i (outcomes.map Prod.fst) = .ok outcomes := by
  induction outcomes generalizing i with
  | nil => rfl
  | cons e rest ih =>
    have hfirst := h 0 e.1 e.2 rfl
    have hrest := ih (i := i + 1) fun k path outcome hk => by
      rw [Nat.add_assoc, Nat.add_comm 1 k]
      exact h (k + 1) path outcome hk
    rw [Nat.add_zero] at hfirst
    simp only [List.map_cons, tallyFiles, hfirst, hrest]
    rfl

/-- When every job has ended, the outcomes are those of reading the files in turn. -/
theorem Sound.tallyFiles_eq {paths : List Text} {s : Jobs} (hs : Sound m source watcher paths s)
    {outcomes : List (Text × Except Failure Tally)} (h : outcomes? s.jobs = some outcomes) :
    tallyFiles m source watcher 0 paths = .ok outcomes := by
  have hjobs := outcomes?_eq_some h
  have hpaths : outcomes.map Prod.fst = paths := by
    rw [← hs.paths, hjobs, List.map_map]
    rfl
  rw [← hpaths]
  apply tallyFiles_of_forall
  intro k path outcome hk
  rw [Nat.zero_add, ← hs.finish k path (.ended outcome)]
  · rfl
  · rw [hjobs, List.getElem?_map, hk]
    rfl

/-- When every job has ended, every file was announced once. -/
theorem Sound.announced_perm {paths : List Text} {s : Jobs} (hs : Sound m source watcher paths s)
    {outcomes : List (Text × Except Failure Tally)} (h : outcomes? s.jobs = some outcomes) :
    s.announced.Perm paths.zipIdx := by
  have hjobs := outcomes?_eq_some h
  refine (List.perm_ext_iff_of_nodup hs.once (List.Nodup.of_map _ (List.nodup_zipIdx_map_snd paths))).2 ?_
  rintro ⟨path, i⟩
  rw [hs.announced, List.mem_zipIdx_iff_getElem?, ← hs.paths, List.getElem?_map]
  constructor
  · rintro ⟨job, hi, -⟩
    rw [hi]
    rfl
  · intro hi
    obtain ⟨⟨_, job⟩, hi, rfl⟩ := Option.map_eq_some_iff.1 hi
    refine ⟨job, hi, ?_⟩
    rintro rfl
    rw [hjobs, List.getElem?_map] at hi
    obtain ⟨_, -, he⟩ := Option.map_eq_some_iff.1 hi
    cases he

/-- No file is announced once outcomes are settled. -/
theorem isFile_settle {n i : Nat} {total : Tally} {skipped : List Skipped}
    {outcomes : List (Text × Except Failure Tally)} :
    ∀ c ∈ (settle watcher n i total skipped outcomes).2, c.isFile = false := by
  induction outcomes generalizing i total skipped with
  | nil =>
    simp only [settle]
    split
    · intro c hc
      cases hc
    · split <;> simp [Call.isFile]
  | cons e rest ih =>
    obtain ⟨path, result⟩ := e
    cases result with
    | ok tally => exact ih
    | error f =>
      simp only [settle]
      split
      · exact ih
      · split
        · simp [Call.isFile]
        · intro c hc
          rcases List.mem_cons.1 hc with rfl | hc
          · rfl
          · exact ih c hc

theorem fileCalls_zipIdx (watcher : Option Watcher) (paths : List Text) :
    fileCalls watcher paths.zipIdx = if watcher.isSome then paths.map .file else [] := by
  have hmap := congrArg (List.map Call.file) (List.zipIdx_map_fst 0 paths)
  rw [List.map_map] at hmap
  exact congrArg (fun calls => if watcher.isSome then calls else []) hmap

/-- **Every interleaving gives the census of reading the files in turn**: it ends with the same result,
announces every listed file once, and does so before it makes the other calls, which are the same. -/
theorem finishes_run {sink : Option Sink} {listed : Except Failure (List Text)} {announced : List (Text × Nat)}
    {result : Except Failure Census} {calls : List Call}
    (h : Finishes m source (sink.map Sink.watcher) listed announced result calls) :
    ∃ later, run m source sink listed =
        .ok (result, fileCalls (sink.map Sink.watcher) (entries listed) ++ later) ∧
      calls = fileCalls (sink.map Sink.watcher) announced ++ later ∧ announced.Perm (entries listed) ∧
      ∀ c ∈ later, c.isFile = false := by
  cases h with
  | unlisted f =>
    refine ⟨[], ?_, ?_, .refl _, nofun⟩
    · simp [run, runWatched, entries, fileCalls]
    · simp [fileCalls]
  | @listed paths s outcomes reached ended =>
    have hs := reached.sound
    refine ⟨_, ?_, rfl, hs.announced_perm ended, isFile_settle⟩
    simp only [run, runWatched, hs.tallyFiles_eq ended, entries, fileCalls_zipIdx]
    rfl

/-- The second file is announced first, and ends while the first one is open. -/
theorem finishes_run_overtaking :
    let m := Markers.ofLists ["//".toList] [⟨"/*".toList, "*/".toList⟩] []
    let source : Text → Contents := fun path =>
      if path = ['a'] then ⟨["/*".toList, "*/x".toList], none⟩ else ⟨["y".toList], some (.threadPool "stopped")⟩
    let later : List Call :=
      [.skipped ['b'] "Application error: Thread pool creation failed: stopped", .complete ⟨0, 1, 1, 1⟩]
    ∃ result, Finishes m source (some Sink.accepting.watcher) (.ok [['a'], ['b']]) [(['b'], 1), (['a'], 0)] result
        (.file ['b'] :: .file ['a'] :: later) ∧
      run m source (some .accepting) (.ok [['a'], ['b']]) = .ok (result, .file ['a'] :: .file ['b'] :: later) := by
  intro m source later
  have waiting : Reached m source (some Sink.accepting.watcher) [['a'], ['b']] _ := .start
  have reached := waiting
    |>.step (.first (i := 1) rfl (.announce rfl))
    |>.step (.first (i := 0) rfl (.announce rfl))
    |>.step (.next (i := 0) rfl nofun (.line rfl))
    |>.step (.next (i := 1) rfl nofun (.line rfl))
    |>.step (.next (i := 1) rfl nofun (.fail rfl))
    |>.step (.next (i := 0) rfl nofun (.line rfl))
    |>.step (.next (i := 0) rfl nofun (.complete rfl))
  have finishes := Finishes.listed reached rfl
  obtain ⟨later', hrun, hcalls, -⟩ := @finishes_run m source (some .accepting) _ _ _ _ finishes
  have hlater : later = later' := (List.cons.inj (List.cons.inj hcalls).2).2
  exact ⟨_, finishes, hlater ▸ hrun⟩

end Jobs

end LineCensus.Census
