import LineCensus.Census.Events
import LineCensus.Proofs.CensusTotals

/-!
# How a run ends

`Census.Settles` says how the outcomes of a run are reported: the first skipped file whose report the
watcher refuses ends the run with the watcher's failure, and otherwise the total is reported last.
`Census.Ends` adds the beginning of a run, in which no failure of a file or of its announcement is more
than a reason to skip it. A run that ends does so as `Ends` says (`runLogged_ends`), which leaves one
result and one order of events for every watcher and every source (`Ends.unique`).
-/

namespace LineCensus.Census

variable {m : Markers} {source : Text → Contents} {watcher : Option Watcher}

/-- The failure of a watcher to take note of the skipped file at a place. -/
def skipRefusal? (watcher : Option Watcher) (e : Nat × Skipped) : Option Failure :=
  watcher.bind fun w => w.onSkipped e.1 e.2.path e.2.reason

/-- The failure of a watcher to take note of the total. -/
def totalRefusal? (watcher : Option Watcher) (tally : Tally) : Option Failure :=
  watcher.bind fun w => w.onComplete tally

/-- The reports of skipped files. -/
def reports (skips : List (Nat × Skipped)) : List Call := skips.map fun e => .skipped e.2.path e.2.reason

/-- How a run ends whose skipped files, with their places, are `skips`, and which comes to `census`. -/
inductive Settles (watcher : Option Watcher) (skips : List (Nat × Skipped)) (census : Census) :
    Except Failure Census → List Event → Prop where
  /-- The report of a skipped file is refused, and those of the files before it are not. -/
  | skipRefused {before after : List (Nat × Skipped)} {e : Nat × Skipped} {f : Failure}
      (split : skips = before ++ e :: after) (taken : ∀ d ∈ before, skipRefusal? watcher d = none)
      (refused : skipRefusal? watcher e = some f) :
      Settles watcher skips census (.error f) (toldAll watcher (reports (before ++ [e])))
  /-- Every skipped file is reported, and the total is refused. -/
  | totalRefused {f : Failure} (taken : ∀ e ∈ skips, skipRefusal? watcher e = none)
      (refused : totalRefusal? watcher census.tally = some f) :
      Settles watcher skips census (.error f) (toldAll watcher (reports skips ++ [.complete census.tally]))
  /-- Nothing is refused. -/
  | completed (taken : ∀ e ∈ skips, skipRefusal? watcher e = none)
      (accepted : totalRefusal? watcher census.tally = none) :
      Settles watcher skips census (.ok census) (toldAll watcher (reports skips ++ [.complete census.tally]))

theorem toldAll_append (watcher : Option Watcher) (xs ys : List Call) :
    toldAll watcher (xs ++ ys) = toldAll watcher xs ++ toldAll watcher ys := by
  cases watcher with
  | none => rfl
  | some w => exact List.map_append

namespace Settles

variable {skips : List (Nat × Skipped)} {census : Census} {result result' : Except Failure Census}
  {events events' : List Event}

/-- A skipped file whose report is not refused is reported first. -/
theorem cons {e : Nat × Skipped} (taken : skipRefusal? watcher e = none)
    (h : Settles watcher skips census result events) :
    Settles watcher (e :: skips) census result (toldAll watcher (reports [e]) ++ events) := by
  have hall : ∀ {ds : List (Nat × Skipped)}, (∀ d ∈ ds, skipRefusal? watcher d = none) →
      ∀ d ∈ e :: ds, skipRefusal? watcher d = none := by
    intro ds hds d hd
    rcases List.mem_cons.1 hd with rfl | hd
    · exact taken
    · exact hds d hd
  cases h with
  | @skipRefused before after e' f split taken' refused =>
    rw [← toldAll_append]
    have hsplit : e :: skips = (e :: before) ++ e' :: after := by rw [split, List.cons_append]
    exact .skipRefused hsplit (hall taken') refused
  | totalRefused taken' refused =>
    rw [← toldAll_append]
    exact .totalRefused (hall taken') refused
  | completed taken' accepted =>
    rw [← toldAll_append]
    exact .completed (hall taken') accepted

/-- Which report is the first to be refused is determined. -/
theorem split_unique {before before' after after' : List (Nat × Skipped)} {e e' : Nat × Skipped} {f f' : Failure}
    (h : before ++ e :: after = before' ++ e' :: after') (taken : ∀ d ∈ before, skipRefusal? watcher d = none)
    (refused : skipRefusal? watcher e = some f) (taken' : ∀ d ∈ before', skipRefusal? watcher d = none)
    (refused' : skipRefusal? watcher e' = some f') : before = before' ∧ e = e' := by
  induction before generalizing before' with
  | nil =>
    cases before' with
    | nil => exact ⟨rfl, (List.cons.inj h).1⟩
    | cons d before' =>
      have hd : e = d := (List.cons.inj h).1
      have htaken := taken' d List.mem_cons_self
      rw [← hd, refused] at htaken
      cases htaken
  | cons d before ih =>
    cases before' with
    | nil =>
      have hd : d = e' := (List.cons.inj h).1
      have htaken := taken d List.mem_cons_self
      rw [hd, refused'] at htaken
      cases htaken
    | cons d' before' =>
      obtain ⟨rfl, hrest⟩ := List.cons.inj h
      obtain ⟨rfl, rfl⟩ := ih hrest (fun x hx => taken x (List.mem_cons_of_mem _ hx))
        fun x hx => taken' x (List.mem_cons_of_mem _ hx)
      exact ⟨rfl, rfl⟩

/-- Where a report is refused, not all of them are taken. -/
theorem not_all_taken {before after : List (Nat × Skipped)} {e : Nat × Skipped} {f : Failure}
    (split : skips = before ++ e :: after) (refused : skipRefusal? watcher e = some f)
    (taken : ∀ d ∈ skips, skipRefusal? watcher d = none) : False := by
  have htaken := taken e (by rw [split]; exact List.mem_append_right _ List.mem_cons_self)
  rw [refused] at htaken
  cases htaken

/-- The three ways to end exclude each other, and each leaves one result and one list of events. -/
theorem unique (h : Settles watcher skips census result events) (h' : Settles watcher skips census result' events') :
    result = result' ∧ events = events' := by
  cases h with
  | skipRefused split taken refused =>
    cases h' with
    | skipRefused split' taken' refused' =>
      obtain ⟨rfl, rfl⟩ := split_unique (split ▸ split') taken refused taken' refused'
      rw [refused] at refused'
      cases refused'
      exact ⟨rfl, rfl⟩
    | totalRefused taken' _ => exact (not_all_taken split refused taken').elim
    | completed taken' _ => exact (not_all_taken split refused taken').elim
  | totalRefused taken refused =>
    cases h' with
    | skipRefused split' _ refused' => exact (not_all_taken split' refused' taken).elim
    | totalRefused _ refused' =>
      rw [refused] at refused'
      cases refused'
      exact ⟨rfl, rfl⟩
    | completed _ accepted' =>
      rw [refused] at accepted'
      cases accepted'
  | completed taken accepted =>
    cases h' with
    | skipRefused split' _ refused' => exact (not_all_taken split' refused' taken).elim
    | totalRefused _ refused' =>
      rw [accepted] at refused'
      cases refused'
    | completed _ _ => exact ⟨rfl, rfl⟩

end Settles

/-- The skipped files among outcomes from place `i` on, with their places. -/
def outcomeSkips (i : Nat) (outcomes : List (Text × Except Failure Tally)) : List (Nat × Skipped) :=
  (outcomes.zipIdx i).filterMap fun e => (skipped? e.1).map fun s => (e.2, s)

/-- Outcomes are reported in order, up to the first report that is refused. -/
theorem settle_settles (watcher : Option Watcher) (n i : Nat) (total : Tally) (skipped : List Skipped)
    (outcomes : List (Text × Except Failure Tally)) :
    Settles watcher (outcomeSkips i outcomes)
      ⟨(outcomes.filterMap counted?).foldl Tally.merge total, n, skipped ++ outcomes.filterMap skipped?⟩
      (settle watcher n i total skipped outcomes).1 ((settle watcher n i total skipped outcomes).2.map .told) := by
  induction outcomes generalizing i total skipped with
  | nil =>
    have hskips : outcomeSkips i [] = [] := rfl
    have htaken : ∀ e ∈ ([] : List (Nat × Skipped)), skipRefusal? watcher e = none := List.forall_mem_nil _
    simp only [hskips, List.filterMap_nil, List.foldl_nil, List.append_nil]
    cases watcher with
    | none => exact .completed htaken rfl
    | some w =>
      simp only [settle]
      cases hw : w.onComplete total with
      | some f =>
        have hrefused : totalRefusal? (some w) total = some f := hw
        exact .totalRefused htaken hrefused
      | none =>
        have haccepted : totalRefusal? (some w) total = none := hw
        exact .completed htaken haccepted
  | cons e rest ih =>
    obtain ⟨path, result⟩ := e
    cases result with
    | ok tally => exact ih (i + 1) (total.merge tally) skipped
    | error f =>
      have hskips : outcomeSkips i ((path, .error f) :: rest) =
          (i, ⟨path, f.message⟩) :: outcomeSkips (i + 1) rest := rfl
      have hrest := ih (i + 1) total (skipped ++ [⟨path, f.message⟩])
      rw [List.append_assoc] at hrest
      cases watcher with
      | none => exact hskips ▸ Settles.cons (e := (i, ⟨path, f.message⟩)) rfl hrest
      | some w =>
        rw [hskips]
        simp only [settle]
        cases hw : w.onSkipped i path f.message with
        | some g =>
          have hsplit : (i, ⟨path, f.message⟩) :: outcomeSkips (i + 1) rest =
              [] ++ (i, ⟨path, f.message⟩) :: outcomeSkips (i + 1) rest := rfl
          exact .skipRefused hsplit (List.forall_mem_nil _) hw
        | none => exact Settles.cons (e := (i, ⟨path, f.message⟩)) hw hrest

/-! ### The whole run -/

/-- The verdicts on the lines of a file. -/
def verdictsOn (m : Markers) (contents : Contents) : List Verdict :=
  match m.classify contents.lines with
  | .ok vs => vs
  | .error _ => []

/-- The files that are skipped, with their places: their announcement is refused, or they cannot be read
to their end. -/
def skips (source : Text → Contents) (watcher : Option Watcher) (paths : List Text) : List (Nat × Skipped) :=
  paths.zipIdx.filterMap fun e => (fault? source watcher e.2 e.1).map fun f => (e.2, ⟨e.1, f.message⟩)

/-- The census of a run that is not refused. -/
def ofCounted (m : Markers) (source : Text → Contents) (watcher : Option Watcher) (paths : List Text) : Census where
  tally := ((countedFiles source watcher paths).map fun e =>
    fileTally (verdictsOn m (source e.1))).foldl Tally.merge .zero
  discovered := paths.length
  skipped := skippedFiles source watcher paths

/-- How a run ends. -/
inductive Ends (m : Markers) (source : Text → Contents) (watcher : Option Watcher) :
    Except Failure (List Text) → Except Failure Census → List Event → Prop where
  /-- The files cannot be listed. -/
  | unlisted (f : Failure) :
      Ends m source watcher (.error f) (.error (.collectionFailed "could not enumerate input files" (some f))) []
  /-- Every file is announced, and read unless its announcement is refused; then the outcomes are reported. -/
  | listed {paths : List Text} {result : Except Failure Census} {events : List Event}
      (settles : Settles watcher (skips source watcher paths) (ofCounted m source watcher paths) result events) :
      Ends m source watcher (.ok paths) result (filesEvents watcher 0 paths ++ events)

theorem Ends.unique {listed : Except Failure (List Text)} {result result' : Except Failure Census}
    {events events' : List Event} (h : Ends m source watcher listed result events)
    (h' : Ends m source watcher listed result' events') : result = result' ∧ events = events' := by
  cases h with
  | unlisted f =>
    cases h'
    exact ⟨rfl, rfl⟩
  | listed settles =>
    cases h' with
    | listed settles' =>
      obtain ⟨rfl, rfl⟩ := settles.unique settles'
      exact ⟨rfl, rfl⟩

theorem outcome_of_tallyFile {i : Nat} {path : Text} {result : Except Failure Tally}
    (h : tallyFile m source watcher i path = .ok result) :
    result = outcome source watcher (verdictsOn m (source path)) i path := by
  unfold outcome fault?
  unfold tallyFile at h
  cases hw : watcher.bind fun w => w.onFile i path with
  | some f =>
    rw [hw] at h
    cases h
    rfl
  | none =>
    rw [hw] at h
    simp only [tallyLines, bind, Except.bind] at h
    unfold verdictsOn
    cases hvs : m.classify (source path).lines with
    | error e =>
      rw [hvs] at h
      cases h
    | ok vs =>
      rw [hvs] at h
      cases hf : (source path).failure <;> simp only [hf] at h <;> cases h <;> rfl

/-- Outcomes that are reached are those of the files by themselves. -/
theorem outcomes_of_tallyFiles {i : Nat} {paths : List Text} {outcomes : List (Text × Except Failure Tally)}
    (h : tallyFiles m source watcher i paths = .ok outcomes) :
    outcomes = (paths.zipIdx i).map fun e =>
      (e.1, outcome source watcher (verdictsOn m (source e.1)) e.2 e.1) := by
  induction paths generalizing i outcomes with
  | nil =>
    cases h
    rfl
  | cons path rest ih =>
    rw [tallyFiles] at h
    cases hfile : tallyFile m source watcher i path with
    | error e =>
      rw [hfile] at h
      cases h
    | ok result =>
      cases hrest : tallyFiles m source watcher (i + 1) rest with
      | error e =>
        rw [hfile, hrest] at h
        cases h
      | ok outcomes' =>
        rw [hfile, hrest] at h
        cases h
        rw [List.zipIdx_cons, List.map_cons, ← outcome_of_tallyFile hfile, ← ih hrest]

theorem outcomeSkips_map (verdicts : Text → List Verdict) (i : Nat) (paths : List Text) :
    outcomeSkips i ((paths.zipIdx i).map fun e => (e.1, outcome source watcher (verdicts e.1) e.2 e.1)) =
      (paths.zipIdx i).filterMap fun e => (fault? source watcher e.2 e.1).map fun f => (e.2, ⟨e.1, f.message⟩) := by
  induction paths generalizing i with
  | nil => rfl
  | cons path rest ih =>
    have hrest := ih (i + 1)
    unfold outcomeSkips at hrest ⊢
    rw [List.zipIdx_cons, List.map_cons, List.zipIdx_cons, List.filterMap_cons, List.filterMap_cons, hrest,
      skipped?_outcome, Option.map_map]
    rfl

/-- A run that comes to a result ends so. -/
theorem ends_of_runLogged {listed : Except Failure (List Text)} {result : Except Failure Census}
    {events : List Event} (h : runLogged m source watcher listed = .ok (result, events)) :
    Ends m source watcher listed result events := by
  cases listed with
  | error f =>
    cases h
    exact .unlisted f
  | ok paths =>
    simp only [runLogged, filesLogged_eq] at h
    cases hfiles : tallyFiles m source watcher 0 paths with
    | error e =>
      rw [hfiles] at h
      cases h
    | ok outcomes =>
      rw [hfiles] at h
      cases h
      have hsettles := settle_settles watcher paths.length 0 .zero [] outcomes
      have houtcomes := outcomes_of_tallyFiles hfiles
      have hskips : outcomeSkips 0 outcomes = skips source watcher paths := by
        rw [houtcomes]
        exact outcomeSkips_map (fun path => verdictsOn m (source path)) 0 paths
      have hcensus : (⟨(outcomes.filterMap counted?).foldl Tally.merge .zero, paths.length,
          [] ++ outcomes.filterMap skipped?⟩ : Census) = ofCounted m source watcher paths := by
        rw [houtcomes, List.filterMap_map, List.filterMap_map, List.nil_append]
        simp only [Function.comp_def, skipped?_outcome, counted?_outcome]
        rw [filterMap_ite_some]
        rfl
      rw [hskips, hcensus] at hsettles
      exact .listed hsettles

theorem exists_runLogged (hm : m.Progressing) (source : Text → Contents) (watcher : Option Watcher)
    (listed : Except Failure (List Text)) :
    ∃ result events, runLogged m source watcher listed = .ok (result, events) := by
  cases listed with
  | error f => exact ⟨_, _, rfl⟩
  | ok paths =>
    have hverdicts : ∀ path, m.classify (source path).lines = .ok _ :=
      fun path => Markers.classify_eq_file hm (source path).lines
    simp only [runLogged, filesLogged_eq, tallyFiles_eq hverdicts]
    exact ⟨_, _, rfl⟩

/-- **A run fails in three cases**: the files cannot be listed; else the report of a skipped file is
refused; else the total is refused. Every run that comes to a result ends in one of these ways or with the
census that it reports, and does what belongs to that; and a run comes to a result. -/
theorem runLogged_ends (m : Markers) (source : Text → Contents) (watcher : Option Watcher)
    (listed : Except Failure (List Text)) :
    runWatched m source watcher listed =
        (runLogged m source watcher listed).map (fun r => (r.1, r.2.filterMap Event.call?)) ∧
      (∀ result events, runLogged m source watcher listed = .ok (result, events) →
        Ends m source watcher listed result events) ∧
      (m.Progressing → ∃ result events, runLogged m source watcher listed = .ok (result, events) ∧
        ∀ result' events', Ends m source watcher listed result' events' → result' = result ∧ events' = events) := by
  refine ⟨runWatched_eq_runLogged listed, ?_, ?_⟩
  · intro result events hrun
    exact ends_of_runLogged hrun
  · intro hm
    obtain ⟨result, events, hrun⟩ := exists_runLogged hm source watcher listed
    refine ⟨result, events, hrun, ?_⟩
    intro result' events' hends
    exact hends.unique (ends_of_runLogged hrun)

/-- One file is not opened, one cannot be read to its end, and the report of the second is refused. -/
theorem runLogged_ends_second_report :
    let m := Markers.ofLists [] [] []
    let source : Text → Contents := fun path =>
      if path = ['b'] then ⟨["x".toList], some (.threadPool "stopped")⟩ else ⟨["y".toList], none⟩
    let watcher : Watcher :=
      ⟨fun i _ => if i = 0 then some (.threadPool "refused") else none,
        fun i _ _ => if i = 1 then some (.threadPool "full") else none, fun _ => none⟩
    m.Progressing ∧ ∃ events, runLogged m source (some watcher) (.ok [['a'], ['b'], ['c']]) =
        .ok (.error (.threadPool "full"), events) ∧
      events = [.told (.file ['a']), .told (.file ['b']), .read ['b'], .told (.file ['c']), .read ['c'],
        .told (.skipped ['a'] "Application error: Thread pool creation failed: refused"),
        .told (.skipped ['b'] "Application error: Thread pool creation failed: stopped")] ∧
      Ends m source (some watcher) (.ok [['a'], ['b'], ['c']]) (.error (.threadPool "full")) events := by
  intro m source watcher
  have hm : m.Progressing := (Markers.solid_ofLists [] [] []).progressing
  obtain ⟨-, hends, hexists⟩ := runLogged_ends m source (some watcher) (.ok [['a'], ['b'], ['c']])
  obtain ⟨result, events, hrun, -⟩ := hexists hm
  have hevaluated : runLogged m source (some watcher) (.ok [['a'], ['b'], ['c']]) =
      .ok (.error (.threadPool "full"), _) := rfl
  cases hrun.symm.trans hevaluated
  exact ⟨hm, _, hrun, rfl, hends _ _ hrun⟩

end LineCensus.Census
