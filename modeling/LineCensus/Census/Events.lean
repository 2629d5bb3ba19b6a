import LineCensus.Census

/-!
# What a run does, in order

`Census.runWatched` keeps what the watcher is told. `Census.runLogged` is the same run and notes as well
when the source is asked for the lines of a file: its `Event`s stand in the order in which they happen
when the files are read in turn. Leaving out what is read gives `runWatched` again
(`runWatched_eq_runLogged`).

What is done for one file depends on the watcher alone (`fileLogged_eq`): the file is announced, and read
unless the watcher refuses it.
-/

namespace LineCensus.Census

/-- Something that a run does. -/
inductive Event where
  /-- The watcher is told something. -/
  | told (call : Call)
  /-- The lines of a file are read, as far as they can be. -/
  | read (path : Text)
  deriving DecidableEq, Repr

/-- What the watcher is told by an event. -/
def Event.call? : Event → Option Call
  | told call => some call
  | read _ => none

/-- Calls of the watcher, if there is one. -/
def toldAll (watcher : Option Watcher) (calls : List Call) : List Event :=
  if watcher.isSome then calls.map .told else []

/-- The outcome of the file at place `i`, and what is done for it. -/
def fileLogged (m : Markers) (source : Text → Contents) (watcher : Option Watcher) (i : Nat) (path : Text) :
    Except Stuck (Except Failure Tally × List Event) :=
  let announced := toldAll watcher [.file path]
  match watcher.bind fun w => w.onFile i path with
  | some f => .ok (.error f, announced)
  | none => do
    let contents := source path
    let events := announced ++ [.read path]
    let tally ← tallyLines m contents.lines
    match contents.failure with
    | some f => return (.error f, events)
    | none => return (.ok tally, events)

/-- The outcomes of the files from place `i` on, and what is done for them. -/
def filesLogged (m : Markers) (source : Text → Contents) (watcher : Option Watcher) (i : Nat) :
    List Text → Except Stuck (List (Text × Except Failure Tally) × List Event)
  | [] => .ok ([], [])
  | path :: rest => do
    let (outcome, events) ← fileLogged m source watcher i path
    let (outcomes, later) ← filesLogged m source watcher (i + 1) rest
    return ((path, outcome) :: outcomes, events ++ later)

/-- Counts the lines of the listed files, and gives what was done. -/
def runLogged (m : Markers) (source : Text → Contents) (watcher : Option Watcher)
    (listed : Except Failure (List Text)) : Except Stuck (Except Failure Census × List Event) :=
  match listed with
  | .error f => .ok (.error (listingFailed f), [])
  | .ok paths => do
    let (outcomes, events) ← filesLogged m source watcher 0 paths
    let (result, calls) := settle watcher paths.length 0 .zero [] outcomes
    return (result, events ++ calls.map .told)

/-- What is done for the file at place `i`: it is announced, and read if the watcher takes note. -/
def fileEvents (watcher : Option Watcher) (i : Nat) (path : Text) : List Event :=
  toldAll watcher [.file path] ++
    if (watcher.bind fun w => w.onFile i path).isNone then [.read path] else []

/-- What is done for the files from place `i` on. -/
def filesEvents (watcher : Option Watcher) (i : Nat) (paths : List Text) : List Event :=
  (paths.zipIdx i).flatMap fun e => fileEvents watcher e.2 e.1

section

variable {m : Markers} {source : Text → Contents} {watcher : Option Watcher}

theorem filterMap_toldAll (watcher : Option Watcher) (calls : List Call) :
    (toldAll watcher calls).filterMap Event.call? = if watcher.isSome then calls else [] := by
  unfold toldAll
  split
  · rw [List.filterMap_map]
    exact List.filterMap_some
  · rfl

theorem fileLogged_eq (i : Nat) (path : Text) :
    fileLogged m source watcher i path =
      (tallyFile m source watcher i path).map fun outcome => (outcome, fileEvents watcher i path) := by
  simp only [fileLogged, tallyFile, fileEvents]
  cases watcher.bind fun w => w.onFile i path with
  | some f => simp [Except.map]
  | none =>
    cases tallyLines m (source path).lines with
    | error e => rfl
    | ok tally => cases (source path).failure <;> rfl

theorem filesLogged_eq (i : Nat) (paths : List Text) :
    filesLogged m source watcher i paths =
      (tallyFiles m source watcher i paths).map fun outcomes => (outcomes, filesEvents watcher i paths) := by
  induction paths generalizing i with
  | nil => rfl
  | cons path rest ih =>
    simp only [filesLogged, tallyFiles, fileLogged_eq, ih]
    cases tallyFile m source watcher i path with
    | error e => rfl
    | ok outcome => cases tallyFiles m source watcher (i + 1) rest <;> rfl

/-- Files are announced in order, whether they are read or not. -/
theorem filterMap_filesEvents (watcher : Option Watcher) (i : Nat) (paths : List Text) :
    (filesEvents watcher i paths).filterMap Event.call? = if watcher.isSome then paths.map .file else [] := by
  induction paths generalizing i with
  | nil => simp [filesEvents]
  | cons path rest ih =>
    have hread : ∀ b : Bool, (if b then [Event.read path] else []).filterMap Event.call? = [] := by
      intro b
      cases b <;> rfl
    have hrest := ih (i + 1)
    unfold filesEvents at hrest ⊢
    rw [List.zipIdx_cons, List.flatMap_cons, List.filterMap_append, hrest, fileEvents, List.filterMap_append,
      filterMap_toldAll, hread]
    cases watcher <;> rfl

/-- A run is what is done less what is read. -/
theorem runWatched_eq_runLogged (listed : Except Failure (List Text)) :
    runWatched m source watcher listed =
      (runLogged m source watcher listed).map fun r => (r.1, r.2.filterMap Event.call?) := by
  cases listed with
  | error f => rfl
  | ok paths =>
    have hcalls : ∀ calls : List Call, (calls.map Event.told).filterMap Event.call? = calls := by
      intro calls
      rw [List.filterMap_map]
      exact List.filterMap_some
    simp only [runWatched, runLogged, filesLogged_eq]
    cases tallyFiles m source watcher 0 paths with
    | error e => rfl
    | ok outcomes =>
      simp only [Except.map, bind, Except.bind, pure, Except.pure, List.filterMap_append, filterMap_filesEvents, hcalls]

end

end LineCensus.Census
