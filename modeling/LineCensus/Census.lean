import LineCensus.Tally
import LineCensus.Tracker
import LineCensus.Failure

/-!
# Counting the lines of many files

`Census.run` counts the lines of the files it is given. Each file is read by a tracker of its own,
so nothing is carried from one file into the next, and a file that cannot be read to its end is
skipped and counts nothing. Afterwards the tallies are added up and the skipped files reported, in
the order in which the files were given.

A `Watcher` is told about every step and may refuse each. What it is told is kept as a list of
`Call`s: all files come first, then what was skipped, and the total last. A `Sink` is a watcher that
goes by paths alone.
-/

namespace LineCensus

/-- What reading a file gives: the lines that could be read, and why no more could. -/
structure Contents where
  lines : List Text
  failure : Option Failure

/-- Is told about the steps of a run; each answer is the failure to take note. A file is known by its
place in the list and its path, so a path that is listed twice may be answered in two ways. -/
structure Watcher where
  onFile : Nat → Text → Option Failure
  onSkipped : Nat → Text → String → Option Failure
  onComplete : Tally → Option Failure

/-- Is told about the steps of a run, and answers by path. -/
structure Sink where
  onFile : Text → Option Failure
  onSkipped : Text → String → Option Failure
  onComplete : Tally → Option Failure

namespace Sink

/-- Takes note of everything. -/
def accepting : Sink := ⟨fun _ => none, fun _ _ => none, fun _ => none⟩

/-- Gives a path the same answer at every place. -/
def watcher (s : Sink) : Watcher := ⟨fun _ => s.onFile, fun _ => s.onSkipped, s.onComplete⟩

end Sink

/-- A file that was not counted. -/
structure Skipped where
  path : Text
  reason : String
  deriving DecidableEq, Repr

/-- The result of a run. -/
structure Census where
  /-- The sums over all files that were read to their end. -/
  tally : Tally
  /-- The number of files that were given. -/
  discovered : Nat
  skipped : List Skipped
  deriving DecidableEq, Repr

namespace Census

/-- What a watcher is told. -/
inductive Call where
  | file (path : Text)
  | skipped (path : Text) (reason : String)
  | complete (tally : Tally)
  deriving DecidableEq, Repr

/-- The tally of one file whose lines were read to the end. -/
def tallyLines (m : Markers) (lines : List Text) : Except Stuck Tally := do
  return (Tally.zero.recordAll (← m.classify lines)).recordFile

/-- The tally of the file at place `i`, or why it is skipped. -/
def tallyFile (m : Markers) (source : Text → Contents) (watcher : Option Watcher) (i : Nat) (path : Text) :
    Except Stuck (Except Failure Tally) :=
  match watcher.bind fun w => w.onFile i path with
  | some f => .ok (.error f)
  | none => do
    let contents := source path
    let tally ← tallyLines m contents.lines
    match contents.failure with
    | some f => return .error f
    | none => return .ok tally

/-- The outcomes of the files from place `i` on. -/
def tallyFiles (m : Markers) (source : Text → Contents) (watcher : Option Watcher) (i : Nat) :
    List Text → Except Stuck (List (Text × Except Failure Tally))
  | [] => .ok []
  | path :: rest => do
    let outcome ← tallyFile m source watcher i path
    return (path, outcome) :: (← tallyFiles m source watcher (i + 1) rest)

/-- Adds up the outcomes of the files from place `i` on, out of `n` files, and reports what was
skipped. `total` and `skipped` belong to the outcomes before. -/
def settle (watcher : Option Watcher) (n i : Nat) (total : Tally) (skipped : List Skipped) :
    List (Text × Except Failure Tally) → Except Failure Census × List Call
  | [] =>
    match watcher with
    | none => (.ok ⟨total, n, skipped⟩, [])
    | some w =>
      match w.onComplete total with
      | some f => (.error f, [.complete total])
      | none => (.ok ⟨total, n, skipped⟩, [.complete total])
  | (_, .ok tally) :: rest => settle watcher n (i + 1) (total.merge tally) skipped rest
  | (path, .error f) :: rest =>
    let reason := f.message
    match watcher with
    | none => settle watcher n (i + 1) total (skipped ++ [⟨path, reason⟩]) rest
    | some w =>
      match w.onSkipped i path reason with
      | some g => (.error g, [.skipped path reason])
      | none =>
        let (result, calls) := settle watcher n (i + 1) total (skipped ++ [⟨path, reason⟩]) rest
        (result, .skipped path reason :: calls)

/-- The failure of a run whose files could not be listed. -/
def listingFailed (f : Failure) : Failure := .collectionFailed "could not enumerate input files" (some f)

/-- Counts the lines of the listed files, and gives what the watcher was told. -/
def runWatched (m : Markers) (source : Text → Contents) (watcher : Option Watcher)
    (listed : Except Failure (List Text)) : Except Stuck (Except Failure Census × List Call) :=
  match listed with
  | .error f => .ok (.error (listingFailed f), [])
  | .ok paths => do
    let outcomes ← tallyFiles m source watcher 0 paths
    let (result, calls) := settle watcher paths.length 0 .zero [] outcomes
    return (result, (if watcher.isSome then paths.map .file else []) ++ calls)

/-- Counts the lines of the listed files, and gives what the sink was told. -/
def run (m : Markers) (source : Text → Contents) (sink : Option Sink) (listed : Except Failure (List Text)) :
    Except Stuck (Except Failure Census × List Call) :=
  runWatched m source (sink.map Sink.watcher) listed

end Census

end LineCensus
