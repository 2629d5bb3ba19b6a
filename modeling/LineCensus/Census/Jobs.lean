import LineCensus.Census

/-!
# Counting files side by side

The files of a census may be read side by side. Each is a `Job` of its own, which announces the file,
reads one line after the other and ends with an outcome. In `Jobs.Step` any one job makes its next
step, so the states that are `Jobs.Reached` are those of all interleavings. Once every job has ended
the outcomes are collected by place and settled (`Jobs.Finishes`), as in `Census.runWatched`.
-/

namespace LineCensus.Census

/-- How far the job of one file has come. -/
inductive Job where
  /-- The file is not announced yet. -/
  | waiting
  /-- The file is announced, and these lines of it are still to be read. -/
  | reading (tracker : Tracker) (tally : Tally) (rest : List Text)
  /-- The job has ended. -/
  | ended (outcome : Except Failure Tally)

/-- One step of the job of the file at place `i`. -/
inductive Job.Step (m : Markers) (source : Text → Contents) (watcher : Option Watcher) (i : Nat) (path : Text) :
    Job → Job → Prop where
  /-- The watcher refuses the announced file. -/
  | refuse {f : Failure} (h : (watcher.bind fun w => w.onFile i path) = some f) :
      Step m source watcher i path .waiting (.ended (.error f))
  /-- The file is announced and opened. -/
  | announce (h : (watcher.bind fun w => w.onFile i path) = none) :
      Step m source watcher i path .waiting (.reading .start .zero (source path).lines)
  /-- One line is read and counted. -/
  | line {t t' : Tracker} {tally : Tally} {l : Text} {rest : List Text} {v : Verdict}
      (h : t.feed m l = .ok (v, t')) :
      Step m source watcher i path (.reading t tally (l :: rest)) (.reading t' (tally.record v) rest)
  /-- No more of the file can be read. -/
  | fail {t : Tracker} {tally : Tally} {f : Failure} (h : (source path).failure = some f) :
      Step m source watcher i path (.reading t tally []) (.ended (.error f))
  /-- The file was read to its end. -/
  | complete {t : Tracker} {tally : Tally} (h : (source path).failure = none) :
      Step m source watcher i path (.reading t tally []) (.ended (.ok tally.recordFile))

/-- The jobs of all files by place, and the files announced so far with their places. -/
structure Jobs where
  jobs : List (Text × Job)
  announced : List (Text × Nat)

/-- The call announces a file. -/
def Call.isFile : Call → Bool
  | file _ => true
  | _ => false

namespace Jobs

/-- Before the first step. -/
def start (paths : List Text) : Jobs := ⟨paths.map fun path => (path, .waiting), []⟩

/-- One step of one of the jobs. -/
inductive Step (m : Markers) (source : Text → Contents) (watcher : Option Watcher) : Jobs → Jobs → Prop where
  | first {s : Jobs} {i : Nat} {path : Text} {job : Job} (hi : s.jobs[i]? = some (path, .waiting))
      (h : Job.Step m source watcher i path .waiting job) :
      Step m source watcher s ⟨s.jobs.set i (path, job), s.announced ++ [(path, i)]⟩
  | next {s : Jobs} {i : Nat} {path : Text} {job job' : Job} (hi : s.jobs[i]? = some (path, job))
      (hjob : job ≠ .waiting) (h : Job.Step m source watcher i path job job') :
      Step m source watcher s ⟨s.jobs.set i (path, job'), s.announced⟩

/-- The states of all interleavings of the jobs of `paths`. -/
inductive Reached (m : Markers) (source : Text → Contents) (watcher : Option Watcher) (paths : List Text) :
    Jobs → Prop where
  | start : Reached m source watcher paths (start paths)
  | step {s s' : Jobs} (h : Reached m source watcher paths s) (hs : Step m source watcher s s') :
      Reached m source watcher paths s'

/-- The outcomes by place, if every job has ended. -/
def outcomes? : List (Text × Job) → Option (List (Text × Except Failure Tally))
  | [] => some []
  | (path, .ended outcome) :: rest => (outcomes? rest).map ((path, outcome) :: ·)
  | _ :: _ => none

/-- The listed files with their places. -/
def entries : Except Failure (List Text) → List (Text × Nat)
  | .error _ => []
  | .ok paths => paths.zipIdx

/-- The calls that announce files. -/
def fileCalls (watcher : Option Watcher) (files : List (Text × Nat)) : List Call :=
  if watcher.isSome then files.map fun e => .file e.1 else []

/-- A complete interleaving announces files in some order and ends with a result, and the watcher was
told these calls. -/
inductive Finishes (m : Markers) (source : Text → Contents) (watcher : Option Watcher) :
    Except Failure (List Text) → List (Text × Nat) → Except Failure Census → List Call → Prop where
  | unlisted (f : Failure) : Finishes m source watcher (.error f) [] (.error (listingFailed f)) []
  | listed {paths : List Text} {s : Jobs} {outcomes : List (Text × Except Failure Tally)}
      (reached : Reached m source watcher paths s) (ended : outcomes? s.jobs = some outcomes) :
      Finishes m source watcher (.ok paths) s.announced (settle watcher paths.length 0 .zero [] outcomes).1
        (fileCalls watcher s.announced ++ (settle watcher paths.length 0 .zero [] outcomes).2)

end Jobs

end LineCensus.Census
