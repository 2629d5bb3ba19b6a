import LineCensus.Verdict
import LineCensus.Number.Binary64

/-!
# Counting lines and files

A `Tally` counts blank lines, comment lines, code lines and completed files. It grows by one line
(`record`), by one file (`recordFile`) or by another tally (`merge`). Merging is commutative and
associative with `Tally.zero` as its unit, and recording is merging with a tally of one
(`record_eq_merge`), so how lines are distributed over tallies does not matter.
-/

namespace LineCensus

/-- Counters of blank lines, comment lines, code lines and completed files. -/
@[ext] structure Tally where
  blank : Nat
  comment : Nat
  code : Nat
  files : Nat
  deriving DecidableEq, Repr

namespace Tally

/-- Nothing counted yet. -/
def zero : Tally := ⟨0, 0, 0, 0⟩

/-- The counter of a bucket. -/
def count (t : Tally) : Bucket → Nat
  | .blank => t.blank
  | .comment => t.comment
  | .code => t.code

/-- The number of lines. -/
def total (t : Tally) : Nat := t.blank + t.comment + t.code

/-- Counts one line. -/
def record (t : Tally) (v : Verdict) : Tally :=
  match v.bucket with
  | .blank => { t with blank := t.blank + 1 }
  | .comment => { t with comment := t.comment + 1 }
  | .code => { t with code := t.code + 1 }

/-- Counts several lines. -/
def recordAll (t : Tally) (vs : List Verdict) : Tally := vs.foldl record t

/-- Counts one completed file. -/
def recordFile (t : Tally) : Tally := { t with files := t.files + 1 }

/-- The sums of two tallies. -/
def merge (s t : Tally) : Tally :=
  ⟨s.blank + t.blank, s.comment + t.comment, s.code + t.code, s.files + t.files⟩

theorem merge_comm (s t : Tally) : s.merge t = t.merge s := by
  simp [merge, Nat.add_comm]

theorem merge_assoc (s t u : Tally) : (s.merge t).merge u = s.merge (t.merge u) := by
  simp [merge, Nat.add_assoc]

@[simp] theorem zero_merge (t : Tally) : zero.merge t = t := by
  simp [merge, zero]

@[simp] theorem merge_zero (t : Tally) : t.merge zero = t := by
  simp [merge, zero]

theorem record_eq_merge (t : Tally) (v : Verdict) : t.record v = t.merge (zero.record v) := by
  cases v <;> simp [record, merge, zero, Verdict.bucket]

theorem recordFile_eq_merge (t : Tally) : t.recordFile = t.merge zero.recordFile := by
  simp [recordFile, merge, zero]

@[simp] theorem total_record (t : Tally) (v : Verdict) : (t.record v).total = t.total + 1 := by
  cases v <;> simp [record, total, Verdict.bucket] <;> omega

@[simp] theorem total_merge (s t : Tally) : (s.merge t).total = s.total + t.total := by
  simp [merge, total]; omega

@[simp] theorem count_zero (b : Bucket) : zero.count b = 0 := by
  cases b <;> rfl

@[simp] theorem count_merge (s t : Tally) (b : Bucket) : (s.merge t).count b = s.count b + t.count b := by
  cases b <;> rfl

@[simp] theorem files_merge (s t : Tally) : (s.merge t).files = s.files + t.files := rfl

@[simp] theorem count_recordFile (t : Tally) (b : Bucket) : t.recordFile.count b = t.count b := by
  cases b <;> rfl

@[simp] theorem files_recordFile (t : Tally) : t.recordFile.files = t.files + 1 := rfl

@[simp] theorem total_recordFile (t : Tally) : t.recordFile.total = t.total := rfl

theorem count_record (t : Tally) (v : Verdict) (b : Bucket) :
    (t.record v).count b = t.count b + if v.bucket = b then 1 else 0 := by
  cases v <;> cases b <;> simp [record, count, Verdict.bucket]

@[simp] theorem files_record (t : Tally) (v : Verdict) : (t.record v).files = t.files := by
  cases v <;> rfl

/-- Counting several lines adds, to each counter, the number of lines that fall under it. -/
theorem count_recordAll (t : Tally) (vs : List Verdict) (b : Bucket) :
    (t.recordAll vs).count b = t.count b + vs.countP fun v => v.bucket = b := by
  induction vs generalizing t with
  | nil => rfl
  | cons v vs ih =>
    rw [recordAll, List.foldl_cons, ← recordAll, ih, count_record, List.countP_cons]
    simp only [decide_eq_true_eq]
    omega

@[simp] theorem files_recordAll (t : Tally) (vs : List Verdict) : (t.recordAll vs).files = t.files := by
  induction vs generalizing t with
  | nil => rfl
  | cons v vs ih => rw [recordAll, List.foldl_cons, ← recordAll, ih, files_record]

@[simp] theorem total_recordAll (t : Tally) (vs : List Verdict) : (t.recordAll vs).total = t.total + vs.length := by
  induction vs generalizing t with
  | nil => rfl
  | cons v vs ih =>
    rw [recordAll, List.foldl_cons, ← recordAll, ih, total_record, List.length_cons]
    omega

/-- The percentage of all lines that fall under a bucket; an empty tally divides by one. The
quotient is rounded before it is multiplied by a hundred. -/
def share (t : Tally) (b : Bucket) : Binary64 :=
  Binary64.ofNat (t.count b) / Binary64.ofNat (max t.total 1) * Binary64.ofNat 100

end Tally

end LineCensus
