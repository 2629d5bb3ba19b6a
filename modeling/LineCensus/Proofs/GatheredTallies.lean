import LineCensus.Tally

/-!
# However the work is split

A tally is told lines and files, and takes in other tallies. A `Gathering` is how one tally came about: which
calls led to it, and to the tallies that it took in, some of which may have been told nothing. Whatever they were,
it is the tally that was told everything itself (`Gathering.tally_eq_receiveAll`), in any order
(`receiveAll_perm`).
-/

namespace LineCensus.Tally

/-- What a tally can be told. -/
inductive Event where
  | line (verdict : Verdict)
  | file
  deriving DecidableEq, Repr

/-- The event is a line. -/
def Event.isLine : Event → Bool
  | line _ => true
  | file => false

/-- The tally after it was told of an event. -/
def receive (t : Tally) : Event → Tally
  | .line v => t.record v
  | .file => t.recordFile

/-- The tally after it was told of several events, one after the other. -/
def receiveAll (t : Tally) (events : List Event) : Tally := events.foldl receive t

/-- How a tally came about. Calls for different tallies have no effect on each other, so which of them was made
first is no part of it. -/
inductive Gathering where
  | empty
  | record (before : Gathering) (verdict : Verdict)
  | recordAll (before : Gathering) (verdicts : List Verdict)
  | recordFile (before : Gathering)
  | merge (first second : Gathering)
  deriving DecidableEq, Repr

namespace Gathering

/-- The tally that comes out. -/
def tally : Gathering → Tally
  | empty => zero
  | record g v => g.tally.record v
  | recordAll g vs => g.tally.recordAll vs
  | recordFile g => g.tally.recordFile
  | merge g h => g.tally.merge h.tally

/-- What all the tallies that had a part in it were told. -/
def events : Gathering → List Event
  | empty => []
  | record g v => g.events ++ [.line v]
  | recordAll g vs => g.events ++ vs.map .line
  | recordFile g => g.events ++ [.file]
  | merge g h => g.events ++ h.events

end Gathering

/-- To be told of an event is to take in a tally that was told of it. -/
theorem receive_eq_merge (t : Tally) (e : Event) : t.receive e = t.merge (zero.receive e) := by
  cases e with
  | line v => exact record_eq_merge t v
  | file => exact recordFile_eq_merge t

/-- Two events are told in either order. -/
theorem receive_right_comm (t : Tally) (e e' : Event) : (t.receive e).receive e' = (t.receive e').receive e := by
  rw [receive_eq_merge (t.receive e), receive_eq_merge t e, receive_eq_merge (t.receive e'), receive_eq_merge t e',
    merge_assoc, merge_assoc, merge_comm (zero.receive e)]

theorem receiveAll_append (t : Tally) (es es' : List Event) :
    t.receiveAll (es ++ es') = (t.receiveAll es).receiveAll es' :=
  List.foldl_append

/-- The order of what a tally is told has no part in it. -/
theorem receiveAll_perm {es es' : List Event} (h : es.Perm es') (t : Tally) : t.receiveAll es = t.receiveAll es' :=
  h.foldl_eq' (fun e _ e' _ s => receive_right_comm s e e') t

theorem recordAll_eq_receiveAll (t : Tally) (vs : List Verdict) : t.recordAll vs = t.receiveAll (vs.map .line) := by
  rw [receiveAll, List.foldl_map]
  rfl

/-- What a tally was told before it is taken in might as well be told afterwards. -/
theorem merge_receiveAll (s t : Tally) (es : List Event) : s.merge (t.receiveAll es) = (s.merge t).receiveAll es := by
  induction es generalizing t with
  | nil => rfl
  | cons e es ih =>
    have hstep : s.merge (t.receive e) = (s.merge t).receive e := by
      rw [receive_eq_merge t, receive_eq_merge (s.merge t), merge_assoc]
    rw [receiveAll, List.foldl_cons, ← receiveAll, ih, hstep]
    rfl

theorem total_receiveAll (t : Tally) (es : List Event) :
    (t.receiveAll es).total = t.total + es.countP Event.isLine := by
  induction es generalizing t with
  | nil => rfl
  | cons e es ih =>
    rw [receiveAll, List.foldl_cons, ← receiveAll, ih]
    cases e with
    | line v =>
      rw [receive, total_record, List.countP_cons_of_pos rfl]
      omega
    | file => rw [receive, total_recordFile, List.countP_cons_of_neg Bool.false_ne_true]

namespace Gathering

/-- What comes out is the tally that was told everything itself. -/
theorem tally_eq_receiveAll (g : Gathering) : g.tally = zero.receiveAll g.events := by
  induction g with
  | empty => rfl
  | record g v ih =>
    rw [tally, events, receiveAll_append, ← ih]
    rfl
  | recordAll g vs ih => rw [tally, events, receiveAll_append, ← ih, recordAll_eq_receiveAll]
  | recordFile g ih =>
    rw [tally, events, receiveAll_append, ← ih]
    rfl
  | merge g h ihg ihh => rw [tally, events, receiveAll_append, ← ihg, ihh, merge_receiveAll, merge_zero]

/-- **However the work is split**: a tally that took in others, which took in others in turn, is the one tally that
was told of all the events itself, in any order, and its total is the number of lines among them. -/
theorem tally_of_perm (g : Gathering) {told : List Event} (h : told.Perm g.events) :
    g.tally = zero.receiveAll told ∧ g.tally.total = told.countP Event.isLine := by
  have htally : g.tally = zero.receiveAll told := by rw [tally_eq_receiveAll, receiveAll_perm h]
  refine ⟨htally, ?_⟩
  rw [htally, total_receiveAll]
  exact Nat.zero_add _

/-- Two tallies are merged with two empty ones between them, and the result is told of a file. -/
theorem tally_of_perm_between_empty :
    let first : Gathering := .recordFile (.record .empty .block)
    let second : Gathering := .recordAll (.merge .empty .empty) [.code, .whitespace, .code]
    let g : Gathering := .recordFile (.merge second first)
    let told : List Event := [.line .code, .line .code, .line .block, .file, .file, .line .whitespace]
    told.Perm g.events ∧ g.tally = zero.receiveAll told ∧ g.tally = ⟨1, 1, 2, 2⟩ ∧ g.tally.total = 4 := by
  intro first second g told
  have hperm : told.Perm g.events := by decide
  obtain ⟨htally, htotal⟩ := tally_of_perm g hperm
  exact ⟨hperm, htally, rfl, htotal⟩

end Gathering

end LineCensus.Tally
