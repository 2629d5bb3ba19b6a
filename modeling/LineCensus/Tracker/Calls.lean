import LineCensus.Tracker

/-!
# Calls of a tracker

A tracker is used by `Call`s: it is fed the lines of a file one after the other, and may be reset. After
each call its `Answer` can be seen. `callAll` makes calls in order and stops where a line gets stuck.
-/

namespace LineCensus.Tracker

/-- One use of a tracker. -/
inductive Call where
  | feed (raw : Text)
  | reset
  deriving DecidableEq, Repr

/-- What can be seen after a call. -/
structure Answer where
  /-- The verdict on the line, if one was fed. -/
  verdict : Option Verdict
  current : Verdict
  isInBlock : Bool
  awaited : Option Text
  deriving DecidableEq, Repr

/-- What can be seen of a tracker after a call that gave this verdict. -/
def answer (m : Markers) (verdict : Option Verdict) (t : Tracker) : Answer :=
  ⟨verdict, t.current, t.isInBlock, t.awaited? m⟩

/-- The answer to a call, and the tracker for the next one. -/
def call (m : Markers) (t : Tracker) : Call → Except Stuck (Answer × Tracker)
  | .feed raw =>
    match t.feed m raw with
    | .error e => .error e
    | .ok (v, t) => .ok (answer m (some v) t, t)
  | .reset => .ok (answer m none t.reset, t.reset)

theorem call_feed {m : Markers} {t t' : Tracker} {raw : Text} {v : Verdict} (h : t.feed m raw = .ok (v, t')) :
    t.call m (.feed raw) = .ok (answer m (some v) t', t') := by
  simp only [call, h]

/-- The answers to calls in order, and the tracker behind them. -/
def callAll (m : Markers) (t : Tracker) : List Call → Except Stuck (List Answer × Tracker)
  | [] => .ok ([], t)
  | c :: rest =>
    match call m t c with
    | .error e => .error e
    | .ok (a, t) =>
      match callAll m t rest with
      | .error e => .error e
      | .ok (as, t) => .ok (a :: as, t)

end LineCensus.Tracker
