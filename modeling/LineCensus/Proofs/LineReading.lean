import LineCensus.Proofs.MarkerSteps
import LineCensus.Reading

/-!
# A tracker reads every line plainly

What a step does at a `Progress.Ready` place agrees with the plain reading (`Handles.reads`): less is left
to be read, and what is left reads as the whole did, except that program text passed over makes the line
code. So the loop over markers gives the plain reading of the line (`run_eq_read`), a line never gets stuck,
and the verdicts on a file are its plain reading (`Markers.classify_eq_file`).
-/

namespace LineCensus

namespace Reading

/-- Where a block opens, the text behind is what follows its opening. -/
theorem opening?_of_firstOpening? {m : Markers} {t : Text} {k i : Nat} (h : m.firstOpening? 0 t = some (k, i)) :
    ∃ b s w, m.block[i]? = some b ∧ t = s ++ (b.opening ++ w) ∧ k = Text.byteSize s ∧
      opening? m t = some (k, i, Text.trimIndent w) := by
  obtain ⟨s, u, b, rfl, hk, hb, ⟨w, rfl⟩, -⟩ := Markers.firstOpening?_spec h
  rw [Nat.zero_add] at hk
  refine ⟨b, s, w, hb, rfl, hk, ?_⟩
  simp [opening?, h, hk, hb, Text.dropBytes?_append]

theorem opening?_of_none {m : Markers} {t : Text} (h : m.firstOpening? 0 t = none) : opening? m t = none := by
  simp [opening?, h]

end Reading

namespace Progress

variable {m : Markers} {p : Progress}

/-- The plain reading of what is left of a line. -/
def reading (hm : m.Progressing) (p : Progress) : Verdict × Carry :=
  Reading.read m hm p.carry.open? p.cursor.rest

/-- A bound on the markers still to be handled. -/
def weight (m : Markers) (p : Progress) : Nat := Reading.weight m p.carry.open? p.cursor.rest

/-- The result of one step agrees with the plain reading: a settled line reads so, and otherwise the
line reads as what is left of it, or as code if `code` was passed. -/
inductive StepReads (hm : m.Progressing) (p : Progress) : Except Stuck Move → Prop where
  | settled {v : Verdict} {next : Carry} (cache : StartCache) (reads : p.reading hm = (v, next)) :
      StepReads hm p (.ok (.settled v next cache))
  | resume {q : Progress} (code : Bool) (ready : q.Ready m) (seen : q.codeSeen = (p.codeSeen || code))
      (reaches : p.cursor.Reaches q.cursor) (less : q.weight m < p.weight m)
      (reads : p.reading hm = (if code then .code else (q.reading hm).1, (q.reading hm).2)) :
      StepReads hm p (.ok (.resume q))

theorem reading_inside (hm : m.Progressing) {pair : Nat} (h : p.carry = .inBlock pair) :
    p.reading hm = Reading.read m hm (some pair) p.cursor.rest ∧
      p.weight m = Reading.weight m (some pair) p.cursor.rest := by
  rw [reading, weight, h]
  exact ⟨rfl, rfl⟩

theorem reading_outside (hm : m.Progressing) (h : p.carry.open? = none) :
    p.reading hm = Reading.read m hm none p.cursor.rest ∧ p.weight m = Reading.weight m none p.cursor.rest := by
  rw [reading, weight, h]
  exact ⟨rfl, rfl⟩

/-- Behind the end of its block a text is read outside of blocks. -/
theorem Closes.afterClosing? {pair : Nat} {b : BlockPair} {s w : Text} (h : Closes m p pair b s w) :
    Reading.afterClosing? m pair p.cursor.rest = some (Text.trimIndent w) := by
  simp [Reading.afterClosing?, h.pair_eq, Reading.after?, h.found]

/-- Behind the opening of a block a text is read inside of it. -/
theorem Opens.opening? {pair : Nat} {b : BlockPair} {s w : Text} {cache : StartCache}
    (h : Opens m p pair b s w cache) :
    Reading.opening? m p.cursor.rest = some (Text.byteSize s, pair, Text.trimIndent w) := by
  have hdrop : Text.dropBytes? (Text.byteSize s) p.cursor.rest = some (b.opening ++ w) := by
    rw [h.split, List.append_assoc, Text.dropBytes?_append]
  simp [Reading.opening?, h.found, hdrop, h.pair_eq]

/-- What a step does agrees with the plain reading. -/
theorem Handles.reads (hm : m.Progressing) (h : p.Ready m) {move : Move} (hh : Handles m p move) :
    StepReads hm p (.ok move) := by
  have hready : ∀ q, move = .resume q → q.Ready m := fun q hq => Handles.ready h (hq ▸ hh)
  have hreaches : ∀ q, move = .resume q → p.cursor.Reaches q.cursor := fun q hq => Handles.reaches (hq ▸ hh)
  cases hh with
  | @unclosed pair b inside pair_eq absent =>
    refine .settled _ ?_
    have ha : Reading.afterClosing? m pair p.cursor.rest = none := by
      simp [Reading.afterClosing?, pair_eq, Reading.after?, absent]
    rw [(reading_inside hm inside).1, Reading.read_some, ha, inside]
  | closedLast closes blank =>
    refine .settled _ ?_
    rw [(reading_inside hm closes.inside).1, Reading.read_some, closes.afterClosing?]
    simp only [blank, if_true]
  | closed closes left =>
    obtain ⟨hread, hweight⟩ := reading_inside hm closes.inside
    refine .resume false (hready _ rfl) (by simp) (hreaches _ rfl) ?_ ?_
    · rw [hweight, weight, Cursor.behind_rest]
      exact Reading.weight_afterClosing closes.afterClosing? left
    · rw [hread, Reading.read_some, closes.afterClosing?, reading, Cursor.behind_rest]
      simp only [left, if_false]
      rfl
  | comment outside starts =>
    refine .settled _ ?_
    rw [(reading_outside hm outside).1, Reading.read_comment m hm starts]
    split <;> rfl
  | openedLast opens blank =>
    refine .settled _ ?_
    rw [(reading_outside hm opens.outside).1, Reading.read_none, opens.plain, opens.opening?]
    simp [blank]
  | @opened pair b s w cache opens left =>
    obtain ⟨hread, hweight⟩ := reading_outside hm opens.outside
    refine .resume (decide (0 < Text.byteSize s)) (hready _ rfl) rfl (hreaches _ rfl) ?_ ?_
    · rw [hweight, weight, Cursor.behind_rest]
      exact Reading.weight_opening hm opens.opening? left
    · rw [hread, Reading.read_none, opens.plain, opens.opening?, reading, Cursor.behind_rest]
      simp only [left, if_false, Bool.false_eq_true, decide_eq_true_eq]
      rfl
  | code outside plain absent =>
    refine .settled _ ?_
    rw [(reading_outside hm outside).1, Reading.read_none, plain, Reading.opening?_of_none absent]
    simp only [Bool.false_eq_true, if_false]

/-- Handling one marker agrees with the plain reading. -/
theorem step_reads (hm : m.Progressing) (h : p.Ready m) : StepReads hm p (step m p) := by
  obtain ⟨move, hs, hh⟩ := step_handles h
  rw [hs]
  exact hh.reads hm h

/-- With enough steps at its disposal a line settles on its plain reading, or on code if that was
passed before. -/
theorem run_eq_read (hm : m.Progressing) {fuel : Nat} (h : p.Ready m) (hf : p.weight m < fuel) :
    ∃ cache, run m fuel p =
      .ok (if p.codeSeen then .code else (p.reading hm).1, (p.reading hm).2, cache) := by
  induction fuel generalizing p with
  | zero => omega
  | succ fuel ih =>
    have hs := step_reads hm h
    rw [run]
    cases hr : step m p with
    | error e =>
      rw [hr] at hs
      cases hs
    | ok move =>
      rw [hr] at hs
      cases hs with
      | settled cache reads => exact ⟨cache, by rw [reads]⟩
      | resume code ready seen reaches less reads =>
        obtain ⟨cache, he⟩ := ih ready (by omega)
        refine ⟨cache, ?_⟩
        simp only [he, seen, reads]
        cases p.codeSeen <;> cases code <;> rfl

end Progress

namespace Tracker

variable {m : Markers}

theorem resolve_eq_read (hm : m.Progressing) {t : Tracker} (ht : t.Configured m) {line : Text}
    (htrim : Text.trimIndent line = line) (hline : line ≠ []) :
    ∃ cache, t.resolve m line = .ok ((Reading.read m hm t.carry.open? line).1,
      ⟨(Reading.read m hm t.carry.open? line).2, cache⟩) := by
  have hf : (t.enter m line).weight m < 2 * line.length + 2 := by
    simp only [Progress.weight, enter, Cursor.start, Reading.weight]
    split
    · omega
    · split
      · omega
      · split <;> omega
  obtain ⟨cache, he⟩ := Progress.run_eq_read hm (ready_enter ht htrim hline) hf
  simp only [enter] at he
  exact ⟨cache, by simp only [resolve, he]; rfl⟩

/-- The verdict on a line and the state behind it are its plain reading, if an open block is a
configured one. -/
theorem feed_eq_line (hm : m.Progressing) {t : Tracker} (ht : t.Configured m) (raw : Text) :
    ∃ cache, t.feed m raw = .ok ((Reading.line m hm t.carry raw).1,
      ⟨(Reading.line m hm t.carry raw).2, cache⟩) := by
  have htrim := Text.trimIndent_trimIndent raw
  obtain ⟨carry, cache⟩ := t
  cases carry with
  | idle v =>
    simp only [feed, Reading.line]
    split
    · exact ⟨cache, rfl⟩
    · exact resolve_eq_read hm ht htrim ‹_›
  | continuing =>
    refine ⟨cache, ?_⟩
    simp only [feed, continued, Reading.line]
    split
    · rfl
    · split <;> rfl
  | inBlock pair =>
    simp only [feed, Reading.line]
    split
    · exact ⟨cache, rfl⟩
    · exact resolve_eq_read hm ht htrim ‹_›

/-- The verdicts on the lines of a file are its plain reading. -/
theorem feedAll_eq_file (hm : m.Progressing) {t : Tracker} (ht : t.Configured m) (lines : List Text) :
    t.feedAll m lines = .ok (Reading.file m hm t.carry lines) := by
  induction lines generalizing t with
  | nil => rfl
  | cons raw lines ih =>
    obtain ⟨cache, he⟩ := feed_eq_line hm ht raw
    have hrest := ih (configured_feed ht he)
    rw [feedAll, he]
    simp only [bind, Except.bind, hrest]
    rfl

/-- **Plain reading**: in every state that calls lead to, the verdict on a line and the state behind
it are those of the recursive reading of its text. -/
theorem feed_reachable (hm : m.Progressing) {t : Tracker} (ht : t.Reachable m) (raw : Text) :
    ∃ cache, t.feed m raw = .ok ((Reading.line m hm t.carry raw).1,
      ⟨(Reading.line m hm t.carry raw).2, cache⟩) :=
  feed_eq_line hm ht.configured raw

/-- Two openings begin alike, and one pair has no closing text. -/
def halfEmpty : Markers :=
  ⟨["//".toList], [⟨"/*".toList, "*/".toList⟩, ⟨"/**".toList, "/".toList⟩, ⟨"<".toList, []⟩], ["\\".toList]⟩

/-- Behind the line `a/** b`. -/
def opened : Tracker := ⟨.inBlock 0, ⟨[.at 1, .at 1, .absent]⟩⟩

/-- A comment is closed, and an opening that nothing has to close begins another one. -/
theorem line_half_empty : ∃ hm : halfEmpty.Progressing, opened.Reachable halfEmpty ∧
    Reading.line halfEmpty hm opened.carry "\tx */< y // z \\".toList = (.code, .continuing) := by
  have hm : halfEmpty.Progressing := by decide
  have ht : opened.Reachable halfEmpty :=
    .feed .start (show start.feed halfEmpty "a/** b".toList = .ok (.code, opened) by decide)
  have hf : opened.feed halfEmpty "\tx */< y // z \\".toList =
      .ok (.code, ⟨.continuing, ⟨[.absent, .absent, .absent]⟩⟩) := by decide
  obtain ⟨cache, h⟩ := feed_reachable hm ht "\tx */< y // z \\".toList
  rw [hf] at h
  simp only [Except.ok.injEq, Prod.mk.injEq, Tracker.mk.injEq] at h
  exact ⟨hm, ht, Prod.ext h.1.symm h.2.1.symm⟩

end Tracker

theorem Markers.classify_eq_file {m : Markers} (hm : m.Progressing) (lines : List Text) :
    m.classify lines = .ok (Reading.file m hm (.idle .code) lines) :=
  Tracker.feedAll_eq_file hm (by rintro _ ⟨⟩) lines

end LineCensus
