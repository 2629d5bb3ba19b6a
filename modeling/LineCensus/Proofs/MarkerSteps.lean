import LineCensus.Proofs.KnownOpenings
import LineCensus.Tracker

/-!
# What handling one marker does

`Progress.Handles` says once what a step can do: close the open block or miss its end, meet a line
comment, enter a block, or meet no marker at all. `step_handles` gives it for every place of a line that
is `Progress.Ready`, so a ready line is never stuck, and what is left of it is ready again
(`Handles.ready`). `Progress.Resumes` puts any number of steps together behind which text is left, with
no bound on their number, and `Tracker.Decides` says once how a line comes to its verdict. So an open block is
always that of a configured pair (`Tracker.Reachable.configured`), whatever the markers are.
-/

namespace LineCensus

/-- The pair whose block is open. -/
def Carry.open? : Carry → Option Nat
  | inBlock pair => some pair
  | _ => none

theorem Carry.open?_eq_some {carry : Carry} {pair : Nat} (h : carry.open? = some pair) : carry = .inBlock pair := by
  unfold open? at h
  split at h <;> cases h
  rfl

namespace Cursor

/-- The place behind a front of the text, and behind the indentation there. -/
def behind (c : Cursor) (front rest : Text) : Cursor := skipIndent ⟨c.offset + Text.byteSize front, rest⟩

theorem behind_rest (c : Cursor) (front rest : Text) : (c.behind front rest).rest = Text.trimIndent rest :=
  skipIndent_rest _

theorem reaches_behind {c : Cursor} {front rest : Text} (h : c.rest = front ++ rest) :
    c.Reaches (c.behind front rest) :=
  Reaches.trans ⟨front, h, rfl⟩ (reaches_skipIndent _)

theorem Reaches.offset_le {c d : Cursor} (h : c.Reaches d) : c.offset ≤ d.offset := by
  obtain ⟨s, -, ho⟩ := h
  omega

theorem add_le_behind (c : Cursor) (front rest : Text) :
    c.offset + Text.byteSize front ≤ (c.behind front rest).offset :=
  (reaches_skipIndent ⟨c.offset + Text.byteSize front, rest⟩).offset_le

theorem Reaches.on {c d : Cursor} {line : Text} (h : c.Reaches d) (hc : c.On line) : d.On line := by
  obtain ⟨s, hs, ho⟩ := h
  obtain ⟨s', hs', ho'⟩ := hc
  exact ⟨s' ++ s, by rw [hs', hs, List.append_assoc], by rw [ho, ho', Text.byteSize_append]⟩

end Cursor

/-- The carried state behind a step. -/
def Move.carry : Move → Carry
  | settled _ carry _ => carry
  | resume p => p.carry

namespace Progress

variable {m : Markers} {p q : Progress}

/-- Between two markers of a line: what is known about openings is right at the cursor, the cursor
stands at a character that is no indentation, and an open block is a configured one. -/
structure Ready (m : Markers) (p : Progress) : Prop where
  knows : p.cache.Knows m p.cursor
  trimmed : Text.trimIndent p.cursor.rest = p.cursor.rest
  left : p.cursor.rest ≠ []
  configured : ∀ pair, p.carry = .inBlock pair → pair < m.block.length

/-- The block of `pair` is open and ends behind `s`, in front of `w`. -/
structure Closes (m : Markers) (p : Progress) (pair : Nat) (b : BlockPair) (s w : Text) : Prop where
  inside : p.carry = .inBlock pair
  pair_eq : m.block[pair]? = some b
  found : Text.occurrence? b.closing 0 p.cursor.rest = some (Text.byteSize s, b.closing ++ w)
  split : p.cursor.rest = s ++ b.closing ++ w

/-- No block is open, no line comment begins, and the first block to open is that of `pair`, behind `s`
and in front of `w`; `cache` is what is known then. -/
structure Opens (m : Markers) (p : Progress) (pair : Nat) (b : BlockPair) (s w : Text) (cache : StartCache) :
    Prop where
  outside : p.carry.open? = none
  plain : m.startsComment p.cursor.rest = false
  pair_eq : m.block[pair]? = some b
  found : m.firstOpening? 0 p.cursor.rest = some (Text.byteSize s, pair)
  split : p.cursor.rest = s ++ b.opening ++ w
  knows : cache.Knows m p.cursor

/-- What a step does at a ready place. -/
inductive Handles (m : Markers) (p : Progress) : Move → Prop where
  /-- The open block does not end on this line. -/
  | unclosed {pair : Nat} {b : BlockPair} (inside : p.carry = .inBlock pair) (pair_eq : m.block[pair]? = some b)
      (absent : Text.occurrence? b.closing 0 p.cursor.rest = none) :
      Handles m p (.settled .block p.carry p.cache)
  | closedLast {pair : Nat} {b : BlockPair} {s w : Text} (closes : Closes m p pair b s w)
      (blank : Text.trimIndent w = []) : Handles m p (.settled .comment (.idle .comment) p.cache)
  | closed {pair : Nat} {b : BlockPair} {s w : Text} (closes : Closes m p pair b s w)
      (left : Text.trimIndent w ≠ []) :
      Handles m p (.resume { p with carry := .idle .comment, cursor := p.cursor.behind (s ++ b.closing) w })
  | comment (outside : p.carry.open? = none) (starts : m.startsComment p.cursor.rest = true) :
      Handles m p (.settled (if m.continues p.cursor.rest then .continuing else .comment)
        (if m.continues p.cursor.rest then .continuing else .idle .comment) p.cache)
  | openedLast {pair : Nat} {b : BlockPair} {s w : Text} {cache : StartCache} (opens : Opens m p pair b s w cache)
      (blank : Text.trimIndent w = []) :
      Handles m p (.settled (if 0 < Text.byteSize s then .code else .block) (.inBlock pair) cache)
  | opened {pair : Nat} {b : BlockPair} {s w : Text} {cache : StartCache} (opens : Opens m p pair b s w cache)
      (left : Text.trimIndent w ≠ []) :
      Handles m p (.resume ⟨.inBlock pair, cache, p.cursor.behind (s ++ b.opening) w,
        p.codeSeen || decide (0 < Text.byteSize s)⟩)
  /-- No marker is left that could change the line. -/
  | code {cache : StartCache} (outside : p.carry.open? = none) (plain : m.startsComment p.cursor.rest = false)
      (absent : m.firstOpening? 0 p.cursor.rest = none) :
      Handles m p (.settled .code
        (if m.containsComment p.cursor.rest && m.continues p.cursor.rest then .continuing else .idle .code) cache)

theorem closeBlock_handles (h : p.Ready m) {pair : Nat} (inside : p.carry = .inBlock pair) :
    ∃ move, closeBlock m p pair = .ok move ∧ Handles m p move := by
  obtain ⟨b, hb⟩ : ∃ b, m.block[pair]? = some b := ⟨_, List.getElem?_eq_getElem (h.configured pair inside)⟩
  simp only [closeBlock, hb]
  rw [Text.occurrence?_eq_zero_map]
  cases ho : Text.occurrence? b.closing 0 p.cursor.rest with
  | none => exact ⟨_, rfl, .unclosed inside hb ho⟩
  | some found =>
    obtain ⟨k, u⟩ := found
    obtain ⟨s, hs, rfl, ⟨w, rfl⟩, -⟩ := Text.occurrence?_spec ho
    rw [Nat.zero_add] at ho
    rw [← List.append_assoc] at hs
    have closes : Closes m p pair b s w := ⟨inside, hb, ho, hs⟩
    have hd := Cursor.advance?_of_append hs
    simp only [Option.map_some, Nat.zero_add, Nat.add_sub_cancel, ← Text.byteSize_append, hd]
    split
    · rename_i hblank
      exact ⟨_, rfl, .closedLast closes (by rwa [Cursor.skipIndent_rest] at hblank)⟩
    · rename_i hleft
      exact ⟨_, rfl, .closed closes (by rwa [Cursor.skipIndent_rest] at hleft)⟩

theorem openBlock_handles {pair : Nat} {b : BlockPair} {s w : Text} {cache : StartCache}
    (opens : Opens m p pair b s w cache) :
    ∃ move, openBlock m { p with cache } (Text.byteSize s + p.cursor.offset) pair = .ok move ∧ Handles m p move := by
  have hd := Cursor.advance?_of_append opens.split
  have hlt : (p.cursor.offset < Text.byteSize s + p.cursor.offset) = (0 < Text.byteSize s) :=
    propext (by omega)
  simp only [openBlock, opens.pair_eq, Nat.add_sub_cancel, ← Text.byteSize_append, hd, hlt]
  split
  · rename_i hblank
    rw [Cursor.skipIndent_rest] at hblank
    simp only [decide_eq_true_eq]
    exact ⟨_, rfl, .openedLast opens hblank⟩
  · rename_i hleft
    exact ⟨_, rfl, .opened opens (by rwa [Cursor.skipIndent_rest] at hleft)⟩

theorem openSegment_handles (h : p.Ready m) (outside : p.carry.open? = none) :
    ∃ move, openSegment m p = .ok move ∧ Handles m p move := by
  unfold openSegment
  simp only
  split
  · rename_i hstarts
    refine ⟨_, rfl, ?_⟩
    have hcomment := Handles.comment outside hstarts
    split <;> simpa [*] using hcomment
  · rename_i hplain
    rw [Bool.not_eq_true] at hplain
    obtain ⟨cache, he, hknows⟩ := StartCache.earliest_eq h.knows
    rw [he, Markers.firstOpening?_eq_zero_map]
    cases hf : m.firstOpening? 0 p.cursor.rest with
    | none => exact ⟨_, rfl, .code outside hplain hf⟩
    | some found =>
      obtain ⟨k, pair⟩ := found
      obtain ⟨s, u, b, hs, rfl, hb, ⟨w, rfl⟩, -⟩ := Markers.firstOpening?_spec hf
      rw [Nat.zero_add] at hf
      rw [← List.append_assoc] at hs
      rw [Nat.zero_add]
      exact openBlock_handles ⟨outside, hplain, hb, hf, hs, hknows⟩

/-- A step at a ready place is never stuck, and does one of these things. -/
theorem step_handles (h : p.Ready m) : ∃ move, step m p = .ok move ∧ Handles m p move := by
  unfold step
  split
  · exact closeBlock_handles h ‹_›
  · rename_i hc
    refine openSegment_handles h ?_
    unfold Carry.open?
    split
    · exact absurd ‹_› (hc _)
    · rfl

theorem handles_of_step (h : p.Ready m) {move : Move} (hs : step m p = .ok move) : Handles m p move := by
  obtain ⟨move', hs', hh⟩ := step_handles h
  cases hs.symm.trans hs'
  exact hh

namespace Handles

/-- A step moves the cursor on. -/
theorem reaches (hq : Handles m p (.resume q)) : p.cursor.Reaches q.cursor := by
  cases hq with
  | closed closes _ => exact Cursor.reaches_behind closes.split
  | opened opens _ => exact Cursor.reaches_behind opens.split

/-- An open block behind a step is that of a configured pair. -/
theorem configured (h : p.Ready m) {move : Move} (hh : Handles m p move) :
    ∀ pair, move.carry = .inBlock pair → pair < m.block.length := by
  have hlt : ∀ {i b}, m.block[i]? = some b → i < m.block.length := fun hi => (List.getElem?_eq_some_iff.1 hi).1
  cases hh with
  | unclosed _ _ _ => exact h.configured
  | closedLast _ _ => rintro _ ⟨⟩
  | closed _ _ => rintro _ ⟨⟩
  | comment _ _ =>
    simp only [Move.carry]
    split <;> rintro _ ⟨⟩
  | openedLast opens _ =>
    rintro _ ⟨⟩
    exact hlt opens.pair_eq
  | opened opens _ =>
    rintro _ ⟨⟩
    exact hlt opens.pair_eq
  | code _ _ _ =>
    simp only [Move.carry]
    split <;> rintro _ ⟨⟩

/-- What is left behind a step is ready again. -/
theorem ready (h : p.Ready m) (hq : Handles m p (.resume q)) : q.Ready m := by
  have hconfigured := hq.configured h
  cases hq with
  | closed closes left =>
    refine ⟨h.knows.mono (Cursor.reaches_behind closes.split), ?_, ?_, hconfigured⟩
    · rw [Cursor.behind_rest, Text.trimIndent_trimIndent]
    · rwa [Cursor.behind_rest]
  | opened opens left =>
    refine ⟨opens.knows.mono (Cursor.reaches_behind opens.split), ?_, ?_, hconfigured⟩
    · rw [Cursor.behind_rest, Text.trimIndent_trimIndent]
    · rwa [Cursor.behind_rest]

end Handles

/-! ### Any number of steps -/

/-- After `n` steps from `p` text is left at `q`. -/
inductive Resumes (m : Markers) : Nat → Progress → Progress → Prop where
  | refl (p : Progress) : Resumes m 0 p p
  | step {n : Nat} {p q r : Progress} (first : step m p = .ok (.resume q)) (rest : Resumes m n q r) :
      Resumes m (n + 1) p r

namespace Resumes

variable {n : Nat}

theorem one (h : Progress.step m p = .ok (.resume q)) : Resumes m 1 p q := .step h (.refl q)

theorem ready (h : p.Ready m) (hr : Resumes m n p q) : q.Ready m := by
  induction hr with
  | refl => exact h
  | step first _ ih => exact ih ((handles_of_step h first).ready h)

theorem reaches (h : p.Ready m) (hr : Resumes m n p q) : p.cursor.Reaches q.cursor := by
  induction hr with
  | refl => exact .refl _
  | step first _ ih =>
    have hh := handles_of_step h first
    exact hh.reaches.trans (ih (hh.ready h))

end Resumes

/-- A settled line was settled by a step, and is code if program text was passed before. -/
theorem exists_settled_of_run {fuel : Nat} {v : Verdict} {carry : Carry} {cache : StartCache}
    (hr : run m fuel p = .ok (v, carry, cache)) :
    ∃ n q v', Resumes m n p q ∧ step m q = .ok (.settled v' carry cache) ∧ v = if q.codeSeen then .code else v' := by
  induction fuel generalizing p with
  | zero => cases hr
  | succ fuel ih =>
    rw [run] at hr
    cases hs : step m p with
    | error e =>
      rw [hs] at hr
      cases hr
    | ok move =>
      rw [hs] at hr
      cases move with
      | settled v' carry' cache' =>
        cases hr
        exact ⟨0, p, v', .refl p, hs, rfl⟩
      | resume q =>
        obtain ⟨n, r, v', hrest, hsettled, hv⟩ := ih hr
        exact ⟨n + 1, r, v', .step hs hrest, hsettled, hv⟩

end Progress

namespace Tracker

variable {m : Markers} {t t' : Tracker}

/-- The pair of an open block is a configured one. -/
def Configured (m : Markers) (t : Tracker) : Prop := ∀ pair, t.carry = .inBlock pair → pair < m.block.length

/-- A line in front of its first marker. -/
def enter (m : Markers) (t : Tracker) (line : Text) : Progress := ⟨t.carry, .fresh m, .start line, false⟩

theorem ready_enter (ht : t.Configured m) {line : Text} (htrim : Text.trimIndent line = line) (hline : line ≠ []) :
    (t.enter m line).Ready m :=
  ⟨StartCache.knows_fresh m _, htrim, hline, ht⟩

/-- How a line comes to its verdict and to what is carried on. -/
inductive Decides (m : Markers) (t : Tracker) (raw : Text) : Verdict → Carry → Prop where
  /-- A blank line does not close a block. -/
  | blankInside {pair : Nat} (inside : t.carry = .inBlock pair) (blank : Text.trimIndent raw = []) :
      Decides m t raw .whitespace (.inBlock pair)
  | blank (blank : Text.trimIndent raw = []) : Decides m t raw .whitespace (.idle .whitespace)
  | continued (carried : t.carry = .continuing) :
      Decides m t raw (Tracker.continued m (Text.trimIndent raw)).current (Tracker.continued m (Text.trimIndent raw))
  /-- A step settles the line. -/
  | settled {n : Nat} {p : Progress} {v : Verdict} {carry : Carry} {cache : StartCache}
      (searched : t.carry ≠ .continuing) (left : Text.trimIndent raw ≠ [])
      (reached : Progress.Resumes m n (t.enter m (Text.trimIndent raw)) p)
      (settles : Progress.step m p = .ok (.settled v carry cache)) :
      Decides m t raw (if p.codeSeen then .code else v) carry

theorem resolve_decides (searched : t.carry ≠ .continuing) {raw : Text} (left : Text.trimIndent raw ≠ []) {v : Verdict}
    (hr : t.resolve m (Text.trimIndent raw) = .ok (v, t')) : Decides m t raw v t'.carry := by
  simp only [resolve] at hr
  split at hr
  · cases hr
  · rename_i hrun
    cases hr
    obtain ⟨n, p, v', reached, settles, rfl⟩ := Progress.exists_settled_of_run hrun
    exact .settled searched left reached settles

theorem feed_decides {raw : Text} {v : Verdict} (hf : t.feed m raw = .ok (v, t')) : Decides m t raw v t'.carry := by
  obtain ⟨carry, cache⟩ := t
  cases carry with
  | idle last =>
    simp only [feed] at hf
    split at hf
    · cases hf
      exact .blank ‹_›
    · exact resolve_decides (by rintro ⟨⟩) ‹_› hf
  | continuing =>
    cases hf
    exact .continued rfl
  | inBlock pair =>
    simp only [feed] at hf
    split at hf
    · cases hf
      exact .blankInside rfl ‹_›
    · exact resolve_decides (by rintro ⟨⟩) ‹_› hf

/-- A continued comment opens no block. -/
theorem continued_ne_inBlock (m : Markers) (line : Text) (pair : Nat) : continued m line ≠ .inBlock pair := by
  rw [continued]
  split
  · simp
  · split <;> simp

theorem configured_feed (ht : t.Configured m) {raw : Text} {v : Verdict} (hf : t.feed m raw = .ok (v, t')) :
    t'.Configured m := by
  have hd := feed_decides hf
  unfold Configured
  generalize t'.carry = carry at hd ⊢
  cases hd with
  | blankInside inside _ => exact inside ▸ ht
  | blank _ => rintro _ ⟨⟩
  | continued _ => exact fun pair hinside => absurd hinside (continued_ne_inBlock m _ pair)
  | settled _ left reached settles =>
    have hp := reached.ready (ready_enter ht (Text.trimIndent_trimIndent raw) left)
    exact (Progress.handles_of_step hp settles).configured hp

/-- The states to which calls of `feed` and `reset` lead from the beginning of a file. -/
inductive Reachable (m : Markers) : Tracker → Prop where
  | start : Reachable m .start
  | reset {t : Tracker} (h : Reachable m t) : Reachable m t.reset
  | feed {t t' : Tracker} {raw : Text} {v : Verdict} (h : Reachable m t) (hf : t.feed m raw = .ok (v, t')) :
      Reachable m t'

theorem Reachable.configured (h : t.Reachable m) : t.Configured m := by
  induction h with
  | start => rintro _ ⟨⟩
  | reset _ _ => rintro _ ⟨⟩
  | feed _ hf ih => exact configured_feed ih hf

end Tracker

end LineCensus
