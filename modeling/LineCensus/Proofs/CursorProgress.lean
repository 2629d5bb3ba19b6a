import LineCensus.Proofs.LineReading

/-!
# The cursor moves on, and every line settles

A step moves the cursor over the marker it handles (`Handles.add_closing_le`, `Handles.add_opening_le`), so
it stands still only at an empty half of a pair. An opening and the closing behind it belong to one pair,
and with `Markers.Progressing` sets they move the cursor together; two steps of different pairs need not.
`Progress.Advances` collects how the loop over the markers of a line goes on.

A pair that is empty on both sides opens and closes at one place for ever (`hollow_returns`), so a line on
which it opens never settles (`run_of_enters_hollow`).
-/

namespace LineCensus

/-- No half of a pair is empty. -/
def Markers.Whole (m : Markers) : Prop := ∀ b ∈ m.block, b.opening ≠ [] ∧ b.closing ≠ []

theorem Markers.Solid.whole {m : Markers} (h : m.Solid) : m.Whole := fun b hb => ⟨h.opening b hb, h.closing b hb⟩

theorem Text.byteSize_pos {t : Text} (h : t ≠ []) : 0 < Text.byteSize t := by
  obtain ⟨c, r, rfl⟩ := List.exists_cons_of_ne_nil h
  have := Char.utf8Size_pos c
  rw [byteSize_cons]
  omega

theorem Text.occurrence?_nil (n : Nat) (t : Text) : occurrence? [] n t = some (n, t) := by
  cases t <;> rfl

theorem Cursor.advance?_zero (c : Cursor) : c.advance? 0 = some c := by
  rw [advance?, Text.dropBytes?_zero]
  rfl

/-- Where no indentation stands, none is skipped. -/
theorem Cursor.skipIndent_eq_self {c : Cursor} (h : Text.trimIndent c.rest = c.rest) : c.skipIndent = c := by
  obtain ⟨n, t⟩ := c
  cases t with
  | nil => rfl
  | cons d t => simp [skipIndent, skipIndentFrom, Text.isIndent_of_trimIndent h]

/-- A pair that opens with nothing opens wherever a block is looked for. -/
theorem Markers.firstOpening?_of_nil {m : Markers} {pair i n k : Nat} {b : BlockPair} {t : Text}
    (hb : m.block[pair]? = some b) (hopening : b.opening = []) (h : m.firstOpening? n t = some (k, i)) : k = n := by
  obtain ⟨s, u, -, -, rfl, -, -, -, hmin⟩ := firstOpening?_spec h
  have hle := hmin [] t rfl b (List.mem_of_getElem? hb) (hopening ▸ List.nil_prefix)
  rw [List.length_eq_zero_iff.1 (Nat.le_zero.1 hle)]
  rfl

namespace Progress

variable {m : Markers} {p q r : Progress}

/-! ### How far a step moves -/

/-- Closing a block moves the cursor over the closing text, out of the block. -/
theorem Handles.add_closing_le (hh : Handles m p (.resume q)) {pair : Nat} {b : BlockPair}
    (inside : p.carry = .inBlock pair) (hb : m.block[pair]? = some b) :
    p.cursor.offset + Text.byteSize b.closing ≤ q.cursor.offset ∧ q.carry.open? = none := by
  cases hh with
  | @closed pair' b' s w closes left =>
    have hpair : pair' = pair := Carry.inBlock.inj (closes.inside.symm.trans inside)
    subst hpair
    have hb' : b' = b := Option.some.inj (closes.pair_eq.symm.trans hb)
    subst hb'
    have hle := Cursor.add_le_behind p.cursor (s ++ b'.closing) w
    rw [Text.byteSize_append] at hle
    exact ⟨by dsimp only; omega, rfl⟩
  | opened opens _ =>
    have outside := opens.outside
    rw [inside] at outside
    cases outside

/-- Opening a block moves the cursor over the opening, into the block. -/
theorem Handles.add_opening_le (hh : Handles m p (.resume q)) (outside : p.carry.open? = none) :
    ∃ pair b, q.carry = .inBlock pair ∧ m.block[pair]? = some b ∧
      p.cursor.offset + Text.byteSize b.opening ≤ q.cursor.offset := by
  cases hh with
  | closed closes _ =>
    rw [closes.inside] at outside
    cases outside
  | @opened pair b s w cache opens left =>
    have hle := Cursor.add_le_behind p.cursor (s ++ b.opening) w
    rw [Text.byteSize_append] at hle
    exact ⟨pair, b, rfl, opens.pair_eq, by dsimp only; omega⟩

/-- An opening and the closing behind it move the cursor. -/
theorem offset_lt_of_pair (hm : m.Progressing) (hp : p.Ready m) (outside : p.carry.open? = none)
    (hq : step m p = .ok (.resume q)) (hr : step m q = .ok (.resume r)) :
    p.cursor.offset < r.cursor.offset ∧ r.carry.open? = none := by
  have hpq := handles_of_step hp hq
  obtain ⟨pair, b, inside, hb, hopening⟩ := hpq.add_opening_le outside
  obtain ⟨hclosing, hout⟩ := (handles_of_step (hpq.ready hp) hr).add_closing_le inside hb
  refine ⟨?_, hout⟩
  rcases hm b (List.mem_of_getElem? hb) with ho | hc
  · have := Text.byteSize_pos ho
    omega
  · have := Text.byteSize_pos hc
    omega

/-- If no half is empty, every step moves the cursor. -/
theorem offset_lt_of_whole (hm : m.Whole) (hp : p.Ready m) (hq : step m p = .ok (.resume q)) :
    p.cursor.offset < q.cursor.offset := by
  have hpq := handles_of_step hp hq
  cases hc : p.carry.open? with
  | none =>
    obtain ⟨pair, b, -, hb, hle⟩ := hpq.add_opening_le hc
    have := Text.byteSize_pos (hm b (List.mem_of_getElem? hb)).1
    omega
  | some pair =>
    have inside := Carry.open?_eq_some hc
    have hb := List.getElem?_eq_getElem (hp.configured pair inside)
    have hle := (hpq.add_closing_le inside hb).1
    have := Text.byteSize_pos (hm _ (List.getElem_mem (hp.configured pair inside))).2
    omega

/-! ### The loop over a line -/

/-- The step behind which a line is settled is reached. -/
theorem exists_settled (hm : m.Progressing) (hp : p.Ready m) :
    ∃ n q v carry cache, Resumes m n p q ∧ step m q = .ok (.settled v carry cache) := by
  obtain ⟨k, hk⟩ : ∃ k, k = p.weight m := ⟨_, rfl⟩
  induction k using Nat.strongRecOn generalizing p with
  | ind k ih =>
    have hs := step_reads hm hp
    cases hr : step m p with
    | error e =>
      rw [hr] at hs
      cases hs
    | ok move =>
      rw [hr] at hs
      cases hs with
      | settled cache _ => exact ⟨0, p, _, _, cache, .refl p, hr⟩
      | resume _ ready _ _ less _ =>
        obtain ⟨n, q', v, carry, cache, hrest, hsettled⟩ := ih _ (hk ▸ less) ready rfl
        exact ⟨n + 1, q', v, carry, cache, .step hr hrest, hsettled⟩

/-- How the loop over the markers of a line goes on from its start. -/
structure Advances (m : Markers) (line : Text) (start : Progress) : Prop where
  /-- A step is reached behind which the line is settled. -/
  settles : ∃ n q v carry cache, Resumes m n start q ∧ step m q = .ok (.settled v carry cache)
  /-- Where text is left, the cursor stands before the end, at neither a space nor a tab. -/
  stands : ∀ n q, Resumes m n start q → q.cursor.On line ∧ q.cursor.offset < Text.byteSize line ∧
    ∃ c rest, q.cursor.rest = c :: rest ∧ Text.isIndent c = false
  /-- No step moves the cursor back. -/
  forward : ∀ n q r, Resumes m n start q → step m q = .ok (.resume r) → q.cursor.offset ≤ r.cursor.offset
  /-- An opening and the closing behind it move the cursor. -/
  pairs : ∀ n q r, Resumes m n start q → q.carry.open? = none → Resumes m 2 q r →
    q.cursor.offset < r.cursor.offset
  /-- Of three steps one moves the cursor. -/
  three : ∀ n q r, Resumes m n start q → Resumes m 3 q r → q.cursor.offset < r.cursor.offset
  /-- If no half of a pair is empty, every step moves the cursor, and there are no more than bytes. -/
  whole : m.Whole →
    (∀ n q r, Resumes m n start q → step m q = .ok (.resume r) → q.cursor.offset < r.cursor.offset) ∧
    ∀ n q, Resumes m n start q → n + 1 ≤ Text.byteSize line

theorem offset_le_of_resumes {n : Nat} (hp : p.Ready m) (h : Resumes m n p q) : p.cursor.offset ≤ q.cursor.offset :=
  (h.reaches hp).offset_le

/-- Of three steps two are an opening and the closing behind it. -/
theorem offset_lt_of_three (hm : m.Progressing) (hp : p.Ready m) (h : Resumes m 3 p r) :
    p.cursor.offset < r.cursor.offset := by
  obtain _ | ⟨first, _ | ⟨second, _ | ⟨third, _ | _⟩⟩⟩ := h
  rename_i q₁ q₂
  have hq₁ := (Resumes.one first).ready hp
  cases hc : p.carry.open? with
  | none =>
    have hpair := (offset_lt_of_pair hm hp hc first second).1
    have hlast := offset_le_of_resumes ((Resumes.one second).ready hq₁) (.one third)
    omega
  | some pair =>
    have inside := Carry.open?_eq_some hc
    have hb := List.getElem?_eq_getElem (hp.configured pair inside)
    obtain ⟨hfirst, hout⟩ := (handles_of_step hp first).add_closing_le inside hb
    have hpair := (offset_lt_of_pair hm hq₁ hout second third).1
    omega

theorem add_le_of_whole (hm : m.Whole) {n : Nat} (hp : p.Ready m) (h : Resumes m n p q) :
    p.cursor.offset + n ≤ q.cursor.offset := by
  induction h with
  | refl => exact Nat.le_refl _
  | step first _ ih =>
    have hlt := offset_lt_of_whole hm hp first
    have hrest := ih ((handles_of_step hp first).ready hp)
    omega

theorem advances_enter (hm : m.Progressing) {t : Tracker} (ht : t.Configured m) {line : Text}
    (htrim : Text.trimIndent line = line) (hline : line ≠ []) : Advances m line (t.enter m line) := by
  have hstart := Tracker.ready_enter ht htrim hline
  have hready : ∀ {n q}, Resumes m n (t.enter m line) q → q.Ready m := fun h => h.ready hstart
  have hstands : ∀ n q, Resumes m n (t.enter m line) q → q.cursor.On line ∧
      q.cursor.offset < Text.byteSize line ∧ ∃ c rest, q.cursor.rest = c :: rest ∧ Text.isIndent c = false := by
    intro n q h
    have hon := (h.reaches hstart).on (Cursor.on_start line)
    obtain ⟨c, rest, hrest⟩ := List.exists_cons_of_ne_nil (hready h).left
    have hpos := Text.byteSize_pos (hready h).left
    obtain ⟨s, hs, ho⟩ := id hon
    refine ⟨hon, ?_, c, rest, hrest, ?_⟩
    · rw [hs, Text.byteSize_append]
      omega
    · have htrimmed := (hready h).trimmed
      rw [hrest] at htrimmed
      exact Text.isIndent_of_trimIndent htrimmed
  refine ⟨exists_settled hm hstart, hstands, fun n q r h hr => ?_, fun n q r h hout hr => ?_, fun n q r h hr => ?_,
    fun hw => ⟨fun n q r h hr => offset_lt_of_whole hw (hready h) hr, fun n q h => ?_⟩⟩
  · exact offset_le_of_resumes (hready h) (.one hr)
  · obtain _ | ⟨first, _ | ⟨second, _ | _⟩⟩ := hr
    exact (offset_lt_of_pair hm (hready h) hout first second).1
  · exact offset_lt_of_three hm (hready h) hr
  · have hle := add_le_of_whole hw hstart h
    have hlt := (hstands n q h).2.1
    omega

/-! ### A pair that is empty on both sides -/

/-- The step from here enters the block of a pair. -/
def Enters (m : Markers) (p : Progress) (pair : Nat) : Prop :=
  p.carry.open? = none ∧ ∃ move, step m p = .ok move ∧ move.carry = .inBlock pair

/-- Which block a step enters is decided by the text from the cursor on. -/
theorem enters_iff (hp : p.Ready m) {pair : Nat} :
    Enters m p pair ↔ p.carry.open? = none ∧ m.startsComment p.cursor.rest = false ∧
      ∃ k, m.firstOpening? 0 p.cursor.rest = some (k, pair) := by
  obtain ⟨move, hs, hh⟩ := step_handles hp
  have hmove : Enters m p pair ↔ p.carry.open? = none ∧ move.carry = .inBlock pair := by
    refine and_congr_right fun _ => ⟨?_, fun h => ⟨move, hs, h⟩⟩
    rintro ⟨move', hs', h⟩
    cases hs.symm.trans hs'
    exact h
  rw [hmove]
  refine and_congr_right fun outside => ?_
  cases hh with
  | unclosed inside _ _ =>
    rw [inside] at outside
    cases outside
  | closedLast closes _ =>
    rw [closes.inside] at outside
    cases outside
  | closed closes _ =>
    rw [closes.inside] at outside
    cases outside
  | comment _ starts =>
    simp only [starts, Move.carry]
    refine iff_of_false ?_ (by rintro ⟨⟨⟩, -⟩)
    split <;> rintro ⟨⟩
  | openedLast opens _ => simp [Move.carry, opens.plain, opens.found]
  | opened opens _ => simp [Move.carry, opens.plain, opens.found]
  | code _ plain absent =>
    simp only [plain, absent, Move.carry]
    refine iff_of_false ?_ (by rintro ⟨-, _, ⟨⟩⟩)
    split <;> rintro ⟨⟩

section Hollow

variable {pair : Nat} (hollow : m.block[pair]? = some ⟨[], []⟩)
include hollow

theorem openBlock_hollow (hp : p.Ready m) :
    openBlock m p p.cursor.offset pair = .ok (.resume { p with carry := .inBlock pair }) := by
  have hstill := Cursor.skipIndent_eq_self hp.trimmed
  simp [openBlock, hollow, Cursor.advance?_zero, hstill, hp.left]

theorem closeBlock_hollow (hp : p.Ready m) :
    closeBlock m p pair = .ok (.resume { p with carry := .idle .comment }) := by
  have hstill := Cursor.skipIndent_eq_self hp.trimmed
  simp [closeBlock, hollow, Text.occurrence?_nil, Cursor.advance?_zero, hstill, hp.left]

/-- A pair that is empty on both sides opens at the cursor, closes there, and opens there again. -/
theorem hollow_returns (hp : p.Ready m) (he : Enters m p pair) :
    ∃ q r, step m p = .ok (.resume q) ∧ step m q = .ok (.resume r) ∧ q.cursor = p.cursor ∧
      r.cursor = p.cursor ∧ r.carry = .idle .comment ∧ Enters m r pair := by
  obtain ⟨outside, plain, k, hk⟩ := (enters_iff hp).1 he
  obtain rfl := Markers.firstOpening?_of_nil hollow rfl hk
  obtain ⟨cache, hearliest, hknows⟩ := StartCache.earliest_eq hp.knows
  rw [Markers.firstOpening?_eq_zero_map, hk, Option.map_some, Nat.zero_add] at hearliest
  have hcache : Ready m { p with cache } := ⟨hknows, hp.trimmed, hp.left, hp.configured⟩
  have hfirst : step m p = .ok (.resume { p with cache, carry := .inBlock pair }) := by
    have hopen : step m p = openSegment m p := by
      unfold step
      split
      · rename_i hc
        rw [hc] at outside
        cases outside
      · rfl
    simp only [hopen, openSegment, plain, hearliest, Bool.false_eq_true, if_false]
    exact openBlock_hollow hollow hcache
  have hq := (handles_of_step hp hfirst).ready hp
  have hsecond : step m { p with cache, carry := .inBlock pair } =
      .ok (.resume { p with cache, carry := .idle .comment }) := closeBlock_hollow hollow hq
  have hr := (handles_of_step hq hsecond).ready hq
  exact ⟨_, _, hfirst, hsecond, rfl, rfl, rfl, (enters_iff hr).2 ⟨rfl, plain, _, hk⟩⟩

/-- Where a pair that is empty on both sides opens, no number of steps is enough. -/
theorem run_of_enters_hollow (hp : p.Ready m) (he : Enters m p pair) (fuel : Nat) :
    run m fuel p = .error .endless := by
  induction fuel using Nat.strongRecOn generalizing p with
  | ind fuel ih =>
    obtain ⟨q, r, hq, hr, -, -, -, hagain⟩ := hollow_returns hollow hp he
    have hready := (Resumes.step hq (.one hr)).ready hp
    match fuel with
    | 0 => rfl
    | 1 => rw [run, hq]; rfl
    | fuel + 2 =>
      rw [run, hq]
      simp only
      rw [run, hr]
      exact ih fuel (by omega) hready hagain

end Hollow

/-- A line on whose way no number of steps is enough never settles. -/
theorem Resumes.run_endless {n : Nat} (h : Resumes m n p q) (hq : ∀ fuel, run m fuel q = .error .endless)
    (fuel : Nat) : run m fuel p = .error .endless := by
  induction h generalizing fuel with
  | refl => exact hq fuel
  | step first _ ih =>
    cases fuel with
    | zero => rfl
    | succ fuel =>
      rw [run, first]
      exact ih hq fuel

end Progress

namespace Tracker

/-- **Every line settles**: from every state that calls lead to, the loop over the markers of a line that
is not blank comes to an end, and its cursor moves on as `Progress.Advances` says, unless a pair is empty
on both sides. Where such a pair opens, the loop comes back to the same place with no block open, enters
the pair again, and never settles. No set that is made from lists of markers has such a pair. -/
theorem resolve_advances (m : Markers) {t : Tracker} (ht : t.Reachable m) (raw : Text)
    (hraw : Text.isBlank raw = false) :
    let line := Text.trimIndent raw
    let start := t.enter m line
    (m.Progressing → (∃ r, t.resolve m line = .ok r) ∧ Progress.Advances m line start) ∧
    (∀ n p pair, Progress.Resumes m n start p → Progress.Enters m p pair → m.block[pair]? = some ⟨[], []⟩ →
      (∃ q r, Progress.step m p = .ok (.resume q) ∧ Progress.step m q = .ok (.resume r) ∧ q.cursor = p.cursor ∧
        r.cursor = p.cursor ∧ r.carry = .idle .comment ∧ Progress.Enters m r pair) ∧
      ∀ fuel, Progress.run m fuel start = .error .endless) ∧
    ∀ lines block continuation, m = .ofLists lines block continuation → m.Progressing ∧ m.Whole := by
  intro line start
  have htrim : Text.trimIndent line = line := Text.trimIndent_trimIndent raw
  have hline : line ≠ [] := Text.trimIndent_ne_nil hraw
  refine ⟨fun hm => ⟨?_, Progress.advances_enter hm ht.configured htrim hline⟩, fun n p pair hr he hollow => ?_, ?_⟩
  · obtain ⟨cache, hresolve⟩ := resolve_eq_read hm ht.configured htrim hline
    exact ⟨_, hresolve⟩
  · have hp := hr.ready (ready_enter ht.configured htrim hline)
    exact ⟨Progress.hollow_returns hollow hp he, hr.run_endless (Progress.run_of_enters_hollow hollow hp he)⟩
  · rintro lines block continuation rfl
    have hsolid := Markers.solid_ofLists lines block continuation
    exact ⟨hsolid.progressing, hsolid.whole⟩

/-- One pair has no closing text, the other no opening. -/
def crossed : Markers := ⟨[], [⟨"<".toList, []⟩, ⟨[], ">".toList⟩], []⟩

/-- A line that two steps in a row do not move, and one on which an empty pair opens. -/
theorem resolve_advances_crossed :
    (∃ n q v carry cache, Progress.Resumes crossed n (start.enter crossed "<x".toList) q ∧
      Progress.step crossed q = .ok (.settled v carry cache)) ∧
    ∀ fuel, Progress.run ⟨[], [⟨[], []⟩], []⟩ fuel (start.enter ⟨[], [⟨[], []⟩], []⟩ ['x']) = .error .endless := by
  have hcrossed := (resolve_advances crossed .start "<x".toList (by decide)).1 (by decide)
  have hempty := (resolve_advances ⟨[], [⟨[], []⟩], []⟩ .start ['x'] (by decide)).2.1
  exact ⟨hcrossed.2.settles, (hempty 0 _ 0 (.refl _) ⟨rfl, _, rfl, rfl⟩ rfl).2⟩

/-- The pair that closes with nothing ends behind `<`, and there the pair that opens with nothing begins:
neither step moves the cursor. -/
theorem two_steps_stand_still : crossed.Progressing ∧
    ¬ ∀ n p q, Progress.Resumes crossed n (start.enter crossed "<x".toList) p → Progress.Resumes crossed 2 p q →
      p.cursor.offset < q.cursor.offset := by
  refine ⟨by decide, fun h => ?_⟩
  have hlt := h 1 _ _ (.one rfl) (.step rfl (.one rfl))
  revert hlt
  decide

end Tracker

end LineCensus
