import LineCensus.Proofs.Boundaries

/-!
# What is carried agrees with what was said

The verdict on a line and the state behind it are set apart from one another, and the state several times on one
line. `Tracker.Leaves` says how far they agree: the verdict is the one that is carried on, or the line is code, or
it is blank and leaves an open block as it was. This holds of every line, whatever the markers are
(`Reachable.feed_leaves`), so what an idle tracker carries is never a comment that goes on
(`Reachable.isProper`), and what can be asked of a tracker has one answer (`Reachable.coherent`).
-/

namespace LineCensus

/-- What is open or goes on is not carried as what the last line was. -/
def Carry.IsProper (carry : Carry) : Prop :=
  ∀ v, carry = .idle v → v = .code ∨ v = .whitespace ∨ v = .comment

namespace Carry

theorem isProper_code : (idle .code).IsProper := by
  rintro _ ⟨⟩
  exact .inl rfl

theorem isProper_whitespace : (idle .whitespace).IsProper := by
  rintro _ ⟨⟩
  exact .inr (.inl rfl)

theorem isProper_comment : (idle .comment).IsProper := by
  rintro _ ⟨⟩
  exact .inr (.inr rfl)

theorem isProper_continuing : continuing.IsProper := nofun

theorem isProper_inBlock (pair : Nat) : (inBlock pair).IsProper := nofun

/-- Proper states are told apart by the verdicts that they stand for, but for the pair of an open block. -/
theorem IsProper.cases {carry : Carry} (h : carry.IsProper) :
    carry = .idle .code ∨ carry = .idle .whitespace ∨ carry = .idle .comment ∨ carry = .continuing ∨
      ∃ pair, carry = .inBlock pair := by
  cases carry with
  | idle v =>
    obtain rfl | rfl | rfl := h v rfl
    · exact .inl rfl
    · exact .inr (.inl rfl)
    · exact .inr (.inr (.inl rfl))
  | continuing => exact .inr (.inr (.inr (.inl rfl)))
  | inBlock pair => exact .inr (.inr (.inr (.inr ⟨pair, rfl⟩)))

end Carry

namespace Progress

variable {m : Markers} {p : Progress}

/-- A verdict that settles a line is the one that is carried on, or the line is code. -/
theorem Handles.carried {v : Verdict} {carry : Carry} {cache : StartCache}
    (h : Handles m p (.settled v carry cache)) : carry.IsProper ∧ (v = carry.current ∨ v = .code) := by
  cases h with
  | unclosed inside _ _ =>
    rw [inside]
    exact ⟨Carry.isProper_inBlock _, .inl rfl⟩
  | closedLast _ _ => exact ⟨Carry.isProper_comment, .inl rfl⟩
  | comment _ _ =>
    split
    · exact ⟨Carry.isProper_continuing, .inl rfl⟩
    · exact ⟨Carry.isProper_comment, .inl rfl⟩
  | openedLast _ _ =>
    refine ⟨Carry.isProper_inBlock _, ?_⟩
    split
    · exact .inr rfl
    · exact .inl rfl
  | code _ _ _ =>
    refine ⟨?_, .inr rfl⟩
    split
    · exact Carry.isProper_continuing
    · exact Carry.isProper_code

end Progress

namespace Tracker

variable {m : Markers} {t t' : Tracker} {v : Verdict}

/-- What a line leaves behind. -/
inductive Leaves (before : Carry) : Verdict → Carry → Prop where
  | carried {after : Carry} (proper : after.IsProper) : Leaves before after.current after
  /-- Behind program text a block may be opened, or closed, or a comment continued. -/
  | code {after : Carry} (proper : after.IsProper) : Leaves before .code after
  /-- A blank line does not close a block. -/
  | blank {pair : Nat} (inside : before = .inBlock pair) : Leaves before .whitespace before

theorem Leaves.isProper {before after : Carry} (h : Leaves before v after) : after.IsProper := by
  cases h with
  | carried proper => exact proper
  | code proper => exact proper
  | blank inside =>
    rw [inside]
    exact Carry.isProper_inBlock _

theorem leaves_feed (ht : t.Configured m) {raw : Text} (hf : t.feed m raw = .ok (v, t')) :
    Leaves t.carry v t'.carry := by
  have hd := feed_decides hf
  generalize t'.carry = after at hd ⊢
  cases hd with
  | blankInside inside _ => exact inside ▸ .blank inside
  | blank _ => exact .carried Carry.isProper_whitespace
  | continued _ =>
    refine .carried ?_
    simp only [continued]
    split
    · exact Carry.isProper_whitespace
    · split
      · exact Carry.isProper_continuing
      · exact Carry.isProper_comment
  | @settled n p v carry cache _ left reached settles =>
    have hp := reached.ready (ready_enter ht (Text.trimIndent_trimIndent raw) left)
    obtain ⟨hproper, hv⟩ := (Progress.handles_of_step hp settles).carried
    -- program text that was passed changes the verdict to code and leaves what is carried
    split
    · exact .code hproper
    · obtain rfl | rfl := hv
      · exact .carried hproper
      · exact .code hproper

theorem Reachable.feed_leaves (ht : t.Reachable m) {raw : Text} (hf : t.feed m raw = .ok (v, t')) :
    Leaves t.carry v t'.carry :=
  leaves_feed ht.configured hf

theorem Reachable.isProper (ht : t.Reachable m) : t.carry.IsProper := by
  cases ht with
  | start => exact Carry.isProper_code
  | reset _ => exact Carry.isProper_code
  | feed h hf => exact (h.feed_leaves hf).isProper

theorem Reachable.call (ht : t.Reachable m) {c : Call} {a : Answer} (hc : t.call m c = .ok (a, t')) :
    t'.Reachable m := by
  cases c with
  | feed raw =>
    simp only [Tracker.call] at hc
    split at hc
    · cases hc
    · cases hc
      exact .feed ht ‹_›
  | reset =>
    cases hc
    exact .reset ht

/-- Calls lead to reachable states only. -/
theorem Reachable.callAll (ht : t.Reachable m) {calls : List Call} {as : List Answer}
    (h : t.callAll m calls = .ok (as, t')) : t'.Reachable m := by
  induction calls generalizing t as with
  | nil =>
    cases h
    exact ht
  | cons c calls ih =>
    simp only [Tracker.callAll] at h
    split at h
    · cases h
    · rename_i hc
      split at h
      · cases h
      · rename_i hrest
        cases h
        exact ih (ht.call hc) hrest

/-- What can be asked of a tracker has one answer, and an open block is that of a pair. -/
structure Coherent (m : Markers) (t : Tracker) : Prop where
  idle : ∀ v, t.carry = .idle v → v = .code ∨ v = .whitespace ∨ v = .comment
  block : t.current = .block ↔ t.isInBlock = true
  awaited : t.isInBlock = true ↔ (t.awaited? m).isSome = true
  closing : ∀ c, t.awaited? m = some c →
    ∃ pair b, t.carry = .inBlock pair ∧ m.block[pair]? = some b ∧ c = b.closing

theorem Reachable.coherent (ht : t.Reachable m) : Coherent m t := by
  have hproper := ht.isProper
  have hconfigured := ht.configured
  obtain ⟨carry, cache⟩ := t
  cases carry with
  | idle v =>
    refine ⟨hproper, ?_, by simp [awaited?, isInBlock], nofun⟩
    obtain rfl | rfl | rfl := hproper v rfl <;> simp [current, Carry.current, isInBlock]
  | continuing =>
    exact ⟨hproper, by simp [current, Carry.current, isInBlock], by simp [awaited?, isInBlock], nofun⟩
  | inBlock pair =>
    have hb := List.getElem?_eq_getElem (hconfigured pair rfl)
    refine ⟨hproper, by simp [current, Carry.current, isInBlock], by simp [awaited?, isInBlock, hb], fun c hc => ?_⟩
    obtain ⟨b, hb, rfl⟩ := Option.map_eq_some_iff.1 hc
    exact ⟨pair, b, rfl, hb, rfl⟩

/-- How the verdict on a line and the state behind it go together. -/
structure Follows (before : Tracker) (v : Verdict) (after : Tracker) : Prop where
  whitespace : v = .whitespace →
    after.carry = .idle .whitespace ∨ after.isInBlock = true ∧ after.carry = before.carry
  comment : v = .comment → after.carry = .idle .comment
  continuing : v = .continuing → after.carry = .continuing
  block : v = .block → after.isInBlock = true
  ofBlock : after.isInBlock = true → v = .block ∨ v = .code ∨ v = .whitespace
  ofContinuing : after.carry = .continuing → v = .continuing ∨ v = .code
  current : after.current ≠ v → v = .code ∨ v = .whitespace ∧ after.isInBlock = true

theorem Leaves.follows {before after : Tracker} (h : Leaves before.carry v after.carry) : Follows before v after := by
  obtain ⟨carry, cache⟩ := after
  simp only at h
  cases h with
  | carried proper =>
    obtain rfl | rfl | rfl | rfl | ⟨pair, rfl⟩ := proper.cases <;>
      constructor <;> simp [Carry.current, Tracker.current, isInBlock]
  | code proper => constructor <;> simp
  | blank inside => constructor <;> simp [Tracker.current, isInBlock, inside, Carry.current]

/-- **What is carried agrees with what was said**: whatever calls were made of a new tracker, what can be asked of
it has one answer; and every further line is answered by a verdict that is carried on, unless the line is code or
is blank in an open block. -/
theorem callAll_coherent (line : List Text) (block : List BlockPair) (continuation : List Text) (calls : List Call) :
    let m := Markers.ofLists line block continuation
    ∃ answers t, start.callAll m calls = .ok (answers, t) ∧ Coherent m t ∧
      ∀ raw, ∃ v t', t.feed m raw = .ok (v, t') ∧ Follows t v t' ∧ Coherent m t' := by
  intro m
  have hm : m.Progressing := (Markers.solid_ofLists line block continuation).progressing
  obtain ⟨answers, t, hcalls, -⟩ := exists_callAll hm (configured_start m) calls
  have ht : t.Reachable m := Reachable.start.callAll hcalls
  refine ⟨answers, t, hcalls, ht.coherent, fun raw => ?_⟩
  obtain ⟨cache, hfeed⟩ := feed_eq_line hm ht.configured raw
  exact ⟨_, _, hfeed, (ht.feed_leaves hfeed).follows, (ht.feed hfeed).coherent⟩

end Tracker

end LineCensus
