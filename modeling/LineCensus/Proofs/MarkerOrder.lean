import Mathlib.Data.Option.Basic
import LineCensus.Proofs.FreshStart

/-!
# The order of configuration

Two sets of the same markers (`Markers.SameAs`) differ in the places of the pairs only. If no opening begins with
another one (`Markers.Apart`), one pair at most opens at any place, so both sets find the same first opening
(`Markers.firstOpening?_sameAs`), under its own place in each list. Their trackers carry the same up to these
places (`Carry.Matches`) and cannot be told apart (`Tracker.callAll_sameAs`).
-/

namespace LineCensus

namespace Markers

/-- The sets have the same markers, in any order and with any repetitions. -/
structure SameAs (m m' : Markers) : Prop where
  line : ∀ t, t ∈ m.line ↔ t ∈ m'.line
  block : ∀ p, p ∈ m.block ↔ p ∈ m'.block
  continuation : ∀ t, t ∈ m.continuation ↔ t ∈ m'.continuation

/-- No opening begins with the opening of another pair. -/
def Apart (m : Markers) : Prop := ∀ p ∈ m.block, ∀ q ∈ m.block, p.opening <+: q.opening → p = q

/-- The places of one pair in the two lists. -/
def SamePair (m m' : Markers) (i i' : Nat) : Prop := ∃ b, m.block[i]? = some b ∧ m'.block[i']? = some b

variable {m m' : Markers}

theorem any_eq_of_mem_iff {l l' : List Text} (h : ∀ t, t ∈ l ↔ t ∈ l') (f : Text → Bool) : l.any f = l'.any f := by
  rw [Bool.eq_iff_iff, List.any_eq_true, List.any_eq_true]
  exact exists_congr fun t => and_congr_left fun _ => h t

theorem SameAs.startsComment (h : m.SameAs m') (t : Text) : m.startsComment t = m'.startsComment t :=
  any_eq_of_mem_iff h.line _

theorem SameAs.containsComment (h : m.SameAs m') (t : Text) : m.containsComment t = m'.containsComment t :=
  any_eq_of_mem_iff h.line _

theorem SameAs.continues (h : m.SameAs m') (t : Text) : m.continues t = m'.continues t :=
  any_eq_of_mem_iff h.continuation _

/-- Of two pairs that open one text, one begins with the other. -/
theorem Apart.eq_of_opens (ha : m.Apart) {p q : BlockPair} (hp : p ∈ m.block) (hq : q ∈ m.block) {t : Text}
    (hpt : p.opening <+: t) (hqt : q.opening <+: t) : p = q := by
  obtain hpq | hqp := List.prefix_or_prefix_of_prefix hpt hqt
  · exact ha p hp q hq hpq
  · exact (ha q hq p hp hqp).symm

/-- Both sets find the same first opening. -/
theorem firstOpening?_sameAs (h : m.SameAs m') (ha : m.Apart) (n : Nat) (t : Text) :
    Option.Rel (fun x y => x.1 = y.1 ∧ SamePair m m' x.2 y.2) (m.firstOpening? n t) (m'.firstOpening? n t) := by
  cases hf : m.firstOpening? n t with
  | none =>
    have hf' : m'.firstOpening? n t = none := by
      rw [firstOpening?_eq_none_iff] at hf ⊢
      exact fun p hp => hf p ((h.block p).2 hp)
    rw [hf']
    exact .none
  | some found =>
    obtain ⟨k, i⟩ := found
    obtain ⟨s, u, b, hs, rfl, hb, hu, -, hmin⟩ := firstOpening?_spec hf
    have hmem := List.mem_of_getElem? hb
    cases hf' : m'.firstOpening? n t with
    | none => exact absurd hu (firstOpening?_eq_none_iff.1 hf' b ((h.block b).1 hmem) s u hs)
    | some found' =>
      obtain ⟨k', i'⟩ := found'
      obtain ⟨s', u', b', hs', rfl, hb', hu', -, hmin'⟩ := firstOpening?_spec hf'
      have hmem' := (h.block b').2 (List.mem_of_getElem? hb')
      have hlength : s.length = s'.length :=
        Nat.le_antisymm (hmin s' u' hs' b' hmem' hu') (hmin' s u hs b ((h.block b).1 hmem) hu)
      obtain ⟨rfl, rfl⟩ := List.append_inj (hs.symm.trans hs') hlength
      obtain rfl := ha.eq_of_opens hmem hmem' hu hu'
      exact .some ⟨rfl, b, hb, hb'⟩

end Markers

/-- The same is carried, under the place of an open pair in each list. -/
inductive Carry.Matches (m m' : Markers) : Carry → Carry → Prop where
  | idle (last : Verdict) : Matches m m' (.idle last) (.idle last)
  | continuing : Matches m m' .continuing .continuing
  | inBlock {i i' : Nat} (pair : m.SamePair m' i i') : Matches m m' (.inBlock i) (.inBlock i')

namespace Reading

variable {m m' : Markers}

theorem afterClosing?_samePair {i i' : Nat} (h : m.SamePair m' i i') (t : Text) :
    afterClosing? m' i' t = afterClosing? m i t := by
  obtain ⟨b, hb, hb'⟩ := h
  rw [afterClosing?, afterClosing?, hb, hb']

theorem opening?_sameAs (h : m.SameAs m') (ha : m.Apart) (t : Text) :
    Option.Rel (fun x y => x.1 = y.1 ∧ m.SamePair m' x.2.1 y.2.1 ∧ x.2.2 = y.2.2) (opening? m t) (opening? m' t) := by
  have hfirst := Markers.firstOpening?_sameAs h ha 0 t
  unfold opening?
  generalize m.firstOpening? 0 t = found, m'.firstOpening? 0 t = found' at hfirst
  cases hfirst with
  | none => exact .none
  | @some x y hxy =>
    obtain ⟨k, i⟩ := x
    obtain ⟨k', i'⟩ := y
    obtain ⟨rfl, b, hb, hb'⟩ := hxy
    simp only [Option.bind_eq_bind, Option.bind_some, hb, hb']
    cases Text.dropBytes? k t with
    | none => exact .none
    | some u => exact .some ⟨rfl, ⟨b, hb, hb'⟩, rfl⟩

/-- Every text reads alike with both sets. -/
theorem read_sameAs (h : m.SameAs m') (ha : m.Apart) (hm : m.Progressing) (hm' : m'.Progressing)
    {block block' : Option Nat} (hblock : Option.Rel (m.SamePair m') block block') (t : Text) :
    (read m hm block t).1 = (read m' hm' block' t).1 ∧
      (read m hm block t).2.Matches m m' (read m' hm' block' t).2 := by
  induction block, t using read.induct m hm generalizing block' with
  | case1 t pair hclosing =>
    cases hblock with
    | some hpair =>
      rw [read_some, read_some, afterClosing?_samePair hpair, hclosing]
      exact ⟨rfl, .inBlock hpair⟩
  | case2 t pair hclosing =>
    cases hblock with
    | some hpair =>
      rw [read_some, read_some, afterClosing?_samePair hpair, hclosing]
      exact ⟨rfl, .idle _⟩
  | case3 t pair u hclosing hu ih =>
    cases hblock with
    | some hpair =>
      rw [read_some, read_some, afterClosing?_samePair hpair, hclosing]
      simp only [hu, if_false]
      exact ih .none
  | case4 t hstarts hcontinues =>
    cases hblock
    rw [read_comment m hm hstarts, read_comment m' hm' (h.startsComment t ▸ hstarts), ← h.continues, if_pos hcontinues]
    exact ⟨rfl, .continuing⟩
  | case5 t hstarts hcontinues =>
    cases hblock
    rw [read_comment m hm hstarts, read_comment m' hm' (h.startsComment t ▸ hstarts), ← h.continues, if_neg hcontinues]
    exact ⟨rfl, .idle _⟩
  | case6 t hstarts hopening =>
    cases hblock
    have hopening' := opening?_sameAs h ha t
    rw [hopening] at hopening'
    cases ho : opening? m' t with
    | some found =>
      rw [ho] at hopening'
      cases hopening'
    | none =>
      rw [read_code m hm hstarts hopening, read_code m' hm' (h.startsComment t ▸ hstarts) ho, ← h.containsComment,
        ← h.continues]
      refine ⟨rfl, ?_⟩
      dsimp only
      split
      · exact .continuing
      · exact .idle _
  | case7 t hstarts k pair u hopening ih =>
    cases hblock
    have hopening' := opening?_sameAs h ha t
    rw [hopening] at hopening'
    cases ho : opening? m' t with
    | none =>
      rw [ho] at hopening'
      cases hopening'
    | some found =>
      obtain ⟨k', pair', u'⟩ := found
      rw [ho] at hopening'
      obtain ⟨rfl, hpair, rfl⟩ : k = k' ∧ m.SamePair m' pair pair' ∧ u = u' := by
        cases hopening' with
        | some hxy => exact hxy
      rw [read_opening m hm hstarts hopening, read_opening m' hm' (h.startsComment t ▸ hstarts) ho]
      by_cases hu : u = []
      · simp only [hu, if_true]
        exact ⟨trivial, .inBlock hpair⟩
      · obtain ⟨hverdict, hcarry⟩ := ih hu (.some hpair)
        simp only [hu, if_false, hverdict]
        exact ⟨trivial, hcarry⟩

/-- Every line reads alike with both sets. -/
theorem line_sameAs (h : m.SameAs m') (ha : m.Apart) (hm : m.Progressing) (hm' : m'.Progressing) {carry carry' : Carry}
    (hcarry : carry.Matches m m' carry') (raw : Text) :
    (line m hm carry raw).1 = (line m' hm' carry' raw).1 ∧
      (line m hm carry raw).2.Matches m m' (line m' hm' carry' raw).2 := by
  by_cases hblank : Text.trimIndent raw = []
  · cases hcarry with
    | idle last => simpa only [line, hblank, if_true, true_and] using .idle _
    | continuing => simpa only [line, hblank, if_true, true_and] using .idle _
    | inBlock hpair => simpa only [line, hblank, if_true, true_and] using .inBlock hpair
  · cases hcarry with
    | idle last =>
      simp only [line, hblank, if_false]
      exact read_sameAs h ha hm hm' .none _
    | continuing =>
      simp only [line, hblank, if_false, ← h.continues]
      split
      · exact ⟨trivial, .continuing⟩
      · exact ⟨trivial, .idle _⟩
    | inBlock hpair =>
      simp only [line, hblank, if_false]
      exact read_sameAs h ha hm hm' (.some hpair) _

end Reading

namespace Tracker

variable {m m' : Markers} {t t' : Tracker}

/-- Nothing that can be asked tells the places of a pair apart. -/
theorem answer_of_matches (h : t.carry.Matches m m' t'.carry) (verdict : Option Verdict) :
    answer m verdict t = answer m' verdict t' := by
  obtain ⟨carry, cache⟩ := t
  obtain ⟨carry', cache'⟩ := t'
  cases h with
  | idle last => rfl
  | continuing => rfl
  | inBlock hpair =>
    obtain ⟨b, hb, hb'⟩ := hpair
    simp only [answer, current, Carry.current, isInBlock, awaited?, hb, hb']

theorem call_sameAs (h : m.SameAs m') (ha : m.Apart) (hm : m.Progressing) (hm' : m'.Progressing)
    (ht : t.Configured m) (ht' : t'.Configured m') (hcarry : t.carry.Matches m m' t'.carry) (c : Call) :
    ∃ a t₁ t₁', t.call m c = .ok (a, t₁) ∧ t'.call m' c = .ok (a, t₁') ∧ t₁.carry.Matches m m' t₁'.carry := by
  cases c with
  | feed raw =>
    obtain ⟨cache, hf⟩ := feed_eq_line hm ht raw
    obtain ⟨cache', hf'⟩ := feed_eq_line hm' ht' raw
    obtain ⟨hverdict, hnext⟩ := Reading.line_sameAs h ha hm hm' hcarry raw
    rw [← hverdict] at hf'
    refine ⟨_, ⟨_, cache⟩, ⟨_, cache'⟩, call_feed hf, ?_, hnext⟩
    rw [call_feed hf']
    exact congrArg (fun a => Except.ok (a, _)) (answer_of_matches hnext _).symm
  | reset => exact ⟨_, _, _, rfl, rfl, .idle _⟩

/-- Trackers that carry the same answer all calls alike. -/
theorem callAll_of_matches (h : m.SameAs m') (ha : m.Apart) (hm : m.Progressing) (hm' : m'.Progressing)
    (ht : t.Configured m) (ht' : t'.Configured m') (hcarry : t.carry.Matches m m' t'.carry) (calls : List Call) :
    ∃ as t₁ t₁', t.callAll m calls = .ok (as, t₁) ∧ t'.callAll m' calls = .ok (as, t₁') := by
  induction calls generalizing t t' with
  | nil => exact ⟨[], t, t', rfl, rfl⟩
  | cons c calls ih =>
    obtain ⟨a, t₁, t₁', hc, hc', hnext⟩ := call_sameAs h ha hm hm' ht ht' hcarry c
    obtain ⟨as, t₂, t₂', hrest, hrest'⟩ := ih (configured_call ht hc) (configured_call ht' hc') hnext
    exact ⟨a :: as, t₂, t₂', by simp only [callAll, hc, hrest], by simp only [callAll, hc', hrest']⟩

/-- **The order of configuration**: with the same markers in any order and with any repetitions, all calls of a new
tracker are answered alike, if no opening begins with the opening of another pair. -/
theorem callAll_sameAs (line line' : List Text) (block block' : List BlockPair) (continuation continuation' : List Text)
    (h : (Markers.ofLists line block continuation).SameAs (.ofLists line' block' continuation'))
    (ha : (Markers.ofLists line block continuation).Apart) (calls : List Call) :
    ∃ answers t t', start.callAll (.ofLists line block continuation) calls = .ok (answers, t) ∧
      start.callAll (.ofLists line' block' continuation') calls = .ok (answers, t') :=
  callAll_of_matches h ha (Markers.solid_ofLists line block continuation).progressing
    (Markers.solid_ofLists line' block' continuation').progressing (configured_start _) (configured_start _) (.idle _)
    calls

/-- A block is open at place 1 of one list and at place 0 of the other. -/
theorem callAll_sameAs_swapped :
    let m := Markers.ofLists ["//".toList, "#".toList] [⟨"(*".toList, "*)".toList⟩, ⟨"/*".toList, "*/".toList⟩] []
    let m' := Markers.ofLists ["#".toList, "//".toList, "#".toList]
      [⟨"/*".toList, "*/".toList⟩, ⟨"(*".toList, "*)".toList⟩] []
    let calls : List Call := [.feed "x /* a".toList, .feed "b */ (* # c".toList]
    m.SameAs m' ∧ m.Apart ∧ ∃ answers, start.callAll m calls = .ok (answers, ⟨.inBlock 0, ⟨[.at 5, .absent]⟩⟩) ∧
      start.callAll m' calls = .ok (answers, ⟨.inBlock 1, ⟨[.absent, .at 5]⟩⟩) := by
  intro m m' calls
  have h : m.SameAs m' := by constructor <;> simp [m, m', Markers.ofLists, or_comm]
  have ha : m.Apart := by simp [m, Markers.Apart, Markers.ofLists]
  obtain ⟨answers, t, t', hcalls, hcalls'⟩ := callAll_sameAs _ _ _ _ _ _ h ha calls
  refine ⟨h, ha, answers, ?_, ?_⟩
  · have hrun : (start.callAll m calls).map Prod.snd = .ok ⟨.inBlock 0, ⟨[.at 5, .absent]⟩⟩ := by decide
    rw [hcalls] at hrun ⊢
    cases hrun
    rfl
  · have hrun : (start.callAll m' calls).map Prod.snd = .ok ⟨.inBlock 1, ⟨[.absent, .at 5]⟩⟩ := by decide
    rw [hcalls'] at hrun ⊢
    cases hrun
    rfl

end Tracker

end LineCensus
