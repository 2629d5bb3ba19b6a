import LineCensus.Proofs.CarriedState
import LineCensus.Proofs.CursorProgress
import LineCensus.Proofs.Indentation
import LineCensus.Proofs.LeadingComments

/-!
# Pairs that never open

Where an opening stands, every marker stands with which it begins. So a pair whose opening begins with that of an
earlier pair never opens (`Markers.firstOpening?_ne`), and no calls lead to a state in which its block is open
(`Tracker.Reachable.ne_inBlock`). A pair whose opening begins with a line marker opens behind program text only
(`Progress.Enters.behindProgram`), where the line is code in any case, and begins a line comment everywhere else.
-/

namespace LineCensus

/-- A pair is not found where an earlier one opens as well. -/
theorem Markers.firstOpening?_ne {m : Markers} {i j : Nat} {b c : BlockPair} (hb : m.block[j]? = some b)
    (hc : m.block[i]? = some c) (hij : i < j) (hpre : c.opening <+: b.opening) (n k : Nat) (t : Text) :
    m.firstOpening? n t ≠ some (k, j) := by
  intro h
  obtain ⟨s, u, b', -, -, hb', hu, hbefore, -⟩ := firstOpening?_spec h
  cases hb.symm.trans hb'
  exact hbefore i hij c hc (hpre.trans hu)

namespace Progress

variable {m : Markers} {p q : Progress} {j : Nat} {b : BlockPair}

/-- Program text begins at the cursor, and the opening stands behind it. -/
structure BehindProgram (m : Markers) (p : Progress) (opening : Text) : Prop where
  plain : m.startsComment p.cursor.rest = false
  unopened : ∀ c ∈ m.block, ¬ c.opening <+: p.cursor.rest
  behind : ∃ s w, s ≠ [] ∧ p.cursor.rest = s ++ opening ++ w

/-- A block is open behind a step if it was open before, or if the step enters it. -/
theorem inBlock_of_step (hp : p.Ready m) {move : Move} (hs : step m p = .ok move) (hcarry : move.carry = .inBlock j) :
    p.carry = .inBlock j ∨ Enters m p j := by
  cases hopen : p.carry.open? with
  | none => exact .inr ⟨hopen, move, hs, hcarry⟩
  | some i =>
    left
    have houtside : ¬ p.carry.open? = none := by simp [hopen]
    cases handles_of_step hp hs with
    | unclosed _ _ _ => exact hcarry
    | closedLast _ _ => cases hcarry
    | closed _ _ => cases hcarry
    | comment outside _ => exact absurd outside houtside
    | openedLast opens _ => exact absurd opens.outside houtside
    | opened opens _ => exact absurd opens.outside houtside
    | code outside _ _ => exact absurd outside houtside

/-- A block that no step enters stays closed. -/
theorem Resumes.ne_inBlock (hnever : ∀ r : Progress, r.Ready m → ¬ Enters m r j) {n : Nat} (hp : p.Ready m)
    (hcarry : p.carry ≠ .inBlock j) (h : Resumes m n p q) : q.carry ≠ .inBlock j := by
  induction h with
  | refl => exact hcarry
  | step first _ ih =>
    refine ih ((handles_of_step hp first).ready hp) fun hinside => ?_
    exact (inBlock_of_step hp first hinside).elim hcarry (hnever _ hp)

theorem not_enters {i : Nat} {c : BlockPair} (hb : m.block[j]? = some b) (hc : m.block[i]? = some c) (hij : i < j)
    (hpre : c.opening <+: b.opening) (hp : p.Ready m) : ¬ Enters m p j := by
  rw [enters_iff hp]
  rintro ⟨-, -, k, hk⟩
  exact Markers.firstOpening?_ne hb hc hij hpre 0 k _ hk

/-- A pair whose opening begins with a line marker opens behind program text only. -/
theorem Enters.behindProgram (hb : m.block[j]? = some b) {marker : Text} (hmarker : marker ∈ m.line)
    (hpre : marker <+: b.opening) (hp : p.Ready m) (h : Enters m p j) : BehindProgram m p b.opening := by
  obtain ⟨-, plain, k, hk⟩ := (enters_iff hp).1 h
  obtain ⟨s, u, b', hs, -, hb', hu, -, hmin⟩ := Markers.firstOpening?_spec hk
  cases hb.symm.trans hb'
  have hne : s ≠ [] := by
    rintro rfl
    rw [List.nil_append] at hs
    rw [Markers.startsComment_iff.2 ⟨marker, hmarker, hs ▸ hpre.trans hu⟩] at plain
    cases plain
  refine ⟨plain, fun c hc hopens => ?_, ?_⟩
  · exact hne (List.length_eq_zero_iff.1 (Nat.le_zero.1 (hmin [] _ rfl c hc hopens)))
  · obtain ⟨w, rfl⟩ := hu
    exact ⟨s, w, hne, by rw [hs, List.append_assoc]⟩

end Progress

namespace Tracker

variable {m : Markers} {t t' : Tracker} {raw : Text} {p : Progress} {j : Nat}

theorem feed_ne_inBlock (hnever : ∀ r : Progress, r.Ready m → ¬ Progress.Enters m r j) (ht : t.Configured m)
    (hcarry : t.carry ≠ .inBlock j) {v : Verdict} (hf : t.feed m raw = .ok (v, t')) : t'.carry ≠ .inBlock j := by
  have hd := feed_decides hf
  generalize t'.carry = carry at hd ⊢
  cases hd with
  | blankInside inside _ => exact inside ▸ hcarry
  | blank _ => simp
  | continued _ => exact continued_ne_inBlock m _ j
  | settled _ left reached settles =>
    have hstart := ready_enter ht (Text.trimIndent_trimIndent raw) left
    intro hinside
    exact (Progress.inBlock_of_step (reached.ready hstart) settles hinside).elim
      (reached.ne_inBlock hnever hstart hcarry) (hnever _ (reached.ready hstart))

/-- No calls lead to a state in which a block is open that no step enters. -/
theorem Reachable.ne_inBlock (hnever : ∀ r : Progress, r.Ready m → ¬ Progress.Enters m r j) (ht : t.Reachable m) :
    t.carry ≠ .inBlock j := by
  induction ht with
  | start => nofun
  | reset _ _ => nofun
  | feed h hf ih => exact feed_ne_inBlock hnever h.configured ih hf

/-- A line on which program text is reached is code. -/
theorem Passes.feed_code (hm : m.Progressing) (ht : t.Configured m) (hp : t.Passes m raw p)
    (outside : p.carry.open? = none) {opening : Text} (hbehind : p.BehindProgram m opening) :
    ∃ t', t.feed m raw = .ok (.code, t') := by
  obtain ⟨cache, hfeed⟩ := hp.feed_eq hm ht
  have henter : LeadingComments.enter? m p.cursor.rest = none := by
    rw [LeadingComments.enter?, Option.map_eq_none_iff, List.find?_eq_none]
    intro c hc hopens
    exact hbehind.unopened c hc (List.isPrefixOf_iff_prefix.1 hopens)
  have hread : (p.reading hm).1 = .code := by
    rw [(Progress.reading_outside hm outside).1]
    exact LeadingComments.read_of_enter?_none hm (Bool.eq_false_iff.1 hbehind.plain) henter
  simp only [Progress.outcome, hread, ite_self] at hfeed
  exact ⟨_, hfeed⟩

/-- A line marker behind the indentation makes a line a comment, unless it stands inside of a block. -/
theorem feed_outside_line (hsolid : m.Solid) (ht : t.Configured m) (outside : t.carry.open? = none) {marker : Text}
    (hmarker : marker ∈ m.line) (hpre : marker <+: Text.trimIndent raw) :
    t.EndsInComment m raw false (Text.trimIndent raw) := by
  obtain ⟨carry, cache⟩ := t
  cases carry with
  | idle last => exact feed_idle_line hsolid ht rfl hmarker hpre
  | continuing =>
    have hleft : Text.trimIndent raw ≠ [] := by
      intro hnil
      exact hsolid.line marker hmarker (List.prefix_nil.1 (hnil ▸ hpre))
    unfold EndsInComment
    simp only [feed, continued, if_neg hleft]
    cases m.continues (Text.trimIndent raw) <;> exact ⟨_, rfl, rfl⟩
  | inBlock pair => cases outside

/-- **Pairs that never open**: a pair whose opening begins with that of an earlier pair is entered at no place of
any line, and its block is open neither there nor behind any calls. A pair whose opening begins with a line marker
is entered behind program text only, which makes the line code; where a line or what is left of it outside of
blocks begins with this opening behind the indentation, it is a line comment. An opening that begins with neither
a space nor a tab is always behind the indentation. -/
theorem never_opens (line : List Text) (block : List BlockPair) (continuation : List Text) {j : Nat} {b : BlockPair}
    (hb : (Markers.ofLists line block continuation).block[j]? = some b) :
    let m := Markers.ofLists line block continuation
    (∀ i c, i < j → m.block[i]? = some c → c.opening <+: b.opening →
      (∀ t : Tracker, t.Reachable m → ∀ raw p, t.Passes m raw p →
        ¬ Progress.Enters m p j ∧ p.carry ≠ .inBlock j) ∧
      ∀ calls, ∃ answers t, start.callAll m calls = .ok (answers, t) ∧ t.carry ≠ .inBlock j) ∧
    (∀ marker ∈ m.line, marker <+: b.opening → ∀ t : Tracker, t.Reachable m → ∀ raw,
      (∀ p, t.Passes m raw p → Progress.Enters m p j →
        p.BehindProgram m b.opening ∧ ∃ t', t.feed m raw = .ok (.code, t')) ∧
      (∀ p, t.Passes m raw p → p.carry.open? = none → b.opening <+: p.cursor.rest →
        t.EndsInComment m raw p.codeSeen p.cursor.rest) ∧
      (t.carry.open? = none → b.opening <+: Text.trimIndent raw →
        t.EndsInComment m raw false (Text.trimIndent raw))) ∧
    (Text.isIndented b.opening = false → ∀ text, b.opening <+: text → b.opening <+: Text.trimIndent text) := by
  intro m
  have hsolid : m.Solid := Markers.solid_ofLists line block continuation
  have hm := hsolid.progressing
  refine ⟨fun i c hij hc hpre => ?_, fun marker hmarker hpre t ht raw => ⟨?_, ?_, ?_⟩, ?_⟩
  · have hnever : ∀ p : Progress, p.Ready m → ¬ Progress.Enters m p j :=
      fun p hp => Progress.not_enters hb hc hij hpre hp
    refine ⟨fun t ht raw p hp => ⟨hnever p (hp.ready ht.configured), ?_⟩, fun calls => ?_⟩
    · obtain ⟨n, hr⟩ := hp.reached
      have hstart := ready_enter ht.configured (Text.trimIndent_trimIndent raw) (Text.trimIndent_ne_nil hp.left)
      exact hr.ne_inBlock hnever hstart (ht.ne_inBlock hnever)
    · obtain ⟨answers, t, hcalls, -⟩ := exists_callAll hm (configured_start m) calls
      exact ⟨answers, t, hcalls, (Reachable.start.callAll hcalls).ne_inBlock hnever⟩
  · intro p hp henters
    have hbehind := henters.behindProgram hb hmarker hpre (hp.ready ht.configured)
    exact ⟨hbehind, hp.feed_code hm ht.configured henters.1 hbehind⟩
  · intro p hp outside hopening
    exact hp.endsInComment hm ht.configured outside (Markers.startsComment_iff.2 ⟨marker, hmarker, hpre.trans hopening⟩)
  · intro outside hopening
    exact feed_outside_line hsolid ht.configured outside hmarker (hpre.trans hopening)
  · intro hplain text htext
    rwa [Text.trimIndent_eq_self htext (hsolid.opening b (List.mem_of_getElem? hb)) hplain]

/-- The second pair never opens, and the third one opens behind program text. -/
theorem never_opens_brackets :
    let block : List BlockPair := [⟨"/*".toList, "*/".toList⟩, ⟨"/**".toList, "**/".toList⟩, ⟨"--[[".toList, "]]".toList⟩]
    let m := Markers.ofLists ["--".toList] block []
    let p : Progress := ⟨.idle .comment, ⟨[.at 0, .at 0, .at 7]⟩, ⟨5, "x --[[ a".toList⟩, false⟩
    (∃ answers t, start.callAll m [.feed "x /** a".toList] = .ok (answers, t) ∧ t.carry ≠ .inBlock 1) ∧
      start.Passes m "/**/ x --[[ a".toList p ∧ Progress.Enters m p 2 ∧ p.BehindProgram m "--[[".toList ∧
      start.EndsInComment m "\t--[[ a ]] b".toList false "--[[ a ]] b".toList := by
  intro block m p
  have hshadowed := (never_opens ["--".toList] block [] (j := 1) rfl).1 0 _ (by decide) rfl ⟨"*".toList, rfl⟩
  have hmarker := (never_opens ["--".toList] block [] (j := 2) rfl).2.1 "--".toList List.mem_cons_self
    ⟨"[[".toList, rfl⟩ start .start
  have hpasses : start.Passes m "/**/ x --[[ a".toList p := ⟨nofun, by decide, 2, .step rfl (.one rfl)⟩
  have henters : Progress.Enters m p 2 := ⟨rfl, _, rfl, rfl⟩
  refine ⟨hshadowed.2 _, hpasses, henters, ((hmarker _).1 p hpasses henters).1, ?_⟩
  exact (hmarker _).2.2 rfl ⟨" a ]] b".toList, rfl⟩

/-- An opening and the line marker with which it begins are both hidden if they begin with a space. -/
theorem hidden_line_marker :
    ¬ ∀ (line : List Text) (block : List BlockPair) (continuation : List Text) (marker : Text) (b : BlockPair)
      (t : Tracker) (last : Verdict) (raw : Text),
      let m := Markers.ofLists line block continuation
      marker ∈ m.line → b ∈ m.block → marker <+: b.opening → t.Reachable m → t.carry = .idle last →
        b.opening <+: raw → ∃ v t', t.feed m raw = .ok (v, t') ∧ (v = .comment ∨ v = .continuing) := by
  intro h
  obtain ⟨v, t', hfeed, hv⟩ := h [" #".toList] [⟨" #[".toList, "]".toList⟩] [] " #".toList ⟨" #[".toList, "]".toList⟩
    start .code " #[ x".toList List.mem_cons_self List.mem_cons_self ⟨"[".toList, rfl⟩ .start rfl ⟨" x".toList, rfl⟩
  have hcode : (start.feed (.ofLists [" #".toList] [⟨" #[".toList, "]".toList⟩] []) " #[ x".toList).map Prod.fst =
      .ok .code := by decide
  rw [hfeed] at hcode
  cases hcode
  simp at hv

end Tracker

end LineCensus
