import Mathlib.Data.List.Find
import Mathlib.Data.List.TakeWhile
import LineCensus.Proofs.LineReading

/-!
# The comments in front decide the verdict

`LeadingComments.strip` takes the closed block comments off the front of a line and says where this
stops: at a line comment, in a block that stays open, at program text, or at the end of the line.
Outside of blocks the verdict on a line is that of the place where stripping stops
(`verdict_read`), whatever is read behind it. `strip_append_congr` says how far that place looks
ahead: to the length of the longest marker that can begin there (`Markers.reach`).
-/

namespace LineCensus

/-- The length of the longest marker that can begin outside of blocks, and at least one. -/
def Markers.reach (m : Markers) : Nat :=
  ((m.line ++ m.block.map BlockPair.opening).map List.length).foldr max 1

namespace LeadingComments

/-- Where stripping the comments in front of a line stops. -/
inductive Stop where
  /-- At a line comment, which is the rest of the line. -/
  | comment (rest : Text)
  /-- In a block comment that is not closed on the line. -/
  | openBlock
  /-- At program text, with which the rest of the line begins. -/
  | program (rest : Text)
  /-- Behind the last block comment, with nothing left of the line. -/
  | nothing
  deriving DecidableEq, Repr

/-- The verdict on a line whose comments in front end so. -/
def Stop.verdict (m : Markers) : Stop → Verdict
  | comment rest => if m.continues rest then .continuing else .comment
  | openBlock => .block
  | program _ => .code
  | nothing => .comment

/-- The pair whose block comment begins a text, the first configured one, and the text behind its
opening without indentation. -/
def enter? (m : Markers) (t : Text) : Option (BlockPair × Text) :=
  (m.block.find? fun p => p.opening.isPrefixOf t).map fun p => (p, Text.trimIndent (t.drop p.opening.length))

theorem enter?_eq_some {m : Markers} {t u : Text} {p : BlockPair} (h : enter? m t = some (p, u)) :
    p ∈ m.block ∧ ∃ w, t = p.opening ++ w ∧ u = Text.trimIndent w := by
  obtain ⟨q, hq, he⟩ := Option.map_eq_some_iff.1 h
  cases he
  have hpre := List.find?_some hq
  obtain ⟨w, hw⟩ := List.isPrefixOf_iff_prefix.1 hpre
  exact ⟨List.mem_of_find?_eq_some hq, w, hw.symm, by rw [← hw, List.drop_left]⟩

/-- A closed block comment in front takes characters away. -/
theorem length_behind_lt {m : Markers} (hm : m.Progressing) {t u v : Text} {p : BlockPair}
    (h : enter? m t = some (p, u)) (hv : Reading.after? p.closing u = some v) (hu : u ≠ []) :
    v.length < t.length := by
  obtain ⟨hp, w, rfl, rfl⟩ := enter?_eq_some h
  obtain ⟨s, x, hs, rfl, -⟩ := Reading.after?_eq_some hv
  have hw := Reading.length_trimIndent_le w
  have hx := Reading.length_trimIndent_le x
  have hpos := List.length_pos_iff.2 hu
  rw [hs] at hw hpos
  simp only [List.length_append] at hw hpos ⊢
  rcases hm p hp with ho | hc
  · have := List.length_pos_iff.2 ho
    omega
  · have := List.length_pos_iff.2 hc
    omega

/-- Strips the comments in front of a text that has lost its indentation: a block comment of the
first pair that opens there, through its first closing text and the indentation behind, and so on. -/
def strip (m : Markers) (hm : m.Progressing) (t : Text) : Stop :=
  if t = [] then .nothing
  else if m.startsComment t then .comment t
  else
    match _ : enter? m t with
    | none => .program t
    | some (p, u) =>
      if _ : u = [] then .openBlock
      else
        match _ : Reading.after? p.closing u with
        | none => .openBlock
        | some v => strip m hm v
  termination_by t.length
  decreasing_by exact length_behind_lt hm ‹_› ‹_› ‹_›

theorem strip_eq (m : Markers) (hm : m.Progressing) (t : Text) :
    strip m hm t =
      if t = [] then .nothing
      else if m.startsComment t then .comment t
      else
        match enter? m t with
        | none => .program t
        | some (p, u) =>
          if u = [] then .openBlock
          else
            match Reading.after? p.closing u with
            | none => .openBlock
            | some v => strip m hm v := by
  rw [strip]
  split
  · rfl
  · split
    · rfl
    · split <;> rename_i h <;> rw [h]
      simp only [dite_eq_ite]
      split
      · rfl
      · split <;> rename_i hv <;> rw [hv]

/-! ### What the verdict is -/

theorem find?_opening_eq (m : Markers) (t : Text) :
    (m.block.find? fun p => p.opening.isPrefixOf t) =
      (m.block.findIdx? fun p => p.opening.isPrefixOf t).bind (m.block[·]?) :=
  List.find?_eq_bind_findIdx?_getElem?

/-- A text with which no comment begins reads as code. -/
theorem read_of_enter?_none {m : Markers} (hm : m.Progressing) {t : Text} (hc : ¬ m.startsComment t = true)
    (hf : enter? m t = none) : (Reading.read m hm none t).1 = .code := by
  cases ho : m.firstOpening? 0 t with
  | none => rw [Reading.read_code m hm hc (Reading.opening?_of_none ho)]
  | some found =>
    obtain ⟨k, i⟩ := found
    obtain ⟨b, s, w, hb, -, -, hopen⟩ := Reading.opening?_of_firstOpening? ho
    have hk : k ≠ 0 := by
      rintro rfl
      have hi := Markers.firstOpening?_zero_iff.1 ho
      simp [enter?, find?_opening_eq, hi, hb] at hf
    rw [Reading.read_opening m hm hc hopen]
    simp only [if_pos (Nat.pos_of_ne_zero hk)]

/-- A block that begins a text is the one that opens first in it. -/
theorem opening?_of_enter? {m : Markers} {t u : Text} {p : BlockPair} (hf : enter? m t = some (p, u)) :
    ∃ i, m.block[i]? = some p ∧ Reading.opening? m t = some (0, i, u) := by
  obtain ⟨q, hq, he⟩ := Option.map_eq_some_iff.1 hf
  cases he
  rw [find?_opening_eq, Option.bind_eq_some_iff] at hq
  obtain ⟨i, hi, hp⟩ := hq
  refine ⟨i, hp, ?_⟩
  simp [Reading.opening?, Markers.firstOpening?_zero_iff.2 hi, hp]

/-- The verdict on a text outside of blocks is that of the place where stripping stops. -/
theorem verdict_read {m : Markers} (hm : m.Progressing) (t : Text) (ht : t ≠ []) :
    (Reading.read m hm none t).1 = (strip m hm t).verdict m := by
  induction t using strip.induct m hm with
  | case1 => exact absurd rfl ht
  | case2 t _ hc =>
    rw [strip_eq, Reading.read_comment m hm hc, if_neg ht, if_pos hc, Stop.verdict]
    split <;> rfl
  | case3 t _ hc hf =>
    rw [strip_eq, if_neg ht, if_neg hc, hf]
    exact read_of_enter?_none hm hc hf
  | case4 t _ hc p hf =>
    obtain ⟨i, -, ho⟩ := opening?_of_enter? hf
    rw [strip_eq, Reading.read_opening m hm hc ho, if_neg ht, if_neg hc, hf]
    rfl
  | case5 t _ hc p u hf hu hv =>
    obtain ⟨i, hp, ho⟩ := opening?_of_enter? hf
    have hv' : Reading.afterClosing? m i u = none := by simp [Reading.afterClosing?, hp, hv]
    rw [strip_eq, Reading.read_opening m hm hc ho, if_neg ht, if_neg hc, hf]
    simp only [hu, if_false, hv, Reading.read_some, hv']
    rfl
  | case6 t _ hc p u hf hu v hv ih =>
    obtain ⟨i, hp, ho⟩ := opening?_of_enter? hf
    have hv' : Reading.afterClosing? m i u = some v := by simp [Reading.afterClosing?, hp, hv]
    rw [strip_eq, Reading.read_opening m hm hc ho, if_neg ht, if_neg hc, hf]
    simp only [hu, if_false, hv, Reading.read_some, hv']
    by_cases hnil : v = []
    · subst hnil
      rw [strip_eq]
      rfl
    · simp only [hnil, if_false]
      exact ih hnil

end LeadingComments

/-! ### How far the place looks ahead -/

namespace Markers

theorem le_foldr_max {l : List Nat} {n b : Nat} (h : n ∈ l) : n ≤ l.foldr max b := by
  induction l with
  | nil => cases h
  | cons k l ih =>
    rw [List.foldr_cons]
    cases h with
    | head => exact Nat.le_max_left ..
    | tail _ h => exact Nat.le_trans (ih h) (Nat.le_max_right ..)

theorem length_le_reach_of_line {m : Markers} {t : Text} (h : t ∈ m.line) : t.length ≤ m.reach :=
  le_foldr_max (List.mem_map_of_mem (List.mem_append_left _ h))

theorem length_le_reach_of_block {m : Markers} {p : BlockPair} (h : p ∈ m.block) : p.opening.length ≤ m.reach :=
  le_foldr_max (List.mem_map_of_mem (List.mem_append_right _ (List.mem_map_of_mem h)))

theorem one_le_reach (m : Markers) : 1 ≤ m.reach := by
  unfold reach
  induction (m.line ++ m.block.map BlockPair.opening).map List.length with
  | nil => exact Nat.le_refl 1
  | cons k l ih => exact Nat.le_trans ih (Nat.le_max_right ..)

end Markers

namespace LeadingComments

section Alike

variable {m : Markers} {s s' : Text}

theorem take_append_congr {n : Nat} (x : Text) (h : s'.take n = s.take n) :
    (x ++ s').take n = (x ++ s).take n := by
  have hx : s'.take (n - x.length) = s.take (n - x.length) := by
    have := congrArg (List.take (n - x.length)) h
    rwa [List.take_take, List.take_take, Nat.min_eq_left (Nat.sub_le ..)] at this
  rw [List.take_append, List.take_append, hx]

theorem isPrefixOf_congr {n : Nat} {t : Text} (ht : t.length ≤ n) (h : s'.take n = s.take n) :
    t.isPrefixOf s' = t.isPrefixOf s := by
  have hpre : ∀ x : Text, t.isPrefixOf x = true ↔ t <+: x.take n := by
    intro x
    rw [List.isPrefixOf_iff_prefix, List.prefix_take_iff]
    exact ⟨fun hp => ⟨hp, ht⟩, fun hp => hp.1⟩
  rw [Bool.eq_iff_iff, hpre, hpre, h]

theorem startsComment_congr (h : s'.take m.reach = s.take m.reach) : m.startsComment s' = m.startsComment s := by
  rw [Bool.eq_iff_iff, Markers.startsComment, Markers.startsComment, List.any_eq_true, List.any_eq_true]
  apply exists_congr
  intro t
  apply and_congr_right
  intro ht
  rw [isPrefixOf_congr (Markers.length_le_reach_of_line ht) h]

theorem find?_opening_congr (h : s'.take m.reach = s.take m.reach) :
    (m.block.find? fun p => p.opening.isPrefixOf s') = m.block.find? fun p => p.opening.isPrefixOf s :=
  List.find?_congr fun _ hp => isPrefixOf_congr (Markers.length_le_reach_of_block hp) h

theorem head?_congr (h : s'.take m.reach = s.take m.reach) : s'.head? = s.head? := by
  have hpos : m.reach ≠ 0 := Nat.ne_of_gt m.one_le_reach
  have := congrArg List.head? h
  rwa [List.head?_take, List.head?_take, if_neg hpos, if_neg hpos] at this

theorem ne_nil_congr (h : s'.take m.reach = s.take m.reach) (hs : s ≠ []) : s' ≠ [] := by
  rintro rfl
  exact hs (List.head?_eq_none_iff.1 (head?_congr h).symm)

/-- Texts that begin alike are both indented, or none of them is. -/
theorem trimmed_congr (h : s'.take m.reach = s.take m.reach) (hs : s ≠ []) (ht : Text.trimIndent s = s) :
    Text.trimIndent s' = s' := by
  have hhead := head?_congr h
  obtain ⟨c, r, rfl⟩ := List.exists_cons_of_ne_nil hs
  cases s' with
  | nil => rfl
  | cons d r' =>
    cases hhead
    simp [Text.trimIndent, Text.isIndent_of_trimIndent ht]

theorem append_trimIndent (t : Text) :
    ∃ b, t = b ++ Text.trimIndent t ∧ ∀ x, Text.trimIndent (b ++ x) = Text.trimIndent x := by
  refine ⟨t.takeWhile Text.isIndent, (List.takeWhile_append_dropWhile).symm, fun x => ?_⟩
  exact List.dropWhile_append_of_pos fun c hc => List.mem_takeWhile_imp hc

/-- A block begins alike in texts that go on alike behind its opening. -/
theorem enter?_congr {t u : Text} {p : BlockPair} (h : enter? m t = some (p, u)) (hu : u ≠ []) :
    ∃ x, t = x ++ u ∧ ∀ u', u'.take m.reach = u.take m.reach → enter? m (x ++ u') = some (p, u') := by
  have hfind := h
  obtain ⟨-, w, rfl, rfl⟩ := enter?_eq_some h
  obtain ⟨b, hb, htrim⟩ := append_trimIndent w
  have ht : p.opening ++ w = p.opening ++ b ++ Text.trimIndent w := by rw [List.append_assoc, ← hb]
  refine ⟨p.opening ++ b, ht, fun u' hu' => ?_⟩
  have htake := take_append_congr (p.opening ++ b) hu'
  rw [← ht] at htake
  obtain ⟨q, hq, he⟩ := Option.map_eq_some_iff.1 hfind
  obtain ⟨rfl, -⟩ := Prod.mk.inj he
  rw [enter?, find?_opening_congr htake, hq, Option.map_some, List.append_assoc, List.drop_left, htrim,
    trimmed_congr hu' hu (Text.trimIndent_trimIndent w)]

/-- A block ends alike in texts that go on alike behind its closing text. -/
theorem after?_congr {c u v : Text} (h : Reading.after? c u = some v) (hv : v ≠ []) :
    ∃ x, u = x ++ v ∧ ∀ v', v'.take m.reach = v.take m.reach → Reading.after? c (x ++ v') = some v' := by
  obtain ⟨s, w, rfl, rfl, hocc⟩ := Reading.after?_eq_some h
  obtain ⟨b, hb, htrim⟩ := append_trimIndent w
  refine ⟨s ++ (c ++ b), ?_, fun v' hv' => ?_⟩
  · rw [List.append_assoc, List.append_assoc, ← hb]
  · rw [List.append_assoc, List.append_assoc, Reading.after?,
      Text.occurrence?_append_congr _ hocc (Nat.zero_add _).symm, Option.map_some]
    simp only [List.drop_left, htrim, trimmed_congr hv' hv (Text.trimIndent_trimIndent w)]

end Alike

/-- What holds of the program text `rest` and is handed on to the front by every closed block comment
holds of all texts whose stripping stops at `rest`. -/
@[elab_as_elim] theorem strip_program_induction {m : Markers} {hm : m.Progressing} {rest : Text} {motive : Text → Prop}
    (program : rest ≠ [] → ¬ m.startsComment rest = true → enter? m rest = none → motive rest)
    (closed : ∀ t p u v, t ≠ [] → ¬ m.startsComment t = true → enter? m t = some (p, u) → u ≠ [] →
      Reading.after? p.closing u = some v → v ≠ [] → motive v → motive t)
    {t : Text} (h : strip m hm t = .program rest) : motive t := by
  induction t using strip.induct m hm with
  | case1 =>
    rw [strip_eq] at h
    cases h
  | case2 t hne hc =>
    rw [strip_eq, if_neg hne, if_pos hc] at h
    cases h
  | case3 t hne hc hf =>
    rw [strip_eq, if_neg hne, if_neg hc, hf] at h
    cases h
    exact program hne hc hf
  | case4 t hne hc p hf =>
    rw [strip_eq, if_neg hne, if_neg hc, hf] at h
    cases h
  | case5 t hne hc p u hf hu hv =>
    rw [strip_eq, if_neg hne, if_neg hc, hf] at h
    simp only [hu, if_false, hv] at h
    cases h
  | case6 t hne hc p u hf hu v hv ih =>
    rw [strip_eq, if_neg hne, if_neg hc, hf] at h
    simp only [hu, if_false, hv] at h
    have hvnil : v ≠ [] := by
      rintro rfl
      rw [strip_eq] at h
      cases h
    exact closed t p u v hne hc hf hu hv hvnil (ih h)

/-- Program text is not empty, and no comment begins with it. -/
theorem strip_eq_program {m : Markers} (hm : m.Progressing) {t rest : Text} (h : strip m hm t = .program rest) :
    rest ≠ [] ∧ m.startsComment rest = false ∧ ∀ p ∈ m.block, ¬ p.opening <+: rest := by
  refine strip_program_induction ?_ (fun _ _ _ _ _ _ _ _ _ _ ih => ih) h
  intro hne hc hf
  refine ⟨hne, Bool.not_eq_true _ ▸ hc, fun p hp hpre => ?_⟩
  rw [enter?, Option.map_eq_none_iff, List.find?_eq_none] at hf
  exact hf p hp (List.isPrefixOf_iff_prefix.2 hpre)

/-- A line that reaches program text reaches it whatever stands behind the first characters of that
text: as many as the longest marker that could begin there has. -/
theorem strip_append_congr {m : Markers} (hm : m.Progressing) {t rest : Text} (h : strip m hm t = .program rest) :
    ∃ front, t = front ++ rest ∧ ∀ rest', rest'.take m.reach = rest.take m.reach →
      strip m hm (front ++ rest') = .program rest' := by
  refine strip_program_induction ?_ ?_ h
  · intro hne hc hf
    refine ⟨[], rfl, fun rest' hrest => ?_⟩
    have hnil := ne_nil_congr hrest hne
    have henter : enter? m rest' = none := by
      rw [enter?, find?_opening_congr hrest]
      simpa [enter?] using hf
    rw [List.nil_append, strip_eq, if_neg hnil, startsComment_congr hrest, if_neg hc, henter]
  · intro t p u v hne hc hf hu hv hvnil ih
    obtain ⟨x, rfl, henter⟩ := enter?_congr hf hu
    obtain ⟨y, rfl, hafter⟩ := after?_congr (m := m) hv hvnil
    obtain ⟨front, rfl, hstrip⟩ := ih
    refine ⟨x ++ (y ++ front), by simp only [List.append_assoc], fun rest' hr => ?_⟩
    -- the markers in front see as much of each of these texts as they saw before
    have hfront := take_append_congr front hr
    have hblock := take_append_congr y hfront
    have hline := take_append_congr x hblock
    simp only [List.append_assoc]
    rw [strip_eq, if_neg (ne_nil_congr hline hne), startsComment_congr hline, if_neg hc, henter _ hblock]
    simp only [ne_nil_congr hblock hu, if_false, hafter _ hfront]
    exact hstrip rest' hr

theorem verdict_eq_code_iff {m : Markers} {stop : Stop} : stop.verdict m = .code ↔ ∃ rest, stop = .program rest := by
  cases stop with
  | comment rest =>
    simp only [Stop.verdict, reduceCtorEq, exists_false, iff_false]
    split <;> nofun
  | openBlock => simp [Stop.verdict]
  | program rest => simp [Stop.verdict]
  | nothing => simp [Stop.verdict]

/-- An idle tracker gives a line that is not blank the verdict of the place where stripping stops. -/
theorem feed_idle {m : Markers} (hm : m.Progressing) (last : Verdict) (cache : StartCache) {raw : Text}
    (hraw : Text.trimIndent raw ≠ []) :
    ∃ t, Tracker.feed m ⟨.idle last, cache⟩ raw = .ok ((strip m hm (Text.trimIndent raw)).verdict m, t) := by
  obtain ⟨cache', hfeed⟩ := Tracker.feed_eq_line hm (t := ⟨.idle last, cache⟩) (by rintro _ ⟨⟩) raw
  have hline : Reading.line m hm (.idle last) raw = Reading.read m hm none (Text.trimIndent raw) := by
    simp only [Reading.line, hraw, if_false]
  rw [← verdict_read hm _ hraw, ← hline]
  exact ⟨_, hfeed⟩

/-- **The comments in front decide**: the verdict on a line that is not blank and is read outside of
blocks is that of the place where stripping its comments stops. It is code exactly when this place
is program text, and then whatever stands behind the beginning of that text. -/
theorem feed_idle_strip (line : List Text) (block : List BlockPair) (continuation : List Text) (last : Verdict)
    (cache : StartCache) (raw : Text) (hraw : Text.isBlank raw = false) :
    let m := Markers.ofLists line block continuation
    let stop := strip m (Markers.solid_ofLists line block continuation).progressing (Text.trimIndent raw)
    ∃ v t, Tracker.feed m ⟨.idle last, cache⟩ raw = .ok (v, t) ∧ v = stop.verdict m ∧
      (v = .code ↔ ∃ rest, stop = .program rest) ∧
      ∀ rest, stop = .program rest →
        (rest ≠ [] ∧ m.startsComment rest = false ∧ ∀ p ∈ m.block, ¬ p.opening <+: rest) ∧
        ∃ front, raw = front ++ rest ∧ ∀ rest', rest'.take m.reach = rest.take m.reach →
          ∃ t', Tracker.feed m ⟨.idle last, cache⟩ (front ++ rest') = .ok (.code, t') := by
  intro m stop
  have hm : m.Progressing := (Markers.solid_ofLists line block continuation).progressing
  have hne : Text.trimIndent raw ≠ [] := by
    rw [Ne, Text.trimIndent_eq_nil_iff, hraw]
    exact Bool.false_ne_true
  obtain ⟨t, hfeed⟩ := feed_idle hm last cache hne
  refine ⟨stop.verdict m, t, hfeed, rfl, verdict_eq_code_iff, fun rest hstop => ?_⟩
  obtain ⟨front, hfront, hstrip⟩ := strip_append_congr hm hstop
  obtain ⟨b, hb, htrim⟩ := append_trimIndent raw
  refine ⟨strip_eq_program hm hstop, b ++ front, ?_, fun rest' hr => ?_⟩
  · rw [List.append_assoc, ← hfront, ← hb]
  · have hagree := take_append_congr front hr
    rw [← hfront] at hagree
    have htrim' : Text.trimIndent (b ++ front ++ rest') = front ++ rest' := by
      rw [List.append_assoc, htrim, trimmed_congr hagree hne (Text.trimIndent_trimIndent raw)]
    have hne' : Text.trimIndent (b ++ front ++ rest') ≠ [] := htrim' ▸ ne_nil_congr hagree hne
    obtain ⟨t', hfeed'⟩ := feed_idle hm last cache hne'
    refine ⟨t', ?_⟩
    rw [hfeed', htrim', hstrip rest' hr]
    rfl

/-- Program text behind two comments, and in front of a third that stays open. -/
theorem feed_idle_strip_two_comments :
    let block : List BlockPair := [⟨"/**".toList, "**/".toList⟩, ⟨"/*".toList, "*/".toList⟩]
    let raw := " /*a*/\t/**b**/ x /* y".toList
    Text.isBlank raw = false ∧
      ∃ rest, strip (.ofLists ["//".toList] block []) (Markers.solid_ofLists _ _ _).progressing
        (Text.trimIndent raw) = .program rest := by
  intro block raw
  have hraw : Text.isBlank raw = false := by decide
  refine ⟨hraw, ?_⟩
  obtain ⟨v, t, hfeed, -, hcode, -⟩ := feed_idle_strip ["//".toList] block [] .whitespace .empty raw hraw
  refine hcode.1 ?_
  have hrun : (Tracker.feed (.ofLists ["//".toList] block []) ⟨.idle .whitespace, .empty⟩ raw).map Prod.fst =
      .ok .code := by decide
  rw [hfeed] at hrun
  exact Except.ok.inj hrun

end LeadingComments

end LineCensus
