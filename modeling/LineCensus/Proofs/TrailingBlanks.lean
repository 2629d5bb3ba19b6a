import Mathlib.Data.List.Infix
import LineCensus.Proofs.LineReading

/-!
# Blanks at the end of a line

No search finds a marker in blanks, or one that reaches into them, if no marker ends with a space or a tab
(`Markers.Unpadded`). So a line with blanks at its end is searched as the line without them, and what is left
behind a marker is left with the same blanks, or is blank (`Text.padded`). Only a continuation marker has to stand
at the very end: with blanks behind it, it stands there no more (`Markers.continues_append`), and the line reads as
with no continuation markers (`Reading.line_append`).
-/

namespace LineCensus

namespace Text

/-- The text ends with a space or a tab. -/
def endsBlank (t : Text) : Bool := t.getLast?.any isIndent

/-- A text without its indentation, with blanks at its end; alone, they are indentation. -/
def padded (blanks t : Text) : Text := if t = [] then [] else t ++ blanks

variable {marker t blanks : Text}

theorem trimIndent_append (hblanks : isBlank blanks = true) (t : Text) :
    trimIndent (t ++ blanks) = padded blanks (trimIndent t) := by
  have hnil := trimIndent_eq_nil_iff.2 hblanks
  simp only [trimIndent] at hnil
  by_cases ht : t.dropWhile isIndent = []
  · simp [padded, trimIndent, List.dropWhile_append, ht, hnil]
  · simp [padded, trimIndent, List.dropWhile_append, ht]

@[simp] theorem padded_nil : padded blanks [] = [] := rfl

theorem padded_of_ne_nil (h : t ≠ []) : padded blanks t = t ++ blanks := if_neg h

theorem padded_ne_nil (h : t ≠ []) : padded blanks t ≠ [] := by
  rw [padded_of_ne_nil h]
  exact List.append_ne_nil_of_left_ne_nil h blanks

/-- A marker that ends with neither a space nor a tab does not reach into blanks. -/
theorem prefix_append_iff (hblanks : isBlank blanks = true) (hmarker : endsBlank marker = false) :
    marker <+: t ++ blanks ↔ marker <+: t := by
  induction blanks generalizing t with
  | nil => rw [List.append_nil]
  | cons c blanks ih =>
    simp only [isBlank, List.all_cons, Bool.and_eq_true] at hblanks
    rw [← List.singleton_append, ← List.append_assoc, ih hblanks.2, List.prefix_concat_iff, or_iff_right]
    rintro rfl
    simp [endsBlank, hblanks.1] at hmarker

/-- A marker that begins nowhere in a text begins nowhere in the blanks at its end. -/
theorem not_prefix_of_isBlank (hblanks : isBlank blanks = true) (hne : marker ≠ []) (hmarker : endsBlank marker = false) :
    ¬ marker <+: blanks := by
  rw [← List.nil_append blanks, prefix_append_iff hblanks hmarker, List.prefix_nil]
  exact hne

/-- A search does not see the blanks at the end. -/
theorem occurrence?_append (hblanks : isBlank blanks = true) (hne : marker ≠ []) (hmarker : endsBlank marker = false)
    (n : Nat) (t : Text) :
    occurrence? marker n (t ++ blanks) = (occurrence? marker n t).map fun p => (p.1, p.2 ++ blanks) := by
  induction t generalizing n with
  | nil =>
    have habsent : occurrence? marker n blanks = none := by
      rw [occurrence?_eq_none_iff]
      rintro s u rfl
      simp only [isBlank, List.all_append, Bool.and_eq_true] at hblanks
      exact not_prefix_of_isBlank hblanks.2 hne hmarker
    have hnil : ¬ marker.isPrefixOf [] = true := by
      rw [List.isPrefixOf_iff_prefix, List.prefix_nil]
      exact hne
    rw [List.nil_append, habsent, occurrence?, if_neg hnil]
    rfl
  | cons c t ih =>
    have hstands : marker.isPrefixOf (c :: (t ++ blanks)) = marker.isPrefixOf (c :: t) := by
      rw [Bool.eq_iff_iff, List.isPrefixOf_iff_prefix, List.isPrefixOf_iff_prefix, ← List.cons_append,
        prefix_append_iff hblanks hmarker]
    simp only [List.cons_append, occurrence?, hstands]
    split
    · rfl
    · exact ih _

end Text

namespace Markers

/-- No marker ends with a space or a tab. -/
structure Unpadded (m : Markers) : Prop where
  line : ∀ t ∈ m.line, Text.endsBlank t = false
  opening : ∀ p ∈ m.block, Text.endsBlank p.opening = false
  closing : ∀ p ∈ m.block, Text.endsBlank p.closing = false
  continuation : ∀ t ∈ m.continuation, Text.endsBlank t = false

/-- The same markers, with which no comment is continued. -/
def uncontinued (m : Markers) : Markers := { m with continuation := [] }

variable {m : Markers} {blanks : Text}

theorem Progressing.uncontinued (h : m.Progressing) : m.uncontinued.Progressing := h

theorem startsComment_append (hplain : m.Unpadded) (hblanks : Text.isBlank blanks = true) (t : Text) :
    m.startsComment (t ++ blanks) = m.uncontinued.startsComment t := by
  rw [Bool.eq_iff_iff, startsComment_iff, startsComment_iff]
  refine exists_congr fun marker => and_congr_right fun hmem => ?_
  exact Text.prefix_append_iff hblanks (hplain.line marker hmem)

/-- Behind blanks at the end of a line no comment is continued. -/
theorem continues_append (hsolid : m.Solid) (hplain : m.Unpadded) (hblanks : Text.isBlank blanks = true)
    (hne : blanks ≠ []) (t : Text) : m.continues (t ++ blanks) = false := by
  rw [continues, List.any_eq_false]
  intro marker hmem hsuffix
  have hmarker := hsolid.continuation marker hmem
  obtain ⟨s, hs⟩ := List.isSuffixOf_iff_suffix.1 hsuffix
  have hlast : marker.getLast? = blanks.getLast? := by
    rw [← List.getLast?_append_of_ne_nil s hmarker, hs, List.getLast?_append_of_ne_nil t hne]
  have hblank : blanks.getLast?.any Text.isIndent = true := by
    rw [List.getLast?_eq_some_getLast hne]
    exact List.all_eq_true.1 hblanks _ (List.getLast_mem hne)
  have hend := hplain.continuation marker hmem
  rw [Text.endsBlank, hlast, hblank] at hend
  cases hend

/-- The first opening does not see the blanks at the end. -/
theorem firstOpening?_append (hsolid : m.Solid) (hplain : m.Unpadded) (hblanks : Text.isBlank blanks = true) (n : Nat)
    (t : Text) : m.firstOpening? n (t ++ blanks) = m.uncontinued.firstOpening? n t := by
  rw [← StartCache.least_search, ← StartCache.least_search]
  congr 1
  refine List.map_congr_left fun p hp => ?_
  simp only [StartCache.search, Text.occurrence?_append hblanks (hsolid.opening p hp) (hplain.opening p hp)]
  cases Text.occurrence? p.opening n t <;> rfl

end Markers

namespace Reading

variable {m : Markers} {blanks : Text}

theorem after?_append {marker : Text} (hblanks : Text.isBlank blanks = true) (hne : marker ≠ [])
    (hmarker : Text.endsBlank marker = false) (t : Text) :
    after? marker (t ++ blanks) = (after? marker t).map (Text.padded blanks) := by
  rw [after?, after?, Text.occurrence?_append hblanks hne hmarker]
  cases ho : Text.occurrence? marker 0 t with
  | none => rfl
  | some found =>
    obtain ⟨k, u⟩ := found
    obtain ⟨-, -, -, ⟨w, rfl⟩, -⟩ := Text.occurrence?_spec ho
    simp only [Option.map_some, List.append_assoc, List.drop_left, Text.trimIndent_append hblanks]

theorem afterClosing?_append (hsolid : m.Solid) (hplain : m.Unpadded) (hblanks : Text.isBlank blanks = true)
    (pair : Nat) (t : Text) :
    afterClosing? m pair (t ++ blanks) = (afterClosing? m.uncontinued pair t).map (Text.padded blanks) := by
  have hblock : m.uncontinued.block = m.block := rfl
  rw [afterClosing?, afterClosing?, hblock]
  cases hb : m.block[pair]? with
  | none => rfl
  | some b =>
    have hmem := List.mem_of_getElem? hb
    exact after?_append hblanks (hsolid.closing b hmem) (hplain.closing b hmem) t

theorem opening?_append (hsolid : m.Solid) (hplain : m.Unpadded) (hblanks : Text.isBlank blanks = true) (t : Text) :
    opening? m (t ++ blanks) =
      (opening? m.uncontinued t).map fun found => (found.1, found.2.1, Text.padded blanks found.2.2) := by
  have hfirst := Markers.firstOpening?_append hsolid hplain hblanks 0 t
  cases ho : m.uncontinued.firstOpening? 0 t with
  | none => rw [opening?_of_none ho, opening?_of_none (hfirst.trans ho), Option.map_none]
  | some found =>
    obtain ⟨k, i⟩ := found
    obtain ⟨b, s, w, hb, rfl, rfl, hopening⟩ := opening?_of_firstOpening? ho
    rw [hopening, Option.map_some, ← Text.trimIndent_append hblanks]
    have hb' : m.block[i]? = some b := hb
    rw [opening?, hfirst, ho]
    simp [hb', Text.dropBytes?_append]

/-- A text with blanks at its end reads as without them and without continuation markers. -/
theorem read_append (hsolid : m.Solid) (hplain : m.Unpadded) (hblanks : Text.isBlank blanks = true)
    (hne : blanks ≠ []) (block : Option Nat) (t : Text) :
    read m hsolid.progressing block (t ++ blanks) = read m.uncontinued hsolid.progressing.uncontinued block t := by
  have hcontinues := fun t => Markers.continues_append hsolid hplain hblanks hne t
  have hcontinues' : ∀ t, m.uncontinued.continues t = false := fun _ => rfl
  have hstartsComment := fun t => Markers.startsComment_append hplain hblanks t
  induction block, t using read.induct m.uncontinued hsolid.progressing.uncontinued with
  | case1 t pair hclosing =>
    rw [read_some, read_some, afterClosing?_append hsolid hplain hblanks, hclosing]
    rfl
  | case2 t pair hclosing =>
    rw [read_some, read_some, afterClosing?_append hsolid hplain hblanks, hclosing]
    rfl
  | case3 t pair u hclosing hu ih =>
    rw [read_some, read_some, afterClosing?_append hsolid hplain hblanks, hclosing, Option.map_some]
    simp only [hu, Text.padded_ne_nil hu, if_false]
    rw [Text.padded_of_ne_nil hu, ih]
  | case4 t hstarts hcontinued => exact absurd hcontinued (by simp [hcontinues'])
  | case5 t hstarts =>
    rw [read_comment m _ (hstartsComment t ▸ hstarts), read_comment _ _ hstarts, hcontinues, hcontinues']
  | case6 t hstarts hopening =>
    have hopening' := opening?_append hsolid hplain hblanks t
    rw [hopening, Option.map_none] at hopening'
    rw [read_code m _ (hstartsComment t ▸ hstarts) hopening', read_code _ _ hstarts hopening, hcontinues, hcontinues',
      Bool.and_false, Bool.and_false]
  | case7 t hstarts k pair u hopening ih =>
    have hopening' := opening?_append hsolid hplain hblanks t
    rw [hopening, Option.map_some] at hopening'
    rw [read_opening m _ (hstartsComment t ▸ hstarts) hopening', read_opening _ _ hstarts hopening]
    by_cases hu : u = []
    · simp only [hu, Text.padded_nil, if_true]
    · simp only [hu, Text.padded_ne_nil hu, if_false]
      rw [Text.padded_of_ne_nil hu, ih hu]

/-- A line with blanks at its end reads as without them and without continuation markers. -/
theorem line_append (hsolid : m.Solid) (hplain : m.Unpadded) (hblanks : Text.isBlank blanks = true)
    (hne : blanks ≠ []) (carry : Carry) (raw : Text) :
    line m hsolid.progressing carry (raw ++ blanks) = line m.uncontinued hsolid.progressing.uncontinued carry raw := by
  have htrim := Text.trimIndent_append hblanks raw
  by_cases hu : Text.trimIndent raw = []
  · rw [hu, Text.padded_nil] at htrim
    cases carry <;> simp only [line, htrim, hu, if_true]
  · have hu' : Text.padded blanks (Text.trimIndent raw) ≠ [] := Text.padded_ne_nil hu
    have hread := fun block => read_append hsolid hplain hblanks hne block (Text.trimIndent raw)
    rw [← Text.padded_of_ne_nil hu] at hread
    have hcontinues := Markers.continues_append hsolid hplain hblanks hne (Text.trimIndent raw)
    rw [← Text.padded_of_ne_nil hu] at hcontinues
    have hcontinues' : m.uncontinued.continues (Text.trimIndent raw) = false := rfl
    cases carry with
    | idle last => simp only [line, htrim, hu, hu', if_false, hread]
    | continuing => simp only [line, htrim, hu, hu', if_false, hcontinues, hcontinues']
    | inBlock pair => simp only [line, htrim, hu, hu', if_false, hread]

end Reading

namespace Tracker

/-- **Blanks at the end of a line**: if no marker ends with a space or a tab, a line with blanks at its end gets the
verdict that it gets without them and without continuation markers, and the same is carried behind it. So if there are
no continuation markers, these blanks are not seen at all. -/
theorem feed_append_blanks (line : List Text) (block : List BlockPair) (continuation : List Text)
    (hplain : (Markers.ofLists line block continuation).Unpadded) {t : Tracker}
    (ht : t.Reachable (.ofLists line block continuation)) (raw : Text) {blanks : Text}
    (hblanks : Text.isBlank blanks = true) :
    let m := Markers.ofLists line block continuation
    (blanks ≠ [] → ∃ v t₁ t₂, t.feed m (raw ++ blanks) = .ok (v, t₁) ∧
      t.feed (.ofLists line block []) raw = .ok (v, t₂) ∧ t₁.carry = t₂.carry) ∧
    (m.continuation = [] → ∃ v t₁ t₂, t.feed m (raw ++ blanks) = .ok (v, t₁) ∧
      t.feed m raw = .ok (v, t₂) ∧ t₁.carry = t₂.carry) := by
  intro m
  have hsolid : m.Solid := Markers.solid_ofLists line block continuation
  have hm := hsolid.progressing
  have hreads : blanks ≠ [] → ∃ v t₁ t₂, t.feed m (raw ++ blanks) = .ok (v, t₁) ∧
      t.feed m.uncontinued raw = .ok (v, t₂) ∧ t₁.carry = t₂.carry := by
    intro hne
    obtain ⟨cache, hfeed⟩ := feed_eq_line hm ht.configured (raw ++ blanks)
    obtain ⟨cache', hfeed'⟩ := feed_eq_line hm.uncontinued (t := t) ht.configured raw
    rw [← Reading.line_append hsolid hplain hblanks hne] at hfeed'
    exact ⟨_, _, _, hfeed, hfeed', rfl⟩
  refine ⟨hreads, fun hcontinuation => ?_⟩
  have huncontinued : m.uncontinued = m := by rw [Markers.uncontinued, ← hcontinuation]
  by_cases hne : blanks = []
  · subst hne
    obtain ⟨cache, hfeed⟩ := feed_eq_line hm ht.configured raw
    rw [List.append_nil]
    exact ⟨_, _, _, hfeed, hfeed, rfl⟩
  · have h := hreads hne
    rwa [huncontinued] at h

/-- A comment that is continued on the line itself is not with blanks behind it; the block before it is closed alike. -/
theorem feed_append_blanks_continued :
    let m := Markers.ofLists ["//".toList] [⟨"/*".toList, "*/".toList⟩] ["\\".toList]
    let t : Tracker := ⟨.inBlock 0, ⟨[.at 2]⟩⟩
    m.Unpadded ∧ t.Reachable m ∧ Text.isBlank " \t".toList = true ∧
      t.feed m "a */ // b \\".toList = .ok (.continuing, ⟨.continuing, ⟨[.unsearched]⟩⟩) ∧
      ∃ t₁, t.feed m "a */ // b \\ \t".toList = .ok (.comment, t₁) ∧ t₁.carry = .idle .comment := by
  intro m t
  have hplain : m.Unpadded := by constructor <;> decide
  have ht : t.Reachable m := .feed .start (show start.feed m "x /* y".toList = .ok (.code, t) by decide)
  have hblanks : Text.isBlank " \t".toList = true := by decide
  refine ⟨hplain, ht, hblanks, by decide, ?_⟩
  obtain ⟨v, t₁, t₂, hfeed, hfeed', hcarry⟩ :=
    (feed_append_blanks _ _ _ hplain ht "a */ // b \\".toList hblanks).1 (by decide)
  have hrun : (t.feed (.ofLists ["//".toList] [⟨"/*".toList, "*/".toList⟩] []) "a */ // b \\".toList).map
      (fun p => (p.1, p.2.carry)) = .ok (.comment, .idle .comment) := by decide
  simp only [hfeed', Except.map, Except.ok.injEq, Prod.mk.injEq] at hrun
  obtain ⟨rfl, hlast⟩ := hrun
  exact ⟨t₁, hfeed, hcarry.trans hlast⟩

end Tracker

end LineCensus
