import LineCensus.Proofs.LineReading
import LineCensus.Proofs.Validation

/-!
# Markers in indented text

A line loses its indentation before it is searched, and so does the text behind every marker. What a search
finds is therefore the first place of a marker that does not begin within the indentation
(`Text.FirstVisible.after?_eq`, `Text.exists_firstVisible`). A marker that begins with neither a space nor a
tab begins nowhere within the indentation, so its first visible place is its first place
(`Text.First.visible`); a marker that does may be hidden there (`hidden_closing`).

`Tracker.Passes` are the places that a tracker comes to on its way through a line. From each of them the line
comes to the same (`Progress.outcome_eq_of_resumes`), so what a block in the middle of a line does is read
off at the place where it opens.
-/

namespace LineCensus

namespace Text

/-- The number of spaces and tabs in front. -/
def indentation (t : Text) : Nat := (t.takeWhile isIndent).length

/-- The text begins with a space or a tab. -/
def isIndented (t : Text) : Bool := t.head?.any isIndent

/-- The first place of a marker in a text is behind `s`, in front of `u`. -/
structure First (marker t s u : Text) : Prop where
  split : t = s ++ marker ++ u
  least : ∀ s' u', t = s' ++ marker ++ u' → s.length ≤ s'.length

/-- The first place of a marker that does not begin within the indentation is behind `s`, in front of `u`. -/
structure FirstVisible (marker t s u : Text) : Prop where
  split : t = s ++ marker ++ u
  visible : t.indentation ≤ s.length
  least : ∀ s' u', t = s' ++ marker ++ u' → t.indentation ≤ s'.length → s.length ≤ s'.length

variable {marker t s u : Text}

theorem takeWhile_append_trimIndent (t : Text) : t.takeWhile isIndent ++ trimIndent t = t :=
  List.takeWhile_append_dropWhile

theorem First.unique {s' u' : Text} (h : First marker t s u) (h' : First marker t s' u') : s = s' ∧ u = u' := by
  have hlength : s.length = s'.length := Nat.le_antisymm (h.least _ _ h'.split) (h'.least _ _ h.split)
  have hsplit := h.split.symm.trans h'.split
  simp only [List.append_assoc] at hsplit
  obtain ⟨hs, hrest⟩ := List.append_inj hsplit hlength
  exact ⟨hs, List.append_cancel_left hrest⟩

theorem first_of_occurrence? {k : Nat} {v : Text} (h : occurrence? marker 0 t = some (k, v)) :
    ∃ s u, First marker t s u ∧ k = byteSize s ∧ v = marker ++ u := by
  obtain ⟨s, hs, hk, ⟨u, rfl⟩, hleast⟩ := occurrence?_spec h
  rw [Nat.zero_add] at hk
  refine ⟨s, u, ⟨by rw [hs, List.append_assoc], fun s' u' h' => ?_⟩, hk, rfl⟩
  exact hleast s' (marker ++ u') (by rw [h', List.append_assoc]) (List.prefix_append ..)

/-- A text that contains a marker contains it at a first place. -/
theorem exists_first (h : marker <:+: t) : ∃ s u, First marker t s u := by
  obtain ⟨s₀, u₀, h₀⟩ := h
  have hfound : occurrence? marker 0 t ≠ none := by
    intro hnone
    rw [occurrence?_eq_none_iff] at hnone
    exact hnone s₀ (marker ++ u₀) (by rw [← h₀, List.append_assoc]) (List.prefix_append ..)
  obtain ⟨⟨k, v⟩, hv⟩ := Option.ne_none_iff_exists'.1 hfound
  obtain ⟨s, u, hfirst, -, -⟩ := first_of_occurrence? hv
  exact ⟨s, u, hfirst⟩

/-- A search finds the first place. -/
theorem First.occurrence?_eq (h : First marker t s u) : occurrence? marker 0 t = some (byteSize s, marker ++ u) := by
  cases hv : occurrence? marker 0 t with
  | none =>
    rw [occurrence?_eq_none_iff] at hv
    have hsplit := h.split
    rw [List.append_assoc] at hsplit
    exact absurd (List.prefix_append ..) (hv s _ hsplit)
  | some found =>
    obtain ⟨k, v⟩ := found
    obtain ⟨s', u', h', rfl, rfl⟩ := first_of_occurrence? hv
    obtain ⟨rfl, rfl⟩ := h.unique h'
    rfl

/-- Where a search finds a marker is its first place. -/
theorem First.of_occurrence? (split : t = s ++ marker ++ u)
    (found : occurrence? marker 0 t = some (byteSize s, marker ++ u)) : First marker t s u := by
  obtain ⟨s', u', h, -, hu⟩ := first_of_occurrence? found
  obtain rfl : u = u' := List.append_cancel_left hu
  obtain rfl : s = s' := by
    have hsplit := split.symm.trans h.split
    simp only [List.append_assoc] at hsplit
    exact List.append_cancel_right hsplit
  exact h

/-- What stands in front of a visible place is the indentation and a front of the rest. -/
theorem exists_front (split : t = s ++ marker ++ u) (visible : t.indentation ≤ s.length) :
    ∃ front, s = t.takeWhile isIndent ++ front ∧ trimIndent t = front ++ marker ++ u := by
  have ht := takeWhile_append_trimIndent t
  have hblanks : t.takeWhile isIndent <+: t := ⟨_, ht⟩
  have hs : s <+: t := ⟨marker ++ u, by rw [← List.append_assoc, ← split]⟩
  obtain ⟨front, hfront⟩ := List.prefix_of_prefix_length_le hblanks hs visible
  refine ⟨front, hfront.symm, ?_⟩
  have hsplit := ht.trans split
  rw [← hfront] at hsplit
  simp only [List.append_assoc] at hsplit ⊢
  exact List.append_cancel_left hsplit

/-- The visible places of a text are the places of the text without its indentation. -/
theorem firstVisible_iff : FirstVisible marker t s u ↔
    ∃ front, s = t.takeWhile isIndent ++ front ∧ First marker (trimIndent t) front u := by
  have ht := takeWhile_append_trimIndent t
  have hbehind : ∀ front : Text, t.indentation ≤ (t.takeWhile isIndent ++ front).length := by
    intro front
    rw [List.length_append]
    exact Nat.le_add_right ..
  have hsplits : ∀ {front u : Text}, trimIndent t = front ++ marker ++ u →
      t = t.takeWhile isIndent ++ front ++ marker ++ u := by
    intro front u h
    rw [List.append_assoc, List.append_assoc, ← List.append_assoc front, ← h, ht]
  constructor
  · intro h
    obtain ⟨front, rfl, hsplit⟩ := exists_front h.split h.visible
    refine ⟨front, rfl, hsplit, fun s' u' h' => ?_⟩
    have hle := h.least _ u' (hsplits h') (hbehind s')
    simpa using hle
  · rintro ⟨front, rfl, hfirst⟩
    refine ⟨hsplits hfirst.split, hbehind front, fun s' u' h' hvisible => ?_⟩
    obtain ⟨front', rfl, hsplit⟩ := exists_front h' hvisible
    have hle := hfirst.least front' u' hsplit
    simpa using hle

/-- What a search behind the indentation finds is the first visible place. -/
theorem FirstVisible.after?_eq (h : FirstVisible marker t s u) :
    Reading.after? marker (trimIndent t) = some (trimIndent u) := by
  obtain ⟨front, -, hfirst⟩ := firstVisible_iff.1 h
  simp [Reading.after?, hfirst.occurrence?_eq]

theorem FirstVisible.trimIndent_ne_nil (h : FirstVisible marker t s u) (hmarker : marker ≠ []) :
    trimIndent t ≠ [] := by
  obtain ⟨front, -, hfirst⟩ := firstVisible_iff.1 h
  rw [hfirst.split]
  simp [hmarker]

theorem exists_firstVisible {v : Text} (h : Reading.after? marker (trimIndent t) = some v) :
    ∃ s u, FirstVisible marker t s u := by
  obtain ⟨⟨k, w⟩, hw, -⟩ := Option.map_eq_some_iff.1 h
  obtain ⟨front, u, hfirst, -, -⟩ := first_of_occurrence? hw
  exact ⟨_, u, firstVisible_iff.2 ⟨front, rfl, hfirst⟩⟩

/-- A marker that begins with neither a space nor a tab begins nowhere within the indentation. -/
theorem indentation_le (hmarker : marker ≠ []) (hplain : isIndented marker = false) :
    (s ++ marker ++ u).indentation ≤ s.length := by
  induction s with
  | nil =>
    obtain ⟨c, r, rfl⟩ := List.exists_cons_of_ne_nil hmarker
    have hc : isIndent c = false := hplain
    simp [indentation, hc]
  | cons c s ih =>
    simp only [indentation, List.cons_append, List.length_cons, List.takeWhile_cons] at ih ⊢
    split
    · rw [List.length_cons]
      omega
    · exact Nat.zero_le _

/-- The first place of a marker that begins with neither a space nor a tab is visible. -/
theorem First.visible (h : First marker t s u) (hmarker : marker ≠ []) (hplain : isIndented marker = false) :
    FirstVisible marker t s u where
  split := h.split
  visible := h.split ▸ indentation_le hmarker hplain
  least := fun s' u' h' _ => h.least s' u' h'

/-- A text that begins with such a marker is not indented. -/
theorem trimIndent_eq_self (h : marker <+: t) (hmarker : marker ≠ []) (hplain : isIndented marker = false) :
    trimIndent t = t := by
  obtain ⟨u, rfl⟩ := h
  obtain ⟨c, r, rfl⟩ := List.exists_cons_of_ne_nil hmarker
  have hc : isIndent c = false := hplain
  simp [trimIndent, hc]

end Text

/-! ### Reading behind the indentation -/

namespace Reading

variable {m : Markers} {pair : Nat} {b : BlockPair} {w front rest : Text}

/-- Inside a block, a text reads as what follows the first visible place of the closing text. -/
theorem read_of_firstVisible (hm : m.Progressing) (hb : m.block[pair]? = some b)
    (h : Text.FirstVisible b.closing w front rest) :
    read m hm (some pair) (Text.trimIndent w) =
      if Text.trimIndent rest = [] then (.comment, .idle .comment) else read m hm none (Text.trimIndent rest) := by
  have hafter : afterClosing? m pair (Text.trimIndent w) = some (Text.trimIndent rest) := by
    simp only [afterClosing?, hb, h.after?_eq, Option.bind_eq_bind, Option.bind_some]
  rw [read_some, hafter]

/-- Without a visible place of the closing text the block stays open. -/
theorem read_of_not_visible (hm : m.Progressing) (hb : m.block[pair]? = some b)
    (h : ∀ front rest, ¬ Text.FirstVisible b.closing w front rest) :
    read m hm (some pair) (Text.trimIndent w) = (.block, .inBlock pair) := by
  have hafter : afterClosing? m pair (Text.trimIndent w) = none := by
    simp only [afterClosing?, hb, Option.bind_eq_bind, Option.bind_some]
    cases ha : after? b.closing (Text.trimIndent w) with
    | none => rfl
    | some v =>
      obtain ⟨front, rest, hfirst⟩ := Text.exists_firstVisible ha
      exact absurd hfirst (h front rest)
  rw [read_some, hafter]

/-- Nothing closes a block where nothing is left. -/
theorem read_inside_nil (hm : m.Progressing) (hb : m.block[pair]? = some b) (hclosing : b.closing ≠ []) :
    read m hm (some pair) [] = (.block, .inBlock pair) := by
  obtain ⟨c, r, hc⟩ := List.exists_cons_of_ne_nil hclosing
  have hafter : afterClosing? m pair [] = none := by
    simp [afterClosing?, hb, after?, hc, Text.occurrence?]
  rw [read_some, hafter]

theorem line_idle (hm : m.Progressing) (last : Verdict) {raw : Text} (hraw : Text.isBlank raw = false) :
    line m hm (.idle last) raw = read m hm none (Text.trimIndent raw) := by
  simp only [line, Text.trimIndent_ne_nil hraw, if_false]

theorem line_inBlock (hm : m.Progressing) {raw : Text} (hraw : Text.isBlank raw = false) :
    line m hm (.inBlock pair) raw = read m hm (some pair) (Text.trimIndent raw) := by
  simp only [line, Text.trimIndent_ne_nil hraw, if_false]

end Reading

/-- No marker of an accepted draft is empty. -/
theorem Draft.solid_of_validate {d : Draft} {s : Settings} (h : d.validate = .ok s) : s.markers.Solid := by
  obtain ⟨-, rfl⟩ := validate_eq_ok_iff.1 h
  exact Markers.solid_ofLists _ _ _

/-! ### The places of a line -/

namespace Progress

variable {m : Markers} {p q : Progress}

/-- What a line comes to from here on: its plain reading, or code if program text was passed. -/
def outcome (hm : m.Progressing) (p : Progress) : Verdict × Carry :=
  (if p.codeSeen then .code else (p.reading hm).1, (p.reading hm).2)

/-- Handling a marker leaves what the line comes to. -/
theorem outcome_eq_of_step (hm : m.Progressing) (h : p.Ready m) (hs : step m p = .ok (.resume q)) :
    p.outcome hm = q.outcome hm := by
  have hreads := step_reads hm h
  rw [hs] at hreads
  cases hreads with
  | resume code _ seen _ _ reads =>
    simp only [outcome, seen, reads]
    cases p.codeSeen <;> cases code <;> rfl

theorem outcome_eq_of_resumes (hm : m.Progressing) {n : Nat} (h : p.Ready m) (hr : Resumes m n p q) :
    p.outcome hm = q.outcome hm := by
  induction hr with
  | refl => rfl
  | step first _ ih =>
    have hnext := (handles_of_step h first).ready h
    exact (outcome_eq_of_step hm h first).trans (ih hnext)

/-- Where a block opens, the line comes to what the text behind the opening reads as inside of it, or to code
if program text stands in front. -/
theorem Opens.outcome_eq (hm : m.Progressing) {pair : Nat} {b : BlockPair} {s w : Text} {cache : StartCache}
    (opens : Opens m p pair b s w cache) (hclosing : b.closing ≠ []) :
    p.outcome hm =
      let inner := Reading.read m hm (some pair) (Text.trimIndent w)
      (if p.codeSeen || decide (0 < Text.byteSize s) then .code else inner.1, inner.2) := by
  have hinner : (if Text.trimIndent w = [] then (.block, .inBlock pair)
      else Reading.read m hm (some pair) (Text.trimIndent w)) =
      Reading.read m hm (some pair) (Text.trimIndent w) := by
    split
    · rename_i hnil
      rw [hnil, Reading.read_inside_nil hm opens.pair_eq hclosing]
    · rfl
  have hread := (reading_outside hm opens.outside).1
  rw [Reading.read_none, opens.plain, opens.opening?] at hread
  simp only [Bool.false_eq_true, if_false, hinner] at hread
  simp only [outcome, hread, Bool.or_eq_true, decide_eq_true_eq]
  cases p.codeSeen <;> simp

end Progress

namespace Tracker

variable {m : Markers} {t : Tracker} {raw : Text}

/-- On its way through a line a tracker comes to `p`. -/
structure Passes (m : Markers) (t : Tracker) (raw : Text) (p : Progress) : Prop where
  searched : t.carry ≠ .continuing
  left : Text.isBlank raw = false
  reached : ∃ n, Progress.Resumes m n (t.enter m (Text.trimIndent raw)) p

theorem Passes.ready (ht : t.Configured m) {p : Progress} (h : t.Passes m raw p) : p.Ready m := by
  obtain ⟨n, hr⟩ := h.reached
  exact hr.ready (ready_enter ht (Text.trimIndent_trimIndent raw) (Text.trimIndent_ne_nil h.left))

/-- From every place that a tracker comes to, the line comes to its verdict. -/
theorem Passes.feed_eq (hm : m.Progressing) (ht : t.Configured m) {p : Progress} (h : t.Passes m raw p) :
    ∃ cache, t.feed m raw = .ok ((p.outcome hm).1, ⟨(p.outcome hm).2, cache⟩) := by
  obtain ⟨n, hr⟩ := h.reached
  have hstart := ready_enter ht (Text.trimIndent_trimIndent raw) (Text.trimIndent_ne_nil h.left)
  have hline : Reading.line m hm t.carry raw = p.outcome hm := by
    rw [← Progress.outcome_eq_of_resumes hm hstart hr]
    obtain ⟨carry, cache⟩ := t
    cases carry with
    | idle last => exact Reading.line_idle hm last h.left
    | continuing => exact absurd rfl h.searched
    | inBlock pair => exact Reading.line_inBlock hm h.left
  rw [← hline]
  exact feed_eq_line hm ht raw

/-- A line counts as `rest` does outside of blocks, or as a comment if `rest` is blank; if program text stands
in front, it is code. -/
structure ReadsAs (m : Markers) (t : Tracker) (raw : Text) (code : Bool) (rest : Text) : Prop where
  blank : Text.isBlank rest = true →
    ∃ t', t.feed m raw = .ok (if code then .code else .comment, t') ∧ t'.carry = .idle .comment
  left : Text.isBlank rest = false → ∀ last cache, ∃ v t₁ t₂,
    t.feed m raw = .ok (if code then .code else v, t₁) ∧
      Tracker.feed m ⟨.idle last, cache⟩ rest = .ok (v, t₂) ∧ t₁.carry = t₂.carry

/-- Inside a block, a line counts as what follows the first visible place of the closing text. -/
theorem readsAs_of_firstVisible (hm : m.Progressing) {pair : Nat} {b : BlockPair} {w front rest : Text}
    {code : Bool} {cache : StartCache} (hb : m.block[pair]? = some b)
    (hfirst : Text.FirstVisible b.closing w front rest)
    (hfeed : let inner := Reading.read m hm (some pair) (Text.trimIndent w)
      t.feed m raw = .ok (if code then .code else inner.1, ⟨inner.2, cache⟩)) :
    t.ReadsAs m raw code rest := by
  rw [Reading.read_of_firstVisible hm hb hfirst] at hfeed
  constructor
  · intro hblank
    rw [if_pos (Text.trimIndent_eq_nil_iff.2 hblank)] at hfeed
    exact ⟨_, hfeed, rfl⟩
  · intro hleft last known
    rw [if_neg (Text.trimIndent_ne_nil hleft)] at hfeed
    obtain ⟨cache', hrest⟩ := feed_eq_line hm (t := ⟨.idle last, known⟩) (by rintro _ ⟨⟩) rest
    rw [Reading.line_idle hm last hleft] at hrest
    exact ⟨_, _, _, hfeed, hrest, rfl⟩

/-- An open block is closed by the first visible place of its closing text, and only there. -/
theorem feed_inBlock (hsolid : m.Solid) (ht : t.Configured m) {pair : Nat} {b : BlockPair}
    (inside : t.carry = .inBlock pair) (hb : m.block[pair]? = some b) :
    (∀ front rest, Text.FirstVisible b.closing raw front rest → t.ReadsAs m raw false rest) ∧
      ((∀ front rest, ¬ Text.FirstVisible b.closing raw front rest) → ∃ t',
        t.feed m raw = .ok (if Text.isBlank raw then .whitespace else .block, t') ∧ t'.carry = .inBlock pair) := by
  have hm := hsolid.progressing
  obtain ⟨cache, hfeed⟩ := feed_eq_line hm ht raw
  rw [inside] at hfeed
  cases hraw : Text.isBlank raw with
  | true =>
    have hnil := Text.trimIndent_eq_nil_iff.2 hraw
    simp only [Reading.line, hnil, if_true] at hfeed
    constructor
    · intro front rest hfirst
      have hclosing := hsolid.closing b (List.mem_of_getElem? hb)
      exact absurd hnil (hfirst.trimIndent_ne_nil hclosing)
    · intro _
      exact ⟨_, hfeed, rfl⟩
  | false =>
    rw [Reading.line_inBlock hm hraw] at hfeed
    constructor
    · intro front rest hfirst
      exact readsAs_of_firstVisible hm hb hfirst hfeed
    · intro hnone
      rw [Reading.read_of_not_visible hm hb hnone] at hfeed
      exact ⟨_, hfeed, rfl⟩

/-- A block that opens in the middle of a line is closed by the first visible place of its closing text in
the text behind the opening, and only there. -/
theorem feed_opens (hsolid : m.Solid) (ht : t.Configured m) {p : Progress} (hp : t.Passes m raw p) {pair : Nat}
    {b : BlockPair} {s w : Text} {cache : StartCache} (opens : Progress.Opens m p pair b s w cache) :
    let code := p.codeSeen || decide (0 < Text.byteSize s)
    (∀ front rest, Text.FirstVisible b.closing w front rest → t.ReadsAs m raw code rest) ∧
      ((∀ front rest, ¬ Text.FirstVisible b.closing w front rest) → ∃ t',
        t.feed m raw = .ok (if code then .code else .block, t') ∧ t'.carry = .inBlock pair) := by
  intro code
  have hm := hsolid.progressing
  have hclosing := hsolid.closing b (List.mem_of_getElem? opens.pair_eq)
  obtain ⟨known, hfeed⟩ := hp.feed_eq hm ht
  rw [opens.outcome_eq hm hclosing] at hfeed
  constructor
  · intro front rest hfirst
    exact readsAs_of_firstVisible hm opens.pair_eq hfirst hfeed
  · intro hnone
    rw [Reading.read_of_not_visible hm opens.pair_eq hnone] at hfeed
    exact ⟨_, hfeed, rfl⟩

/-- What is left of a line is a line comment; program text before it makes the line code. -/
def EndsInComment (m : Markers) (t : Tracker) (raw : Text) (code : Bool) (rest : Text) : Prop :=
  ∃ t', t.feed m raw = .ok (if code then .code else if m.continues rest then .continuing else .comment, t') ∧
    t'.carry = if m.continues rest then .continuing else .idle .comment

theorem Passes.endsInComment (hm : m.Progressing) (ht : t.Configured m) {p : Progress} (hp : t.Passes m raw p)
    (outside : p.carry.open? = none) (hstarts : m.startsComment p.cursor.rest = true) :
    t.EndsInComment m raw p.codeSeen p.cursor.rest := by
  obtain ⟨cache, hfeed⟩ := hp.feed_eq hm ht
  have hread := (Progress.reading_outside hm outside).1.trans (Reading.read_comment m hm hstarts)
  rw [Progress.outcome, hread] at hfeed
  unfold EndsInComment
  cases hcontinues : m.continues p.cursor.rest <;>
    · rw [hcontinues] at hfeed
      exact ⟨_, hfeed, rfl⟩

/-- A line marker behind the indentation makes a line a comment. -/
theorem feed_idle_line (hsolid : m.Solid) (ht : t.Configured m) {last : Verdict} (idle : t.carry = .idle last)
    {marker : Text} (hmarker : marker ∈ m.line) (hpre : marker <+: Text.trimIndent raw) :
    t.EndsInComment m raw false (Text.trimIndent raw) := by
  have hraw : Text.isBlank raw = false := by
    rw [Bool.eq_false_iff, Ne, ← Text.trimIndent_eq_nil_iff]
    intro hnil
    rw [hnil, List.prefix_nil] at hpre
    exact hsolid.line marker hmarker hpre
  have hp : t.Passes m raw (t.enter m (Text.trimIndent raw)) := ⟨by rw [idle]; nofun, hraw, 0, .refl _⟩
  have outside : (t.enter m (Text.trimIndent raw)).carry.open? = none := by
    rw [enter, idle]
    rfl
  exact hp.endsInComment hsolid.progressing ht outside (Markers.startsComment_iff.2 ⟨marker, hmarker, hpre⟩)

/-- **Blank characters hide only what begins with one**: with the markers of an accepted draft, an open block
is closed by the first visible place of its closing text, in the line or in the text behind an opening in the
middle of it, and stays open where there is none; an idle tracker takes a line for a comment if a line marker
begins it behind the indentation. For a marker that begins with neither a space nor a tab, the first place is
the first visible one. -/
theorem feed_visible {d : Draft} {settings : Settings} (hd : d.validate = .ok settings)
    (ht : t.Reachable settings.markers) (raw : Text) :
    let m := settings.markers
    (∀ pair b, t.carry = .inBlock pair → m.block[pair]? = some b →
      (∀ front rest, Text.FirstVisible b.closing raw front rest → t.ReadsAs m raw false rest) ∧
      ((∀ front rest, ¬ Text.FirstVisible b.closing raw front rest) → ∃ t',
        t.feed m raw = .ok (if Text.isBlank raw then .whitespace else .block, t') ∧ t'.carry = .inBlock pair)) ∧
    (∀ p pair b s w cache, t.Passes m raw p → Progress.Opens m p pair b s w cache →
      let code := p.codeSeen || decide (0 < Text.byteSize s)
      (∀ front rest, Text.FirstVisible b.closing w front rest → t.ReadsAs m raw code rest) ∧
      ((∀ front rest, ¬ Text.FirstVisible b.closing w front rest) → ∃ t',
        t.feed m raw = .ok (if code then .code else .block, t') ∧ t'.carry = .inBlock pair)) ∧
    (∀ last, t.carry = .idle last → ∀ marker ∈ m.line, marker <+: Text.trimIndent raw → ∃ t',
      t.feed m raw = .ok (if m.continues (Text.trimIndent raw) then .continuing else .comment, t') ∧
        t'.carry = if m.continues (Text.trimIndent raw) then .continuing else .idle .comment) ∧
    (∀ b ∈ m.block, Text.isIndented b.closing = false → ∀ text, b.closing <:+: text → ∃ front rest,
      Text.First b.closing text front rest ∧ Text.FirstVisible b.closing text front rest) ∧
    ∀ marker ∈ m.line, Text.isIndented marker = false → marker <+: raw → marker <+: Text.trimIndent raw := by
  intro m
  have hsolid : m.Solid := Draft.solid_of_validate hd
  have hconfigured : t.Configured m := ht.configured
  refine ⟨?_, ?_, ?_, ?_, ?_⟩
  · intro pair b inside hb
    exact feed_inBlock hsolid hconfigured inside hb
  · intro p pair b s w cache hp opens
    exact feed_opens hsolid hconfigured hp opens
  · intro last idle marker hmarker hpre
    exact feed_idle_line hsolid hconfigured idle hmarker hpre
  · intro b hb hplain text htext
    obtain ⟨front, rest, hfirst⟩ := Text.exists_first htext
    exact ⟨front, rest, hfirst, hfirst.visible (hsolid.closing b hb) hplain⟩
  · intro marker hmarker hplain hpre
    rwa [Text.trimIndent_eq_self hpre (hsolid.line marker hmarker) hplain]

/-- A closing text that begins with no blank character is found behind the indentation, and behind the tab that
follows an opening. -/
theorem feed_visible_tabs :
    let d : Draft := ⟨["src".toList], ["c".toList], false, ⟨["//".toList], ["/*".toList], ["*/".toList], []⟩⟩
    let m := d.settings.markers
    let t : Tracker := ⟨.inBlock 0, ⟨[.at 0]⟩⟩
    d.validate = .ok d.settings ∧ t.Reachable m ∧
      Text.FirstVisible "*/".toList "\t x */ y".toList "\t x ".toList " y".toList ∧
      t.ReadsAs m "\t x */ y".toList false " y".toList ∧
      Text.FirstVisible "*/".toList "\t*/ y".toList "\t".toList " y".toList ∧
      Tracker.start.ReadsAs m "a /*\t*/ y".toList true " y".toList := by
  intro d m t
  have hd : d.validate = .ok d.settings := rfl
  have ht : t.Reachable m := .feed .start (show Tracker.start.feed m "/* a".toList = .ok (.block, t) by decide)
  have hfirst : Text.First "*/".toList "\t x */ y".toList "\t x ".toList " y".toList :=
    .of_occurrence? rfl (by decide)
  have hinner : Text.First "*/".toList "\t*/ y".toList "\t".toList " y".toList := .of_occurrence? rfl (by decide)
  have hvisible := hfirst.visible (by decide) (by decide)
  have hinnerVisible := hinner.visible (by decide) (by decide)
  have hpasses : Tracker.start.Passes m "a /*\t*/ y".toList (Tracker.start.enter m "a /*\t*/ y".toList) :=
    ⟨nofun, by decide, 0, .refl _⟩
  have hopens : Progress.Opens m (Tracker.start.enter m "a /*\t*/ y".toList) 0 ⟨"/*".toList, "*/".toList⟩
      "a ".toList "\t*/ y".toList (.fresh m) :=
    ⟨rfl, by decide, rfl, by decide, rfl, StartCache.knows_fresh m _⟩
  exact ⟨hd, ht, hvisible, ((feed_visible hd ht _).1 0 _ rfl rfl).1 _ _ hvisible, hinnerVisible,
    ((feed_visible hd .start _).2.1 _ 0 _ _ _ _ hpasses hopens).1 _ _ hinnerVisible⟩

/-- A closing text that begins with a space is not found where that space belongs to the indentation. -/
theorem hidden_closing :
    ¬ ∀ (d : Draft) (settings : Settings) (t : Tracker) (pair : Nat) (b : BlockPair) (raw front rest : Text),
      d.validate = .ok settings → t.Reachable settings.markers → t.carry = .inBlock pair →
      settings.markers.block[pair]? = some b → Text.First b.closing raw front rest →
      t.ReadsAs settings.markers raw false rest := by
  intro h
  let d : Draft := ⟨["src".toList], ["c".toList], false, ⟨["//".toList], ["/*".toList], [" */".toList], []⟩⟩
  let t : Tracker := ⟨.inBlock 0, ⟨[.at 0]⟩⟩
  have ht : t.Reachable d.settings.markers :=
    .feed .start (show Tracker.start.feed d.settings.markers "/* a".toList = .ok (.block, t) by decide)
  have hfirst : Text.First " */".toList " */ x".toList [] " x".toList := ⟨rfl, fun _ _ _ => Nat.zero_le _⟩
  have hreads := h d d.settings t 0 _ _ _ _ rfl ht rfl rfl hfirst
  have hrest : (Tracker.feed d.settings.markers ⟨.idle .code, .empty⟩ " x".toList).map Prod.fst = .ok .code := by
    decide
  have hblock : (t.feed d.settings.markers " */ x".toList).map Prod.fst = .ok .block := by decide
  obtain ⟨v, t₁, t₂, hfeed, hidle, -⟩ := hreads.left (by decide) .code .empty
  rw [hidle] at hrest
  rw [hfeed] at hblock
  simp only [Except.map, Bool.false_eq_true, if_false, Except.ok.injEq] at hrest hblock
  cases hrest.symm.trans hblock

end Tracker

end LineCensus
