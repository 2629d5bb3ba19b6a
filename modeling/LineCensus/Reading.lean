import LineCensus.Tracker

/-!
# The plain reading of a line

`Reading.read` says what a line is by recursion on its text alone: no cursor, no offsets, no memory
of openings and no flag. It takes a text that is neither empty nor indented, and reads it inside an
open block or outside of all blocks. `Reading.line` adds what blank lines and continued comments
are, and `Reading.file` reads one line after the other.

`Reading.afterClosing?` and `Markers.firstOpening?` are the two searches it rests on. A pair that is
empty on both sides would open and close for ever at one place, so a text is read only with
`Markers.Progressing` sets, for which `Reading.weight` decreases.
-/

namespace LineCensus.Reading

/-- The text behind the first `m` in a text, without its indentation. -/
def after? (m t : Text) : Option Text :=
  (Text.occurrence? m 0 t).map fun (_, u) => Text.trimIndent (u.drop m.length)

/-- The text behind the first closing marker of a pair. -/
def afterClosing? (m : Markers) (pair : Nat) (t : Text) : Option Text := do
  after? (← m.block[pair]?).closing t

/-- The place of the first opening in a text, its pair, and the text behind it. -/
def opening? (m : Markers) (t : Text) : Option (Nat × Nat × Text) := do
  let (k, pair) ← m.firstOpening? 0 t
  let u ← Text.dropBytes? k t
  return (k, pair, Text.trimIndent (u.drop (← m.block[pair]?).opening.length))

/-- A bound on the markers still to be read. One half of a pair may be empty, so a text can stay
the same while a block opens, or while it closes, but not over both. -/
def weight (m : Markers) : Option Nat → Text → Nat
  | none, t => 2 * t.length
  | some pair, t =>
    match m.block[pair]? with
    | none => 0
    | some b => if b.closing = [] then 2 * t.length + 1 else 2 * t.length - 1

theorem length_trimIndent_le (t : Text) : (Text.trimIndent t).length ≤ t.length :=
  (List.dropWhile_sublist _).length_le

/-- What lies behind a found marker is what follows it in the text. -/
theorem after?_eq_some {m t u : Text} (h : after? m t = some u) :
    ∃ s w, t = s ++ (m ++ w) ∧ u = Text.trimIndent w ∧
      Text.occurrence? m 0 t = some (Text.byteSize s, m ++ w) := by
  obtain ⟨⟨k, v⟩, hv, rfl⟩ := Option.map_eq_some_iff.1 h
  obtain ⟨s, rfl, rfl, ⟨w, rfl⟩, -⟩ := Text.occurrence?_spec hv
  exact ⟨s, w, rfl, by simp, by rw [hv, Nat.zero_add]⟩

theorem afterClosing?_eq_some {m : Markers} {pair : Nat} {t u : Text} (h : afterClosing? m pair t = some u) :
    ∃ b, m.block[pair]? = some b ∧ after? b.closing t = some u :=
  Option.bind_eq_some_iff.1 h

theorem opening?_eq_some {m : Markers} {t u : Text} {k pair : Nat} (h : opening? m t = some (k, pair, u)) :
    ∃ b s v, m.block[pair]? = some b ∧ m.firstOpening? 0 t = some (k, pair) ∧ t = s ++ v ∧
      k = Text.byteSize s ∧ u = Text.trimIndent (v.drop b.opening.length) := by
  obtain ⟨⟨k', pair'⟩, hf, h⟩ := Option.bind_eq_some_iff.1 h
  obtain ⟨v, hv, h⟩ := Option.bind_eq_some_iff.1 h
  obtain ⟨b, hb, h⟩ := Option.bind_eq_some_iff.1 h
  cases h
  obtain ⟨s, hs, hk⟩ := Text.dropBytes?_eq_some hv
  exact ⟨b, s, v, hb, hf, hs, hk.symm, rfl⟩

theorem weight_afterClosing {m : Markers} {pair : Nat} {t u : Text} (h : afterClosing? m pair t = some u)
    (hu : u ≠ []) : weight m none u < weight m (some pair) t := by
  obtain ⟨b, hb, ha⟩ := afterClosing?_eq_some h
  obtain ⟨s, w, rfl, rfl, -⟩ := after?_eq_some ha
  have hw := length_trimIndent_le w
  have hpos := List.length_pos_iff.2 hu
  simp only [weight, hb, List.length_append]
  split
  · omega
  · have := List.length_pos_iff.2 ‹¬ b.closing = []›
    omega

theorem weight_opening {m : Markers} (hm : m.Progressing) {t u : Text} {k pair : Nat}
    (h : opening? m t = some (k, pair, u)) (hu : u ≠ []) : weight m (some pair) u < weight m none t := by
  obtain ⟨b, s, v, hb, -, rfl, -, rfl⟩ := opening?_eq_some h
  have hv := length_trimIndent_le (v.drop b.opening.length)
  have hpos := List.length_pos_iff.2 hu
  rw [List.length_drop] at hv
  simp only [weight, hb, List.length_append]
  split
  · rename_i hc
    have ho := List.length_pos_iff.2 ((hm b (List.mem_of_getElem? hb)).resolve_right (· hc))
    omega
  · omega

/-- Reads a text inside the block of a pair, or outside of all blocks. -/
def read (m : Markers) (hm : m.Progressing) (block : Option Nat) (t : Text) : Verdict × Carry :=
  match block with
  | some pair =>
    match _ : afterClosing? m pair t with
    | none => (.block, .inBlock pair)
    | some u => if _ : u = [] then (.comment, .idle .comment) else read m hm none u
  | none =>
    if m.startsComment t then
      if m.continues t then (.continuing, .continuing) else (.comment, .idle .comment)
    else
      match _ : opening? m t with
      | none => (.code, if m.containsComment t && m.continues t then .continuing else .idle .code)
      | some (k, pair, u) =>
        let inner := if _ : u = [] then (.block, .inBlock pair) else read m hm (some pair) u
        (if 0 < k then .code else inner.1, inner.2)
  termination_by weight m block t
  decreasing_by
    · exact weight_afterClosing ‹_› ‹_›
    · exact weight_opening hm ‹_› ‹_›

theorem read_some (m : Markers) (hm : m.Progressing) (pair : Nat) (t : Text) :
    read m hm (some pair) t =
      match afterClosing? m pair t with
      | none => (.block, .inBlock pair)
      | some u => if u = [] then (.comment, .idle .comment) else read m hm none u := by
  rw [read]
  split <;> rename_i h <;> rw [h]
  simp only [dite_eq_ite]

theorem read_none (m : Markers) (hm : m.Progressing) (t : Text) :
    read m hm none t =
      if m.startsComment t then
        if m.continues t then (.continuing, .continuing) else (.comment, .idle .comment)
      else
        match opening? m t with
        | none => (.code, if m.containsComment t && m.continues t then .continuing else .idle .code)
        | some (k, pair, u) =>
          let inner := if u = [] then (.block, .inBlock pair) else read m hm (some pair) u
          (if 0 < k then .code else inner.1, inner.2) := by
  rw [read]
  split
  · rfl
  · split <;> rename_i h <;> rw [h]
    simp only [dite_eq_ite]

theorem read_comment (m : Markers) (hm : m.Progressing) {t : Text} (h : m.startsComment t = true) :
    read m hm none t = if m.continues t then (.continuing, .continuing) else (.comment, .idle .comment) := by
  rw [read_none, if_pos h]

theorem read_code (m : Markers) (hm : m.Progressing) {t : Text} (h : ¬ m.startsComment t = true)
    (ho : opening? m t = none) :
    read m hm none t = (.code, if m.containsComment t && m.continues t then .continuing else .idle .code) := by
  rw [read_none, if_neg h, ho]

theorem read_opening (m : Markers) (hm : m.Progressing) {t u : Text} {k pair : Nat} (h : ¬ m.startsComment t = true)
    (ho : opening? m t = some (k, pair, u)) :
    read m hm none t =
      let inner := if u = [] then (.block, .inBlock pair) else read m hm (some pair) u
      (if 0 < k then .code else inner.1, inner.2) := by
  rw [read_none, if_neg h, ho]

/-- Reads a line as it stands in the file. -/
def line (m : Markers) (hm : m.Progressing) (carry : Carry) (raw : Text) : Verdict × Carry :=
  let t := Text.trimIndent raw
  match carry with
  | .inBlock pair => if t = [] then (.whitespace, .inBlock pair) else read m hm (some pair) t
  | .continuing =>
    if t = [] then (.whitespace, .idle .whitespace)
    else if m.continues t then (.continuing, .continuing)
    else (.comment, .idle .comment)
  | .idle _ => if t = [] then (.whitespace, .idle .whitespace) else read m hm none t

/-- Reads the lines of a file from here on. -/
def file (m : Markers) (hm : m.Progressing) (carry : Carry) : List Text → List Verdict
  | [] => []
  | raw :: rest => (line m hm carry raw).1 :: file m hm (line m hm carry raw).2 rest

end LineCensus.Reading
