import LineCensus.Text.Blank
import LineCensus.Markers

/-!
# Finding where a block opens

A `Cursor` stands at a byte offset of a line and holds the text from there on. `Markers.firstOpening?`
is the plain search: the first place at which any block opens, and the first configured pair that
opens there. `StartCache.earliest` gives the same answer while it remembers, for each pair, where
it next opens; a pair is searched again only when the cursor has passed that place, so the ranges
searched for one pair on one line do not overlap.
-/

namespace LineCensus

/-- A place in a line: its byte offset and the text from there on. -/
structure Cursor where
  offset : Nat
  rest : Text
  deriving DecidableEq, Repr

namespace Cursor

/-- The beginning of a line. -/
def start (line : Text) : Cursor := ⟨0, line⟩

/-- The place `n` bytes further on; `none` if this is inside a character or behind the end. -/
def advance? (c : Cursor) (n : Nat) : Option Cursor := (Text.dropBytes? n c.rest).map (⟨c.offset + n, ·⟩)

/-- The place at byte `n` of a line, if there is one between its characters. -/
def at? (line : Text) (n : Nat) : Option Cursor := (start line).advance? n

/-- Skips spaces and tabs, one byte each. -/
def skipIndentFrom (n : Nat) : Text → Cursor
  | [] => ⟨n, []⟩
  | c :: t => if Text.isIndent c then skipIndentFrom (n + 1) t else ⟨n, c :: t⟩

/-- The first place from here on that holds neither a space nor a tab. -/
def skipIndent (c : Cursor) : Cursor := skipIndentFrom c.offset c.rest

/-- The cursor stands in `line`: the text before it has the size of its offset. -/
def On (line : Text) (c : Cursor) : Prop := ∃ s, line = s ++ c.rest ∧ c.offset = Text.byteSize s

theorem on_start (line : Text) : (start line).On line := ⟨[], rfl, rfl⟩

theorem On.advance? {line : Text} {c d : Cursor} {n : Nat} (h : c.On line) (hd : c.advance? n = some d) :
    d.On line := by
  obtain ⟨s, hs, ho⟩ := h
  obtain ⟨t, ht, rfl⟩ := Option.map_eq_some_iff.1 hd
  obtain ⟨u, hu, hn⟩ := Text.dropBytes?_eq_some ht
  exact ⟨s ++ u, by simp [hs, hu], by simp [ho, hn]⟩

theorem skipIndentFrom_rest (n : Nat) (t : Text) : (skipIndentFrom n t).rest = Text.trimIndent t := by
  induction t generalizing n with
  | nil => rfl
  | cons c t ih => cases h : Text.isIndent c <;> simp_all [skipIndentFrom, Text.trimIndent]

theorem skipIndent_rest (c : Cursor) : c.skipIndent.rest = Text.trimIndent c.rest :=
  skipIndentFrom_rest ..

theorem utf8Size_of_isIndent {c : Char} (h : Text.isIndent c = true) : c.utf8Size = 1 := by
  simp only [Text.isIndent, Bool.or_eq_true, decide_eq_true_eq] at h
  rcases h with rfl | rfl <;> decide

theorem On.skipIndent {line : Text} {c : Cursor} (h : c.On line) : c.skipIndent.On line := by
  have key : ∀ (t s : Text) (n : Nat), line = s ++ t → n = Text.byteSize s → (skipIndentFrom n t).On line := by
    intro t
    induction t with
    | nil => exact fun s n hs hn => ⟨s, hs, hn⟩
    | cons d t ih =>
      intro s n hs hn
      simp only [skipIndentFrom]
      split
      · rename_i hd
        exact ih (s ++ [d]) (n + 1) (by simp [hs]) (by simp [hn, utf8Size_of_isIndent hd])
      · exact ⟨s, hs, hn⟩
  obtain ⟨s, hs, ho⟩ := h
  exact key c.rest s c.offset hs ho

end Cursor

/-- The first place, counted from byte `n` on, at which a block opens, and the first pair that
opens there. -/
def Markers.firstOpening? (m : Markers) (n : Nat) : Text → Option (Nat × Nat)
  | [] => (m.block.findIdx? fun p => p.opening.isPrefixOf []).map (n, ·)
  | c :: t =>
    match m.block.findIdx? fun p => p.opening.isPrefixOf (c :: t) with
    | some i => some (n, i)
    | none => m.firstOpening? (n + c.utf8Size) t

/-- What is known about the next place at which a pair opens. -/
inductive Slot where
  | unsearched
  | at (offset : Nat)
  | absent
  deriving DecidableEq, Repr

/-- What is known about each pair, in order of configuration. -/
structure StartCache where
  slots : List Slot
  deriving DecidableEq, Repr

namespace StartCache

/-- Knows nothing, and has room for no pair. -/
def empty : StartCache := ⟨[]⟩

/-- Knows nothing yet about the pairs of `m`. -/
def fresh (m : Markers) : StartCache := ⟨m.block.map fun _ => .unsearched⟩

/-- Looks for an opening from the cursor on. -/
def search (c : Cursor) (opening : Text) : Slot :=
  match Text.occurrence? opening c.offset c.rest with
  | some (k, _) => .at k
  | none => .absent

/-- Searches again if nothing is known yet or the known place lies behind the cursor. -/
def refresh (c : Cursor) (slot : Slot) (opening : Text) : Slot :=
  match slot with
  | .absent => .absent
  | .at k => if c.offset ≤ k then .at k else search c opening
  | .unsearched => search c opening

/-- Refreshes the slots of the given pairs. -/
def refreshAll (c : Cursor) : List Slot → List BlockPair → List Slot
  | s :: ss, p :: ps => refresh c s p.opening :: refreshAll c ss ps
  | ss, _ => ss

/-- The least offset in the slots with its index, the first index on a tie; `i` is the index of
the first slot. -/
def least (i : Nat) : List Slot → Option (Nat × Nat)
  | [] => none
  | .at k :: ss =>
    match least (i + 1) ss with
    | some (k', j) => if k' < k then some (k', j) else some (k, i)
    | none => some (k, i)
  | _ :: ss => least (i + 1) ss

/-- The first place from the cursor on at which a block opens, the first pair that opens there,
and what is known afterwards. -/
def earliest (m : Markers) (cache : StartCache) (c : Cursor) : Option (Nat × Nat) × StartCache :=
  let slots := refreshAll c cache.slots m.block
  (least 0 (slots.take m.block.length), ⟨slots⟩)

end StartCache

end LineCensus
