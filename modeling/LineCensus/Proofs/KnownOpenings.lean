import Mathlib.Data.List.Forall2
import LineCensus.Proofs.Occurrence

/-!
# Known openings stay right

A `StartCache` is asked from places of one line, each at or behind the one before (`Cursor.Reaches`).
What it knows is right at a place when refreshing it there gives what a search from there would give
(`StartCache.Knows`). A fresh cache knows nothing wrong, and what is right at one place is right at
every place behind it, so `earliest` always answers as the plain search (`earliest_eq`).
-/

namespace LineCensus

namespace Cursor

/-- The second place lies at or behind the first. -/
def Reaches (c d : Cursor) : Prop := ∃ s, c.rest = s ++ d.rest ∧ d.offset = c.offset + Text.byteSize s

theorem Reaches.refl (c : Cursor) : c.Reaches c := ⟨[], rfl, rfl⟩

theorem Reaches.trans {c d e : Cursor} (h : c.Reaches d) (h' : d.Reaches e) : c.Reaches e := by
  obtain ⟨s, hs, ho⟩ := h
  obtain ⟨s', hs', ho'⟩ := h'
  exact ⟨s ++ s', by rw [hs, hs', List.append_assoc], by rw [ho', ho, Text.byteSize_append, Nat.add_assoc]⟩

theorem reaches_skipIndentFrom (n : Nat) (t : Text) : Reaches ⟨n, t⟩ (skipIndentFrom n t) := by
  induction t generalizing n with
  | nil => exact Reaches.refl _
  | cons c t ih =>
    simp only [skipIndentFrom]
    split
    · rename_i hc
      obtain ⟨s, hs, ho⟩ := ih (n + 1)
      refine ⟨c :: s, congrArg (c :: ·) hs, ?_⟩
      rw [ho, Text.byteSize_cons, utf8Size_of_isIndent hc, Nat.add_assoc]
    · exact Reaches.refl _

theorem reaches_skipIndent (c : Cursor) : c.Reaches c.skipIndent := reaches_skipIndentFrom c.offset c.rest

/-- A cursor moves over a front of the text before it. -/
theorem advance?_of_append {c : Cursor} {s t : Text} (h : c.rest = s ++ t) :
    c.advance? (Text.byteSize s) = some ⟨c.offset + Text.byteSize s, t⟩ := by
  rw [advance?, h, Text.dropBytes?_append]
  rfl

end Cursor

namespace StartCache

section Search

variable {c d : Cursor} {opening : Text}

/-- Searching again from further on agrees with a search that found a place there or no place. -/
theorem refresh_search (h : c.Reaches d) : refresh d (search c opening) opening = search d opening := by
  obtain ⟨s, hs, ho⟩ := h
  unfold search
  rw [hs, ho]
  split
  · rename_i k u hk
    simp only [refresh, search, ho]
    split
    · rw [Text.occurrence?_append_of_le hk ‹_›]
    · rfl
  · rename_i hk
    rw [Text.occurrence?_append_of_none hk]
    rfl

/-- What is right at one place is right at every place behind it. -/
theorem refresh_of_reaches {slot : Slot} (h : c.Reaches d) (hc : refresh c slot opening = search c opening) :
    refresh d slot opening = search d opening := by
  cases slot with
  | unsearched => rfl
  | absent =>
    rw [← refresh_search h, ← hc]
    rfl
  | «at» k =>
    by_cases hk : c.offset ≤ k
    · rw [← refresh_search h, ← hc]
      simp only [refresh, hk, if_true]
    · obtain ⟨s, -, ho⟩ := h
      simp only [refresh]
      rw [if_neg (by omega)]

theorem le_of_search {k : Nat} (h : search c opening = .at k) : c.offset ≤ k := by
  unfold search at h
  split at h
  · cases h
    exact Text.le_of_occurrence? ‹_›
  · cases h

theorem search_cons (n : Nat) (a : Char) (t : Text) :
    search ⟨n, a :: t⟩ opening =
      if opening.isPrefixOf (a :: t) then .at n else search ⟨n + a.utf8Size, t⟩ opening := by
  simp only [search, Text.occurrence?]
  split
  · rename_i h
    split at h <;> simp_all
  · rename_i h
    split at h <;> simp_all

theorem search_nil (n : Nat) :
    search ⟨n, []⟩ opening = if opening.isPrefixOf [] then .at n else .absent := by
  simp only [search, Text.occurrence?]
  split
  · rename_i h
    split at h <;> simp_all
  · rename_i h
    split at h <;> simp_all

end Search

/-! ### The least of the slots -/

theorem at_mem_of_least {i j k : Nat} {slots : List Slot} (h : least i slots = some (k, j)) : Slot.at k ∈ slots := by
  induction slots generalizing i with
  | nil => cases h
  | cons slot slots ih =>
    cases slot with
    | unsearched => exact List.mem_cons_of_mem _ (ih h)
    | absent => exact List.mem_cons_of_mem _ (ih h)
    | «at» n =>
      simp only [least] at h
      split at h
      · rename_i hl
        split at h
        · cases h
          exact List.mem_cons_of_mem _ (ih hl)
        · cases h
          exact List.mem_cons_self
      · cases h
        exact List.mem_cons_self

/-- If no slot holds less than `n`, the first slot that holds `n` is the least. -/
theorem least_of_findIdx? {n i j : Nat} {slots : List Slot} (hle : ∀ k, Slot.at k ∈ slots → n ≤ k)
    (h : slots.findIdx? (fun s => decide (s = .at n)) = some j) : least i slots = some (n, i + j) := by
  induction slots generalizing i j with
  | nil => cases h
  | cons slot slots ih =>
    have hle' : ∀ k, Slot.at k ∈ slots → n ≤ k := fun k hk => hle k (List.mem_cons_of_mem _ hk)
    rw [List.findIdx?_cons] at h
    split at h
    · rename_i hs
      cases h
      rw [of_decide_eq_true hs, least]
      split
      · rename_i k' j' hl
        rw [if_neg (Nat.not_lt.2 (hle' k' (at_mem_of_least hl))), Nat.add_zero]
      · rfl
    · rename_i hs
      obtain ⟨j', hj', rfl⟩ := Option.map_eq_some_iff.1 h
      have hl := ih (i := i + 1) hle' hj'
      rw [Nat.add_assoc, Nat.add_comm 1 j'] at hl
      cases slot with
      | unsearched => exact hl
      | absent => exact hl
      | «at» k =>
        have hk := hle k List.mem_cons_self
        have hne : k ≠ n := by
          rintro rfl
          simp at hs
        rw [least, hl]
        exact if_pos (by omega)

theorem least_of_absent {i : Nat} {slots : List Slot} (h : ∀ s ∈ slots, s = .absent) : least i slots = none := by
  induction slots generalizing i with
  | nil => rfl
  | cons slot slots ih =>
    rw [h slot List.mem_cons_self]
    exact ih fun s hs => h s (List.mem_cons_of_mem _ hs)

/-- If the searches that find their opening at `n` are those of the pairs that open at `n`, the first
such pair has the least place. -/
theorem least_search_of_findIdx? {ps : List BlockPair} {n j : Nat} {t : Text}
    (hs : ∀ p : BlockPair, search ⟨n, t⟩ p.opening = .at n ↔ p.opening.isPrefixOf t)
    (hj : ps.findIdx? (fun p => p.opening.isPrefixOf t) = some j) :
    least 0 (ps.map fun p => search ⟨n, t⟩ p.opening) = some (n, j) := by
  rw [← Nat.zero_add j]
  apply least_of_findIdx?
  · intro k hk
    obtain ⟨p, -, hp⟩ := List.mem_map.1 hk
    exact le_of_search hp
  · rw [List.findIdx?_map, ← hj]
    congr 1
    funext p
    exact Bool.eq_iff_iff.2 (decide_eq_true_iff.trans (hs p))

/-- The least place of a search for every pair is the first place at which any block opens. -/
theorem least_search (m : Markers) (n : Nat) (t : Text) :
    least 0 (m.block.map fun p => search ⟨n, t⟩ p.opening) = m.firstOpening? n t := by
  induction t generalizing n with
  | nil =>
    have hs : ∀ p : BlockPair, search ⟨n, []⟩ p.opening = .at n ↔ p.opening.isPrefixOf [] := by
      intro p
      rw [search_nil]
      split <;> simp_all
    cases hj : m.block.findIdx? (fun p => p.opening.isPrefixOf []) with
    | some j => simp only [Markers.firstOpening?, least_search_of_findIdx? hs hj, hj, Option.map_some]
    | none =>
      simp only [Markers.firstOpening?, hj, Option.map_none]
      apply least_of_absent
      intro s hm
      obtain ⟨p, hp, rfl⟩ := List.mem_map.1 hm
      rw [search_nil, if_neg]
      exact Bool.not_eq_true _ ▸ List.findIdx?_eq_none_iff.1 hj p hp
  | cons a t ih =>
    have ha := Char.utf8Size_pos a
    have hs : ∀ p : BlockPair, search ⟨n, a :: t⟩ p.opening = .at n ↔ p.opening.isPrefixOf (a :: t) := by
      intro p
      rw [search_cons]
      split
      · simp_all
      · refine ⟨fun h => ?_, fun h => absurd h ‹_›⟩
        have := le_of_search h
        simp only at this
        omega
    cases hj : m.block.findIdx? (fun p => p.opening.isPrefixOf (a :: t)) with
    | some j => simp only [Markers.firstOpening?, least_search_of_findIdx? hs hj, hj]
    | none =>
      simp only [Markers.firstOpening?, hj]
      rw [← ih]
      congr 1
      apply List.map_congr_left
      intro p hp
      rw [search_cons, if_neg]
      exact Bool.not_eq_true _ ▸ List.findIdx?_eq_none_iff.1 hj p hp

/-! ### What is known about a line -/

/-- Refreshing any slot at this place gives what a search from this place finds. -/
def Knows (m : Markers) (cache : StartCache) (c : Cursor) : Prop :=
  List.Forall₂ (fun slot p => refresh c slot p.opening = search c p.opening) cache.slots m.block

theorem knows_fresh (m : Markers) (c : Cursor) : Knows m (.fresh m) c :=
  List.forall₂_map_left_iff.2 (List.forall₂_same.2 fun _ _ => rfl)

theorem Knows.mono {m : Markers} {cache : StartCache} {c d : Cursor} (h : Knows m cache c) (hd : c.Reaches d) :
    Knows m cache d :=
  h.imp fun _ _ => refresh_of_reaches hd

theorem refreshAll_eq {m : Markers} {cache : StartCache} {c : Cursor} (h : Knows m cache c) :
    refreshAll c cache.slots m.block = m.block.map fun p => search c p.opening := by
  unfold Knows at h
  generalize cache.slots = slots, m.block = pairs at h ⊢
  induction h with
  | nil => rfl
  | cons hs _ ih => rw [refreshAll, hs, ih, List.map_cons]

/-- A cache that knows a line answers as the plain search, and still knows the line. -/
theorem earliest_eq {m : Markers} {cache : StartCache} {c : Cursor} (h : Knows m cache c) :
    ∃ cache', cache.earliest m c = (m.firstOpening? c.offset c.rest, cache') ∧ Knows m cache' c := by
  refine ⟨⟨m.block.map fun p => search c p.opening⟩, ?_, ?_⟩
  · have hl : (m.block.map fun p => search c p.opening).take m.block.length =
        m.block.map fun p => search c p.opening := List.take_of_length_le (by simp)
    simp only [earliest, refreshAll_eq h]
    rw [hl, least_search]
  · exact List.forall₂_map_left_iff.2 (List.forall₂_same.2 fun _ _ => refresh_search (.refl c))

end StartCache

end LineCensus
