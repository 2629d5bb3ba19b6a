import LineCensus.StartCache.Calls
import LineCensus.Proofs.Boundaries

/-!
# A remembered opening is the next one

A cache that is asked at places of one line which never go back answers every time as a search of the bytes that
remembers nothing (`StartCache.earliestAll_fresh`), whatever the openings are: they may overlap, begin alike, or be
empty. The bytes of an opening that is not empty stand at boundaries only, and an empty one stands wherever the
search begins, so the least place at which bytes match is one at which characters do
(`Cursor.On.exists_split`).
-/

namespace LineCensus

namespace Cursor

variable {line : Text} {c d : Cursor}

/-- Of two places of a line the one with the greater offset lies behind the other. -/
theorem On.reaches (hc : c.On line) (hd : d.On line) (h : c.offset ≤ d.offset) : c.Reaches d := by
  obtain ⟨s, hs, ho⟩ := hc
  obtain ⟨s', hs', ho'⟩ := hd
  obtain ⟨w, hw, hrest⟩ | ⟨w, hw, hrest⟩ := List.append_eq_append_iff.1 (hs.symm.trans hs')
  · refine ⟨w, hrest, ?_⟩
    rw [ho', hw, Text.byteSize_append, ho]
  · -- nothing stands between the two places
    have hsize := congrArg Text.byteSize hw
    rw [Text.byteSize_append] at hsize
    obtain rfl : w = [] := by
      cases w with
      | nil => rfl
      | cons a w =>
        have ha := Char.utf8Size_pos a
        rw [Text.byteSize_cons] at hsize
        omega
    refine ⟨[], by simpa using hrest.symm, ?_⟩
    rw [Text.byteSize_nil] at hsize ⊢
    omega

theorem exists_at? {n : Nat} (h : Utf8.IsBoundary (Utf8.encode line) n) :
    ∃ c, at? line n = some c ∧ c.On line ∧ c.offset = n := by
  obtain ⟨s, u, hs, rfl⟩ := Utf8.isBoundary_encode_iff.1 h
  refine ⟨_, advance?_of_append (c := start line) hs, ⟨s, hs, Nat.zero_add _⟩, Nat.zero_add _⟩

/-- Where the bytes of a text stand in a line, its characters do; those of the empty text stand everywhere. -/
theorem On.exists_split (hc : c.On line) {opening : Text} {k : Nat} (hk : c.offset ≤ k)
    (h : Utf8.encode opening <+: (Utf8.encode line).drop k) :
    ∃ s u, c.rest = s ++ u ∧ opening <+: u ∧ c.offset + Text.byteSize s ≤ k := by
  cases opening with
  | nil => exact ⟨[], c.rest, rfl, List.nil_prefix, by simpa using hk⟩
  | cons a opening =>
    have hboundary : Utf8.IsBoundary (Utf8.encode line) k := by
      obtain ⟨b, r, hbr, hb, -⟩ := Utf8.encodeChar_eq_cons a
      obtain ⟨w, hw⟩ := h
      rw [Utf8.encode_cons, hbr, List.cons_append, List.cons_append] at hw
      have hat : (Utf8.encode line)[k]? = some b := by
        rw [← Nat.add_zero k, ← List.getElem?_drop, ← hw]
        rfl
      refine ⟨Nat.le_of_lt (List.getElem?_eq_some_iff.1 hat).1, fun b' hb' => ?_⟩
      cases hat.symm.trans hb'
      exact hb
    obtain ⟨d, -, hd, rfl⟩ := exists_at? hboundary
    obtain ⟨s, hs, ho⟩ := hc.reaches hd hk
    rw [hd.drop_encode] at h
    exact ⟨s, d.rest, hs, Utf8.encode_isPrefix_iff.1 h, by omega⟩

end Cursor

namespace Markers

variable {m : Markers} {line : Text} {c : Cursor}

/-- The plain search finds what the bytes of the line say. -/
theorem firstFrom_firstOpening? (hc : c.On line) :
    m.FirstFrom line c.offset (m.firstOpening? c.offset c.rest) := by
  cases hf : m.firstOpening? c.offset c.rest with
  | none =>
    refine .absent ?_
    rintro k pair hk ⟨b, hb, hopens⟩
    obtain ⟨s, u, hs, hu, -⟩ := hc.exists_split hk hopens
    exact firstOpening?_eq_none_iff.1 hf b (List.mem_of_getElem? hb) s u hs hu
  | some found =>
    obtain ⟨k, pair⟩ := found
    obtain ⟨s, u, b, hs, rfl, hb, hu, hbefore, hmin⟩ := firstOpening?_spec hf
    have hd : Cursor.On line ⟨c.offset + Text.byteSize s, u⟩ := Cursor.Reaches.on ⟨s, hs, rfl⟩ hc
    refine .found (Nat.le_add_right ..) ⟨b, hb, ?_⟩ ?_ ?_
    · rw [hd.drop_encode]
      exact Utf8.encode_isPrefix_iff.2 hu
    · rintro k' pair' hk' ⟨b', hb', hopens⟩
      obtain ⟨s', u', hs', hu', hle⟩ := hc.exists_split hk' hopens
      have hlength := hmin s' u' hs' b' (List.mem_of_getElem? hb') hu'
      obtain ⟨w, rfl⟩ := List.prefix_of_prefix_length_le ⟨u, hs.symm⟩ ⟨u', hs'.symm⟩ hlength
      rw [Text.byteSize_append] at hle
      omega
    · rintro pair' ⟨b', hb', hopens⟩
      rw [hd.drop_encode] at hopens
      have hopening := Utf8.encode_isPrefix_iff.1 hopens
      exact Nat.le_of_not_lt fun hlt => hbefore pair' hlt b' hb' hopening

end Markers

namespace StartCache

variable {m : Markers} {line : Text}

/-- A cache that knows a line at one place answers at all places behind it as a search that remembers nothing. -/
theorem earliestAll_of_knows {cache : StartCache} {c : Cursor} (hc : c.On line) (hk : cache.Knows m c)
    {offsets : List Nat} (hb : ∀ n ∈ offsets, Utf8.IsBoundary (Utf8.encode line) n)
    (hle : (c.offset :: offsets).Pairwise (· ≤ ·)) :
    ∃ answers cache', earliestAll m line cache offsets = some (answers, cache') ∧
      List.Forall₂ (m.FirstFrom line) offsets answers := by
  induction offsets generalizing cache c with
  | nil => exact ⟨[], cache, rfl, .nil⟩
  | cons n rest ih =>
    obtain ⟨hn, hrest⟩ := List.pairwise_cons.1 hle
    obtain ⟨d, hat, hd, rfl⟩ := Cursor.exists_at? (hb n List.mem_cons_self)
    have hreaches := hc.reaches hd (hn _ List.mem_cons_self)
    obtain ⟨cache₁, hearliest, hk₁⟩ := earliest_eq (hk.mono hreaches)
    obtain ⟨answers, cache', hanswers, hall⟩ := ih hd hk₁ (fun k hk => hb k (List.mem_cons_of_mem _ hk)) hrest
    refine ⟨m.firstOpening? d.offset d.rest :: answers, cache', ?_, .cons (Markers.firstFrom_firstOpening? hd) hall⟩
    simp only [earliestAll, hat, hearliest, hanswers]

/-- **A remembered opening is the next one**: asked at boundaries of a line that never go back, a cache that is
reset before the line gives every time the one answer that a search of the bytes from there on gives. -/
theorem earliestAll_fresh (m : Markers) (line : Text) {offsets : List Nat}
    (hb : ∀ n ∈ offsets, Utf8.IsBoundary (Utf8.encode line) n) (hle : offsets.Pairwise (· ≤ ·)) :
    ∃ answers cache, earliestAll m line (.fresh m) offsets = some (answers, cache) ∧
      List.Forall₂ (fun n found => ∀ other, m.FirstFrom line n other ↔ other = found) offsets answers := by
  have hstart : ((Cursor.start line).offset :: offsets).Pairwise (· ≤ ·) :=
    List.pairwise_cons.2 ⟨fun n _ => Nat.zero_le n, hle⟩
  obtain ⟨answers, cache, hanswers, hall⟩ :=
    earliestAll_of_knows (Cursor.on_start line) (knows_fresh m _) hb hstart
  refine ⟨answers, cache, hanswers, hall.imp fun n found hfound other => ⟨fun h => h.unique hfound, ?_⟩⟩
  rintro rfl
  exact hfound

/-- Two openings begin alike, and a third one is empty. -/
def alikeAndEmpty : Markers :=
  ⟨[], [⟨"/**".toList, "**/".toList⟩, ⟨"/*".toList, "*/".toList⟩, ⟨[], "x".toList⟩], []⟩

/-- One byte is asked for twice, and at the next one the nearest opening is another one. -/
theorem earliestAll_fresh_alike : (∀ n ∈ [0, 2, 2, 3, 5, 7], Utf8.IsBoundary (Utf8.encode "é/**/*".toList) n) ∧
    [0, 2, 2, 3, 5, 7].Pairwise (· ≤ ·) ∧
    ∃ cache, earliestAll alikeAndEmpty "é/**/*".toList (.fresh alikeAndEmpty) [0, 2, 2, 3, 5, 7] =
        some ([some (0, 2), some (2, 0), some (2, 0), some (3, 2), some (5, 1), some (7, 2)], cache) ∧
      alikeAndEmpty.FirstFrom "é/**/*".toList 2 (some (2, 0)) ∧
      alikeAndEmpty.FirstFrom "é/**/*".toList 3 (some (3, 2)) := by
  have hb : ∀ n ∈ [0, 2, 2, 3, 5, 7], Utf8.IsBoundary (Utf8.encode "é/**/*".toList) n := by
    decide +kernel
  have hle : [0, 2, 2, 3, 5, 7].Pairwise (· ≤ ·) := by decide
  have hrun : earliestAll alikeAndEmpty "é/**/*".toList (.fresh alikeAndEmpty) [0, 2, 2, 3, 5, 7] =
      some ([some (0, 2), some (2, 0), some (2, 0), some (3, 2), some (5, 1), some (7, 2)],
        ⟨[.absent, .absent, .at 7]⟩) := by decide
  obtain ⟨answers, cache, hanswers, hall⟩ := earliestAll_fresh alikeAndEmpty "é/**/*".toList hb hle
  cases hrun.symm.trans hanswers
  obtain ⟨-, hrest⟩ := List.forall₂_cons.1 hall
  obtain ⟨htwo, hrest⟩ := List.forall₂_cons.1 hrest
  obtain ⟨-, hrest⟩ := List.forall₂_cons.1 hrest
  obtain ⟨hthree, -⟩ := List.forall₂_cons.1 hrest
  exact ⟨hb, hle, _, hanswers, (htwo _).2 rfl, (hthree _).2 rfl⟩

end StartCache

end LineCensus
