import Mathlib.Algebra.Order.Ring.Nat
import Mathlib.Order.Interval.Finset.Nat
import LineCensus.Proofs.CachedSearch

/-!
# No part of a line is searched twice

`StartCache.askedAll` keeps a record of the calls of a cache: from which byte each one starts, and what is known about
every pair before and behind it. A slot that does not answer a call (`Slot.isSearched`) is searched for, from the byte
of the call to the opening that is found or to the end of the line (`StartCache.Search`). The next search for the same
pair begins behind that place (`lt_start_of_mem_searches`), so what is searched for one pair does not overlap
(`StartCache.Sparing`), however many openings the line holds and even if later calls start further to the front.

`Progress.asked` are the bytes from which a line that is read asks for openings. They are boundaries and never go back,
and the cache goes from call to call (`Progress.earliestAll_asked`).
-/

namespace LineCensus

namespace Cursor

variable {line : Text} {c : Cursor}

theorem on_of_at? {n : Nat} (h : at? line n = some c) : c.On line ∧ c.offset = n := by
  refine ⟨(on_start line).advance? h, ?_⟩
  obtain ⟨t, -, rfl⟩ := Option.map_eq_some_iff.1 h
  exact Nat.zero_add n

theorem On.at?_eq (h : c.On line) : at? line c.offset = some c := by
  obtain ⟨s, hs, ho⟩ := h
  have hat := advance?_of_append (c := start line) hs
  rw [← ho] at hat
  rw [at?, hat, start, Nat.zero_add]

end Cursor

namespace Slot

/-- What is known does not answer a call from byte `n`. -/
def isSearched (n : Nat) : Slot → Bool
  | unsearched => true
  | .at k => k < n
  | absent => false

/-- Where the search stopped that left this known, on a line of this size. -/
def stop (size : Nat) : Slot → Nat
  | .at k => k
  | _ => size

end Slot

namespace StartCache

/-! ### Records of calls -/

/-- A call: the byte from which it starts, and what is known about each pair before and behind it. -/
structure Asked where
  offset : Nat
  before : List Slot
  after : List Slot
  deriving DecidableEq, Repr

/-- A search for an opening, from byte `start` to byte `stop`, where the opening stands or the line ends. -/
structure Search where
  start : Nat
  stop : Nat
  deriving DecidableEq, Repr

/-- The offsets that a search passes. -/
def Search.covered (s : Search) : Finset Nat := Finset.Icc s.start s.stop

/-- The search for the opening of a pair that a call on a line of this size makes, if it makes one. -/
def Asked.search? (a : Asked) (size pair : Nat) : Option Search :=
  match a.before[pair]?, a.after[pair]? with
  | some before, some after => if before.isSearched a.offset then some ⟨a.offset, after.stop size⟩ else none
  | _, _ => none

/-- The calls from these bytes of a line, one after the other, as far as they are boundaries. -/
def askedAll (m : Markers) (line : Text) (cache : StartCache) : List Nat → List Asked
  | [] => []
  | n :: rest =>
    match Cursor.at? line n with
    | none => []
    | some c =>
      let behind := (cache.earliest m c).2
      ⟨n, cache.slots, behind.slots⟩ :: askedAll m line behind rest

/-- The searches for the opening of a pair that calls from these bytes of a line make. -/
def searches (m : Markers) (line : Text) (cache : StartCache) (offsets : List Nat) (pair : Nat) : List Search :=
  (askedAll m line cache offsets).filterMap (·.search? (Text.byteSize line) pair)

/-- How calls from these bytes of a line search, if nothing is known before them. -/
structure Sparing (m : Markers) (line : Text) (offsets : List Nat) : Prop where
  /-- Every call is answered. -/
  answered : (askedAll m line (.fresh m) offsets).map Asked.offset = offsets
  /-- A call changes what is known by a search only. -/
  slots : ∀ a ∈ askedAll m line (.fresh m) offsets, ∀ (pair : Nat) (b : BlockPair), m.block[pair]? = some b →
    ∃ c slot, Cursor.at? line a.offset = some c ∧ a.before[pair]? = some slot ∧
      a.after[pair]? = some (if Slot.isSearched a.offset slot then search c b.opening else slot)
  /-- What is known to be absent is not searched for again. -/
  never : ∀ pair : Nat, (askedAll m line (.fresh m) offsets).Pairwise fun a b =>
    a.after[pair]? = some .absent → b.search? (Text.byteSize line) pair = none
  /-- A known place is searched for again only from behind it, and then a place there is found or none. -/
  passed : ∀ a ∈ askedAll m line (.fresh m) offsets, ∀ pair k : Nat, a.before[pair]? = some (.at k) →
    ((∃ s, a.search? (Text.byteSize line) pair = some s) ↔ k < a.offset) ∧
      (k < a.offset → a.after[pair]? = some .absent ∨
        ∃ k', a.after[pair]? = some (.at k') ∧ a.offset ≤ k' ∧ k < k')
  /-- Searches for one pair do not overlap. -/
  disjoint : ∀ pair, (searches m line (.fresh m) offsets pair).Pairwise fun s s' => Disjoint s.covered s'.covered
  /-- Together they pass every offset of the line and its end once at most. -/
  covered : ∀ pair, ((searches m line (.fresh m) offsets pair).map fun s => s.covered.card).sum ≤
    Text.byteSize line + 1

/-! ### One call -/

section Call

variable {m : Markers} {line : Text} {cache : StartCache} {c : Cursor} {pair : Nat}

theorem refresh_eq (c : Cursor) (slot : Slot) (opening : Text) :
    refresh c slot opening = if slot.isSearched c.offset then search c opening else slot := by
  cases slot with
  | unsearched => rfl
  | absent => rfl
  | «at» k =>
    simp only [refresh, Slot.isSearched, decide_eq_true_eq]
    by_cases hk : c.offset ≤ k
    · rw [if_pos hk, if_neg (by omega)]
    · rw [if_neg hk, if_pos (by omega)]

theorem getElem?_refreshAll {slots : List Slot} {pairs : List BlockPair} {slot : Slot} {b : BlockPair}
    (hslot : slots[pair]? = some slot) (hb : pairs[pair]? = some b) :
    (refreshAll c slots pairs)[pair]? = some (refresh c slot b.opening) := by
  induction slots generalizing pairs pair with
  | nil => cases hslot
  | cons s slots ih =>
    cases pairs with
    | nil => cases hb
    | cons p pairs =>
      cases pair with
      | zero =>
        cases hslot
        cases hb
        rfl
      | succ pair => exact ih hslot hb

theorem length_refreshAll (c : Cursor) (slots : List Slot) (pairs : List BlockPair) :
    (refreshAll c slots pairs).length = slots.length := by
  induction slots generalizing pairs with
  | nil => cases pairs <;> rfl
  | cons s slots ih =>
    cases pairs with
    | nil => rfl
    | cons p pairs => rw [refreshAll, List.length_cons, ih, List.length_cons]

/-- What is found lies between the cursor and the end of the line. -/
theorem search_cases (hc : c.On line) (opening : Text) :
    search c opening = .absent ∨
      ∃ k, search c opening = .at k ∧ c.offset ≤ k ∧ k ≤ Text.byteSize line := by
  unfold search
  split
  · rename_i k u hk
    obtain ⟨s, hs, rfl, -⟩ := Text.occurrence?_spec hk
    obtain ⟨front, hline, ho⟩ := hc
    refine .inr ⟨_, rfl, Nat.le_add_right _ _, ?_⟩
    rw [hline, hs, Text.byteSize_append, Text.byteSize_append]
    omega
  · exact .inl rfl

/-- A search stops within the line, and what it leaves known lets the next one start behind that place only. -/
theorem stop_search (hc : c.On line) (opening : Text) :
    c.offset ≤ (search c opening).stop (Text.byteSize line) ∧
      (search c opening).stop (Text.byteSize line) ≤ Text.byteSize line ∧
      ∀ n, (search c opening).isSearched n = true → (search c opening).stop (Text.byteSize line) < n := by
  obtain habsent | ⟨k, hat, hle, hsize⟩ := search_cases hc opening
  · obtain ⟨s, hs, ho⟩ := hc
    have hsize : c.offset ≤ Text.byteSize line := by
      rw [hs, Text.byteSize_append]
      omega
    rw [habsent]
    exact ⟨hsize, Nat.le_refl _, nofun⟩
  · rw [hat]
    exact ⟨hle, hsize, fun n hn => of_decide_eq_true hn⟩

/-- Every pair has a slot. -/
def Fits (m : Markers) (cache : StartCache) : Prop := cache.slots.length = m.block.length

theorem fits_fresh (m : Markers) : Fits m (.fresh m) := List.length_map _

theorem Fits.earliest (h : cache.Fits m) (c : Cursor) : Fits m (cache.earliest m c).2 :=
  (length_refreshAll c cache.slots m.block).trans h

theorem Fits.exists_pair (h : cache.Fits m) {slot : Slot} (hslot : cache.slots[pair]? = some slot) :
    ∃ b, m.block[pair]? = some b := by
  obtain ⟨hlt, -⟩ := List.getElem?_eq_some_iff.1 hslot
  exact ⟨_, List.getElem?_eq_getElem (h ▸ hlt)⟩

/-- What is known about a pair behind a call. -/
theorem Fits.getElem?_earliest (h : cache.Fits m) {slot : Slot} (hslot : cache.slots[pair]? = some slot) :
    ∃ b, m.block[pair]? = some b ∧
      (cache.earliest m c).2.slots[pair]? = some (if slot.isSearched c.offset then search c b.opening else slot) := by
  obtain ⟨b, hb⟩ := h.exists_pair hslot
  refine ⟨b, hb, ?_⟩
  rw [← refresh_eq]
  exact getElem?_refreshAll hslot hb

end Call

/-! ### All calls -/

section Calls

variable {m : Markers} {line : Text} {cache : StartCache} {offsets : List Nat} {pair : Nat}

/-- All calls from boundaries are answered. -/
theorem map_offset_askedAll (hb : ∀ n ∈ offsets, Utf8.IsBoundary (Utf8.encode line) n) (cache : StartCache) :
    (askedAll m line cache offsets).map Asked.offset = offsets := by
  induction offsets generalizing cache with
  | nil => rfl
  | cons n rest ih =>
    obtain ⟨hn, hrest⟩ := List.forall_mem_cons.1 hb
    obtain ⟨c, hc, -⟩ := Cursor.exists_at? hn
    rw [askedAll, hc, List.map_cons, ih hrest]

/-- What is recorded is a call of a cache that has a slot for every pair. -/
theorem exists_call_of_mem (h : cache.Fits m) {a : Asked} (ha : a ∈ askedAll m line cache offsets) :
    ∃ (cache : StartCache) (c : Cursor), cache.Fits m ∧ Cursor.at? line a.offset = some c ∧
      a.before = cache.slots ∧ a.after = (cache.earliest m c).2.slots := by
  induction offsets generalizing cache with
  | nil => cases ha
  | cons n rest ih =>
    rw [askedAll] at ha
    split at ha
    · cases ha
    · rename_i c hc
      obtain rfl | ha := List.mem_cons.1 ha
      · exact ⟨cache, c, h, hc, rfl, rfl⟩
      · exact ih (h.earliest c) ha

/-- A search that a call makes for a pair of which this is known. -/
theorem search?_eq_some (h : cache.Fits m) {c : Cursor} {slot : Slot} (hslot : cache.slots[pair]? = some slot)
    {s : Search}
    (hs : Asked.search? ⟨c.offset, cache.slots, (cache.earliest m c).2.slots⟩ (Text.byteSize line) pair = some s) :
    slot.isSearched c.offset = true ∧ ∃ b : BlockPair, s = ⟨c.offset, (search c b.opening).stop (Text.byteSize line)⟩ ∧
      (cache.earliest m c).2.slots[pair]? = some (search c b.opening) := by
  obtain ⟨b, -, hbehind⟩ := h.getElem?_earliest (c := c) hslot
  simp only [Asked.search?, hslot, hbehind] at hs
  split at hs
  · rename_i hsearched
    rw [if_pos hsearched] at hbehind
    cases hs
    exact ⟨hsearched, b, rfl, hbehind⟩
  · cases hs

/-- What a call leaves known lets no search start that was not let start before. -/
theorem isSearched_of_call {c : Cursor} (hc : c.On line) {slot : Slot} {opening : Text} {n : Nat}
    (h : (if slot.isSearched c.offset then search c opening else slot).isSearched n = true) :
    slot.isSearched n = true := by
  split at h
  · rename_i hsearched
    obtain habsent | ⟨k', hat, hle, -⟩ := search_cases hc opening
    · rw [habsent] at h
      cases h
    · rw [hat] at h
      have hn : k' < n := of_decide_eq_true h
      cases slot with
      | unsearched => rfl
      | absent => cases hsearched
      | «at» k =>
        have hk : k < c.offset := of_decide_eq_true hsearched
        exact decide_eq_true (by omega)
  · exact h

/-- The searches of the first call come before those of the others. -/
theorem searches_cons {n : Nat} {c : Cursor} (hc : Cursor.at? line n = some c) :
    searches m line cache (n :: offsets) pair =
      (Asked.search? ⟨n, cache.slots, (cache.earliest m c).2.slots⟩ (Text.byteSize line) pair).toList ++
        searches m line (cache.earliest m c).2 offsets pair := by
  simp only [searches, askedAll, hc, List.filterMap_cons]
  split
  · rename_i hnone
    rw [hnone]
    rfl
  · rename_i s hsome
    rw [hsome]
    rfl

/-- A pair without a slot is not searched for. -/
theorem searches_of_no_slot (h : cache.Fits m) (hslot : cache.slots[pair]? = none) :
    searches m line cache offsets pair = [] := by
  apply List.filterMap_eq_nil_iff.2
  intro a ha
  obtain ⟨cache', c, hfits, -, hbefore, -⟩ := exists_call_of_mem h ha
  have hnone : a.before[pair]? = none := by
    rw [List.getElem?_eq_none_iff] at hslot ⊢
    rw [hbefore, hfits, ← h]
    exact hslot
  simp only [Asked.search?, hnone]

/-- Every search starts where what was known in the beginning gives no answer. -/
theorem isSearched_of_mem_searches (h : cache.Fits m) {slot : Slot} (hslot : cache.slots[pair]? = some slot)
    {s : Search} (hs : s ∈ searches m line cache offsets pair) : slot.isSearched s.start = true := by
  induction offsets generalizing cache slot with
  | nil => cases hs
  | cons n rest ih =>
    cases hc : Cursor.at? line n with
    | none =>
      simp only [searches, askedAll, hc] at hs
      cases hs
    | some c =>
      obtain ⟨hon, rfl⟩ := Cursor.on_of_at? hc
      rw [searches_cons hc] at hs
      obtain hfirst | hrest := List.mem_append.1 hs
      · obtain ⟨hsearched, b, rfl, -⟩ := search?_eq_some h hslot (Option.mem_toList.1 hfirst)
        exact hsearched
      · obtain ⟨b, -, hbehind⟩ := h.getElem?_earliest (c := c) hslot
        exact isSearched_of_call hon (ih (h.earliest c) hbehind hrest)

/-- A search stops within the line, and the next one for the same pair starts behind it. -/
theorem searches_pairwise (h : cache.Fits m) :
    (searches m line cache offsets pair).Pairwise (fun s s' => s.stop < s'.start) ∧
      ∀ s ∈ searches m line cache offsets pair, s.start ≤ s.stop ∧ s.stop ≤ Text.byteSize line := by
  cases hslot : cache.slots[pair]? with
  | none =>
    rw [searches_of_no_slot h hslot]
    exact ⟨.nil, nofun⟩
  | some slot =>
    induction offsets generalizing cache slot with
    | nil => exact ⟨.nil, nofun⟩
    | cons n rest ih =>
      cases hc : Cursor.at? line n with
      | none =>
        simp only [searches, askedAll, hc]
        exact ⟨.nil, nofun⟩
      | some c =>
        obtain ⟨hon, rfl⟩ := Cursor.on_of_at? hc
        obtain ⟨b, -, hbehind⟩ := h.getElem?_earliest (c := c) hslot
        obtain ⟨hpairwise, hwithin⟩ := ih (h.earliest c) _ hbehind
        rw [searches_cons hc]
        cases hfirst :
            Asked.search? ⟨c.offset, cache.slots, (cache.earliest m c).2.slots⟩ (Text.byteSize line) pair with
        | none => exact ⟨hpairwise, hwithin⟩
        | some s =>
          obtain ⟨-, b, rfl, hafter⟩ := search?_eq_some h hslot hfirst
          obtain ⟨hle, hsize, hnext⟩ := stop_search hon b.opening
          rw [Option.toList_some, List.singleton_append, List.pairwise_cons, List.forall_mem_cons]
          refine ⟨⟨?_, hpairwise⟩, ⟨hle, hsize⟩, hwithin⟩
          intro s' hs'
          exact hnext s'.start (isSearched_of_mem_searches (h.earliest c) hafter hs')

/-- What is known to be absent is not searched for by any later call. -/
theorem askedAll_pairwise_absent (h : cache.Fits m) (pair : Nat) :
    (askedAll m line cache offsets).Pairwise fun a b =>
      a.after[pair]? = some .absent → b.search? (Text.byteSize line) pair = none := by
  induction offsets generalizing cache with
  | nil => exact .nil
  | cons n rest ih =>
    rw [askedAll]
    split
    · exact .nil
    · rename_i c hc
      refine .cons (fun b hb habsent => ?_) (ih (h.earliest c))
      apply Option.eq_none_iff_forall_ne_some.2
      intro s hs
      have hmem : s ∈ searches m line (cache.earliest m c).2 rest pair := List.mem_filterMap.2 ⟨b, hb, hs⟩
      cases isSearched_of_mem_searches (h.earliest c) habsent hmem

/-- A place that is known is searched for again only from behind it. -/
theorem passed_of_call (h : cache.Fits m) {c : Cursor} (hc : c.On line) {k : Nat}
    (hslot : cache.slots[pair]? = some (.at k)) :
    ((∃ s, Asked.search? ⟨c.offset, cache.slots, (cache.earliest m c).2.slots⟩ (Text.byteSize line) pair = some s) ↔
        k < c.offset) ∧
      (k < c.offset → (cache.earliest m c).2.slots[pair]? = some .absent ∨
        ∃ k', (cache.earliest m c).2.slots[pair]? = some (.at k') ∧ c.offset ≤ k' ∧ k < k') := by
  obtain ⟨b, -, hbehind⟩ := h.getElem?_earliest (c := c) hslot
  constructor
  · simp only [Asked.search?, hslot, hbehind, Slot.isSearched, decide_eq_true_eq]
    split
    · exact iff_of_true ⟨_, rfl⟩ ‹_›
    · exact iff_of_false nofun ‹_›
  · intro hk
    have hsearched : Slot.isSearched c.offset (.at k) = true := decide_eq_true hk
    rw [if_pos hsearched] at hbehind
    obtain habsent | ⟨k', hat, hle, -⟩ := search_cases hc b.opening
    · exact .inl (habsent ▸ hbehind)
    · exact .inr ⟨k', hat ▸ hbehind, hle, by omega⟩

end Calls

/-! ### How much is searched -/

/-- Searches that come one behind the other pass no more offsets than there are. -/
theorem sum_card_covered_le {ss : List Search} {first last : Nat}
    (hp : ss.Pairwise fun s s' => s.stop < s'.start)
    (hw : ∀ s ∈ ss, first ≤ s.start ∧ s.start ≤ s.stop ∧ s.stop ≤ last) :
    (ss.map fun s => s.covered.card).sum ≤ last + 1 - first := by
  induction ss generalizing first with
  | nil => exact Nat.zero_le _
  | cons s ss ih =>
    obtain ⟨hnext, hp⟩ := List.pairwise_cons.1 hp
    obtain ⟨⟨hfirst, hstart, hstop⟩, hw⟩ := List.forall_mem_cons.1 hw
    have hrest : (ss.map fun s => s.covered.card).sum ≤ last + 1 - (s.stop + 1) :=
      ih hp fun s' hs' => ⟨hnext s' hs', (hw s' hs').2⟩
    have hcard : s.covered.card = s.stop + 1 - s.start := Nat.card_Icc ..
    rw [List.map_cons, List.sum_cons, hcard]
    omega

/-- Calls from boundaries of a line are sparing, even if they go back. -/
theorem sparing_of_isBoundary (m : Markers) (line : Text) {offsets : List Nat}
    (hb : ∀ n ∈ offsets, Utf8.IsBoundary (Utf8.encode line) n) : Sparing m line offsets := by
  have hfresh := fits_fresh m
  have hsearches : ∀ pair, (searches m line (.fresh m) offsets pair).Pairwise (fun s s' => s.stop < s'.start) ∧
      ∀ s ∈ searches m line (.fresh m) offsets pair, s.start ≤ s.stop ∧ s.stop ≤ Text.byteSize line :=
    fun _ => searches_pairwise hfresh
  refine ⟨?_, ?_, fun pair => askedAll_pairwise_absent hfresh pair, ?_, fun pair => ?_, fun pair => ?_⟩
  · exact map_offset_askedAll hb _
  · intro a ha pair b hblock
    obtain ⟨cache, c, hfits, hc, hbefore, hafter⟩ := exists_call_of_mem hfresh ha
    obtain ⟨-, hoffset⟩ := Cursor.on_of_at? hc
    obtain ⟨slot, hslot⟩ : ∃ slot, cache.slots[pair]? = some slot := by
      obtain ⟨hlt, -⟩ := List.getElem?_eq_some_iff.1 hblock
      exact ⟨_, List.getElem?_eq_getElem (hfits.symm ▸ hlt)⟩
    obtain ⟨b', hblock', hbehind⟩ := hfits.getElem?_earliest (c := c) hslot
    cases hblock.symm.trans hblock'
    rw [hoffset] at hbehind
    exact ⟨c, slot, hc, hbefore ▸ hslot, hafter ▸ hbehind⟩
  · intro a ha pair k hk
    obtain ⟨cache, c, hfits, hc, hbefore, hafter⟩ := exists_call_of_mem hfresh ha
    obtain ⟨hon, hoffset⟩ := Cursor.on_of_at? hc
    obtain ⟨offset, before, after⟩ := a
    cases hoffset
    cases hbefore
    cases hafter
    exact passed_of_call hfits hon hk
  · exact (hsearches pair).1.imp fun {s s'} hlt => by
      rw [Finset.disjoint_left]
      intro n hn hn'
      have hstop := (Finset.mem_Icc.1 hn).2
      have hstart := (Finset.mem_Icc.1 hn').1
      omega
  · obtain ⟨hpairwise, hwithin⟩ := hsearches pair
    exact sum_card_covered_le hpairwise fun s hs => ⟨Nat.zero_le _, hwithin s hs⟩

end StartCache

/-! ### The calls of a line that is read -/

/-- What is known about openings behind a step. -/
def Move.cache : Move → StartCache
  | settled _ _ cache => cache
  | resume p => p.cache

namespace Progress

variable {m : Markers} {p q : Progress} {line : Text}

/-- The step from here asks for the next opening. -/
def asks (m : Markers) (p : Progress) : Bool := p.carry.open?.isNone && !m.startsComment p.cursor.rest

/-- The bytes of the line from which up to `n` steps ask for the next opening. -/
def asked (m : Markers) : Nat → Progress → List Nat
  | 0, _ => []
  | n + 1, p =>
    let rest :=
      match step m p with
      | .ok (.resume q) => asked m n q
      | _ => []
    if asks m p then p.cursor.offset :: rest else rest

theorem cache_of_closeBlock {pair : Nat} {move : Move} (h : closeBlock m p pair = .ok move) :
    move.cache = p.cache := by
  simp only [closeBlock] at h
  split at h
  · cases h
  · split at h
    · cases h
      rfl
    · split at h
      · cases h
      · split at h <;> cases h <;> rfl

theorem cache_of_openBlock {k pair : Nat} {move : Move} (h : openBlock m p k pair = .ok move) :
    move.cache = p.cache := by
  simp only [openBlock] at h
  split at h
  · cases h
  · split at h
    · cases h
    · split at h <;> cases h <;> rfl

/-- A step asks once, at the cursor, or knows what it knew before. -/
theorem cache_of_step {move : Move} (h : step m p = .ok move) :
    move.cache = if asks m p then (p.cache.earliest m p.cursor).2 else p.cache := by
  unfold step at h
  split at h
  · rename_i pair inside
    have hasks : asks m p = false := by simp [asks, inside, Carry.open?]
    rw [hasks, cache_of_closeBlock h]
    rfl
  · rename_i outside
    have hopen : p.carry.open? = none := by
      cases hc : p.carry.open? with
      | none => rfl
      | some pair => exact absurd (Carry.open?_eq_some hc) (outside pair)
    simp only [openSegment] at h
    split at h
    · rename_i hstarts
      have hasks : asks m p = false := by simp [asks, hstarts]
      rw [hasks]
      cases h
      split <;> rfl
    · rename_i hstarts
      have hasks : asks m p = true := by simp [asks, hopen, hstarts]
      rw [if_pos hasks]
      split at h
      · rename_i hearliest
        rw [hearliest]
        exact cache_of_openBlock h
      · rename_i hearliest
        rw [hearliest]
        cases h
        rfl

/-- A line asks from boundaries that never go back. -/
theorem asked_boundaries (hp : p.Ready m) (hon : p.cursor.On line) (n : Nat) :
    (∀ k ∈ asked m n p, p.cursor.offset ≤ k ∧ Utf8.IsBoundary (Utf8.encode line) k) ∧
      (asked m n p).Pairwise (· ≤ ·) := by
  induction n generalizing p with
  | zero => exact ⟨nofun, .nil⟩
  | succ n ih =>
    obtain ⟨rest, hasked, hrest, hpairwise⟩ : ∃ rest,
        asked m (n + 1) p = (if asks m p then p.cursor.offset :: rest else rest) ∧
          (∀ k ∈ rest, p.cursor.offset ≤ k ∧ Utf8.IsBoundary (Utf8.encode line) k) ∧ rest.Pairwise (· ≤ ·) := by
      refine ⟨_, rfl, ?_⟩
      split
      · rename_i q hstep
        have hh := handles_of_step hp hstep
        obtain ⟨hq, hpairwise⟩ := ih (hh.ready hp) (hh.reaches.on hon)
        have hle := hh.reaches.offset_le
        exact ⟨fun k hk => ⟨hle.trans (hq k hk).1, (hq k hk).2⟩, hpairwise⟩
      · exact ⟨nofun, .nil⟩
    rw [hasked]
    split
    · exact ⟨List.forall_mem_cons.2 ⟨⟨Nat.le_refl _, hon.isBoundary⟩, hrest⟩,
        .cons (fun k hk => (hrest k hk).1) hpairwise⟩
    · exact ⟨hrest, hpairwise⟩

/-- What is known about openings goes from one call to the next. -/
theorem earliestAll_asked (hp : p.Ready m) (hon : p.cursor.On line) (n : Nat) :
    ∃ answers cache, StartCache.earliestAll m line p.cache (asked m n p) = some (answers, cache) ∧
      (∀ q, Resumes m n p q → q.cache = cache) ∧
      ∀ v carry cache', run m n p = .ok (v, carry, cache') → cache' = cache := by
  induction n generalizing p with
  | zero =>
    refine ⟨[], p.cache, rfl, ?_, nofun⟩
    rintro q ⟨⟩
    rfl
  | succ n ih =>
    obtain ⟨move, hstep, hh⟩ := step_handles hp
    -- the calls of the other steps, from what the first step knows
    obtain ⟨rest, answers, cache, hasked, hrest, hresumes, hrun⟩ : ∃ rest answers cache,
        asked m (n + 1) p = (if asks m p then p.cursor.offset :: rest else rest) ∧
          StartCache.earliestAll m line move.cache rest = some (answers, cache) ∧
          (∀ q, Resumes m (n + 1) p q → q.cache = cache) ∧
          ∀ v carry cache', run m (n + 1) p = .ok (v, carry, cache') → cache' = cache := by
      cases move with
      | settled v carry cache =>
        refine ⟨[], [], cache, by rw [asked, hstep], rfl, ?_, ?_⟩
        · rintro q (_ | ⟨first, -⟩)
          cases hstep.symm.trans first
        · intro v' carry' cache' hr
          rw [run, hstep] at hr
          cases hr
          rfl
      | resume q =>
        obtain ⟨answers, cache, hrest, hresumes, hrun⟩ := ih (hh.ready hp) (hh.reaches.on hon)
        refine ⟨asked m n q, answers, cache, by rw [asked, hstep], hrest, ?_, ?_⟩
        · rintro r (_ | ⟨first, more⟩)
          cases hstep.symm.trans first
          exact hresumes r more
        · intro v carry cache' hr
          rw [run, hstep] at hr
          exact hrun v carry cache' hr
    rw [cache_of_step hstep] at hrest
    rw [hasked]
    split
    · rename_i hasks
      rw [if_pos hasks] at hrest
      refine ⟨(p.cache.earliest m p.cursor).1 :: answers, cache, ?_, hresumes, hrun⟩
      simp only [StartCache.earliestAll, hon.at?_eq, hrest]
    · rename_i hasks
      rw [if_neg hasks] at hrest
      exact ⟨answers, cache, hrest, hresumes, hrun⟩

end Progress

namespace StartCache

/-- **No part of a line is searched twice for the same opening**: whatever the markers are, calls from boundaries of a
line after a reset are `Sparing`; and those of a line that is read are such calls, never go back, and leave known what
is known behind any number of steps and when the line is settled. -/
theorem earliestAll_sparing (m : Markers) (line : Text) :
    (∀ offsets, (∀ n ∈ offsets, Utf8.IsBoundary (Utf8.encode line) n) → Sparing m line offsets) ∧
      ∀ t : Tracker, t.Reachable m → ∀ raw, Text.isBlank raw = false → line = Text.trimIndent raw → ∀ n,
        let offsets := Progress.asked m n (t.enter m line)
        Sparing m line offsets ∧ offsets.Pairwise (· ≤ ·) ∧
          (∀ k ∈ offsets, Utf8.IsBoundary (Utf8.encode line) k) ∧
          ∃ answers cache, earliestAll m line (.fresh m) offsets = some (answers, cache) ∧
            (∀ p, Progress.Resumes m n (t.enter m line) p → p.cache = cache) ∧
            ∀ v carry cache', Progress.run m n (t.enter m line) = .ok (v, carry, cache') → cache' = cache := by
  have hcalls : ∀ offsets, (∀ n ∈ offsets, Utf8.IsBoundary (Utf8.encode line) n) → Sparing m line offsets :=
    fun _ hb => sparing_of_isBoundary m line hb
  refine ⟨hcalls, ?_⟩
  rintro t ht raw hraw rfl n offsets
  have hstart := Tracker.ready_enter ht.configured (Text.trimIndent_trimIndent raw) (Text.trimIndent_ne_nil hraw)
  obtain ⟨hasked, hpairwise⟩ := Progress.asked_boundaries hstart (Cursor.on_start _) n
  have hb : ∀ k ∈ offsets, Utf8.IsBoundary (Utf8.encode (Text.trimIndent raw)) k := fun k hk => (hasked k hk).2
  exact ⟨hcalls offsets hb, hpairwise, hb, Progress.earliestAll_asked hstart (Cursor.on_start _) n⟩

/-- Openings that the line holds twice, once and never. -/
def tags : Markers :=
  ⟨[], [⟨"<".toList, ">".toList⟩, ⟨"/*".toList, "*/".toList⟩, ⟨"[[".toList, "]]".toList⟩], []⟩

/-- A line asks four times and searches three times for one opening, twice for another and once for the third; and an
opening that is empty is searched for, one byte at a time, whenever a later byte is asked for. -/
theorem earliestAll_sparing_tags :
    (let line := "<a> /* b */ <c> x".toList
      let offsets := Progress.asked tags 10 (Tracker.start.enter tags line)
      offsets = [0, 4, 12, 16] ∧ Sparing tags line offsets ∧
        searches tags line (.fresh tags) offsets 0 = [⟨0, 0⟩, ⟨4, 12⟩, ⟨16, 17⟩] ∧
        searches tags line (.fresh tags) offsets 1 = [⟨0, 4⟩, ⟨12, 17⟩] ∧
        searches tags line (.fresh tags) offsets 2 = [⟨0, 17⟩]) ∧
    let line := "é/**/*".toList
    Sparing alikeAndEmpty line [0, 2, 2, 3, 7] ∧
      searches alikeAndEmpty line (.fresh alikeAndEmpty) [0, 2, 2, 3, 7] 2 = [⟨0, 0⟩, ⟨2, 2⟩, ⟨3, 3⟩, ⟨7, 7⟩] := by
  constructor
  · intro line offsets
    have hoffsets : offsets = [0, 4, 12, 16] := by decide
    obtain ⟨-, hread⟩ := earliestAll_sparing tags line
    obtain ⟨hsparing, -⟩ := hread .start .start line (by decide) (by decide) 10
    exact ⟨hoffsets, hsparing, by decide, by decide, by decide⟩
  · intro line
    obtain ⟨hcalls, -⟩ := earliestAll_sparing alikeAndEmpty line
    have hb : ∀ n ∈ [0, 2, 2, 3, 7], Utf8.IsBoundary (Utf8.encode line) n := by decide +kernel
    exact ⟨hcalls _ hb, by decide⟩

end StartCache

end LineCensus
