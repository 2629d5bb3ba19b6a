import LineCensus.StartCache

/-!
# Where markers occur

What the two searches of a line find, and how they behave when their text is moved or cut:
`Text.occurrence?` looks for one marker, `Markers.firstOpening?` for the openings of all pairs at once
(`firstOpening?_spec`: the first place, and the first pair that opens there). Moving the text moves the
answer (`occurrence?_add`, `firstOpening?_add`); an answer behind a front is the answer for the text
behind that front (`occurrence?_append_of_le`); what follows a found marker is irrelevant
(`occurrence?_append_congr`).
-/

namespace LineCensus

namespace Text

theorem occurrence?_add (m : Text) (n k : Nat) (t : Text) :
    occurrence? m (n + k) t = (occurrence? m n t).map fun p => (p.1 + k, p.2) := by
  induction t generalizing n with
  | nil =>
    simp only [occurrence?]
    split <;> rfl
  | cons c t ih =>
    simp only [occurrence?]
    split
    · rfl
    · rw [← ih, Nat.add_right_comm]

theorem occurrence?_eq_zero_map (m : Text) (n : Nat) (t : Text) :
    occurrence? m n t = (occurrence? m 0 t).map fun p => (p.1 + n, p.2) := by
  rw [← occurrence?_add, Nat.zero_add]

theorem le_of_occurrence? {m t u : Text} {n k : Nat} (h : occurrence? m n t = some (k, u)) : n ≤ k := by
  obtain ⟨s, -, rfl, -⟩ := occurrence?_spec h
  omega

/-- A marker that occurs nowhere occurs nowhere behind a front. -/
theorem occurrence?_append_of_none {m s t : Text} {n : Nat} (h : occurrence? m n (s ++ t) = none) (k : Nat) :
    occurrence? m k t = none := by
  rw [occurrence?_eq_none_iff] at h ⊢
  intro s' u he
  exact h (s ++ s') u (by rw [he, List.append_assoc])

/-- A first place that does not lie in a front is the first place behind it. -/
theorem occurrence?_append_of_le {m s t u : Text} {n k : Nat} (h : occurrence? m n (s ++ t) = some (k, u))
    (hk : n + byteSize s ≤ k) : occurrence? m (n + byteSize s) t = some (k, u) := by
  induction s generalizing n with
  | nil => simpa using h
  | cons c s ih =>
    have hc := Char.utf8Size_pos c
    simp only [List.cons_append, occurrence?, byteSize_cons] at h hk
    split at h
    · cases h
      omega
    · rw [byteSize_cons, ← Nat.add_assoc]
      exact ih h (by omega)

/-- A marker found behind `s` is found there whatever follows it. -/
theorem occurrence?_append_congr {m s v : Text} {n k : Nat} (w : Text)
    (h : occurrence? m n (s ++ (m ++ v)) = some (k, m ++ v)) (hk : k = n + byteSize s) :
    occurrence? m n (s ++ (m ++ w)) = some (k, m ++ w) := by
  induction s generalizing n with
  | nil =>
    subst hk
    cases m with
    | nil => cases w <;> simp [occurrence?]
    | cons c m => simp [occurrence?]
  | cons c s ih =>
    have hc := Char.utf8Size_pos c
    simp only [List.cons_append, occurrence?, byteSize_cons] at h hk ⊢
    -- the marker fits in front of `v`, so whether it begins here does not depend on `v`
    have hfit : ∀ w, m.isPrefixOf (c :: (s ++ (m ++ w))) = m.isPrefixOf (c :: (s ++ m)) := by
      intro w
      rw [Bool.eq_iff_iff, List.isPrefixOf_iff_prefix, List.isPrefixOf_iff_prefix, ← List.append_assoc,
        ← List.cons_append]
      refine ⟨fun hp => List.prefix_of_prefix_length_le hp (List.prefix_append ..) ?_, fun hp => hp.trans ?_⟩
      · simp only [List.length_cons, List.length_append]
        omega
      · exact List.prefix_append ..
    rw [hfit] at h ⊢
    split at h
    · simp only [Option.some.injEq, Prod.mk.injEq] at h
      omega
    · rw [if_neg ‹_›]
      exact ih h (by omega)

end Text

namespace Markers

theorem firstOpening?_add (m : Markers) (n k : Nat) (t : Text) :
    m.firstOpening? (n + k) t = (m.firstOpening? n t).map fun p => (p.1 + k, p.2) := by
  induction t generalizing n with
  | nil => simp [firstOpening?, Function.comp_def]
  | cons c t ih =>
    simp only [firstOpening?]
    split
    · rfl
    · rw [← ih, Nat.add_right_comm]

theorem firstOpening?_eq_zero_map (m : Markers) (n : Nat) (t : Text) :
    m.firstOpening? n t = (m.firstOpening? 0 t).map fun p => (p.1 + n, p.2) := by
  rw [← firstOpening?_add, Nat.zero_add]

/-- The pair that is found to open a text is the first one that does. -/
theorem first_of_findIdx? {m : Markers} {t : Text} {i : Nat}
    (h : m.block.findIdx? (fun p => p.opening.isPrefixOf t) = some i) :
    ∃ b, m.block[i]? = some b ∧ b.opening <+: t ∧ ∀ j < i, ∀ p, m.block[j]? = some p → ¬ p.opening <+: t := by
  obtain ⟨hlt, hp, hbefore⟩ := List.findIdx?_eq_some_iff_getElem.1 h
  refine ⟨m.block[i], List.getElem?_eq_getElem hlt, List.isPrefixOf_iff_prefix.1 hp, fun j hj p hb hpre => ?_⟩
  obtain ⟨_, rfl⟩ := List.getElem?_eq_some_iff.1 hb
  exact hbefore j hj (List.isPrefixOf_iff_prefix.2 hpre)

theorem findIdx?_eq_none {m : Markers} {t : Text}
    (h : m.block.findIdx? (fun p => p.opening.isPrefixOf t) = none) {p : BlockPair} (hp : p ∈ m.block) :
    ¬ p.opening <+: t := by
  rw [← List.isPrefixOf_iff_prefix, List.findIdx?_eq_none_iff.1 h p hp]
  exact Bool.false_ne_true

/-- At a found place the found pair opens and no pair before it does, and no pair opens at an earlier
place. -/
theorem firstOpening?_spec {m : Markers} {n k i : Nat} {t : Text} (h : m.firstOpening? n t = some (k, i)) :
    ∃ s u b, t = s ++ u ∧ k = n + Text.byteSize s ∧ m.block[i]? = some b ∧ b.opening <+: u ∧
      (∀ j < i, ∀ p, m.block[j]? = some p → ¬ p.opening <+: u) ∧
      ∀ s' u', t = s' ++ u' → ∀ p ∈ m.block, p.opening <+: u' → s.length ≤ s'.length := by
  induction t generalizing n with
  | nil =>
    obtain ⟨j, hj, he⟩ := Option.map_eq_some_iff.1 h
    cases he
    obtain ⟨b, hb, hu, hbefore⟩ := first_of_findIdx? hj
    exact ⟨[], [], b, rfl, rfl, hb, hu, hbefore, fun _ _ _ _ _ _ => Nat.zero_le _⟩
  | cons c t ih =>
    simp only [firstOpening?] at h
    split at h
    · rename_i j hj
      cases h
      obtain ⟨b, hb, hu, hbefore⟩ := first_of_findIdx? hj
      exact ⟨[], c :: t, b, rfl, rfl, hb, hu, hbefore, fun _ _ _ _ _ _ => Nat.zero_le _⟩
    · rename_i hnone
      obtain ⟨s, u, b, rfl, rfl, hb, hu, hbefore, hmin⟩ := ih h
      refine ⟨c :: s, u, b, rfl, by simp [Nat.add_assoc], hb, hu, hbefore, fun s' u' he p hp hpre => ?_⟩
      cases s' with
      | nil =>
        rw [List.nil_append] at he
        subst he
        exact absurd hpre (findIdx?_eq_none hnone hp)
      | cons c' s' =>
        rw [List.cons_append, List.cons.injEq] at he
        exact Nat.succ_le_succ (hmin s' u' he.2 p hp hpre)

/-- No place is found exactly when no pair opens anywhere. -/
theorem firstOpening?_eq_none_iff {m : Markers} {n : Nat} {t : Text} :
    m.firstOpening? n t = none ↔ ∀ p ∈ m.block, ∀ s u, t = s ++ u → ¬ p.opening <+: u := by
  constructor
  · intro h p hp s u he
    induction s generalizing n t with
    | nil =>
      rw [List.nil_append] at he
      subst he
      cases t with
      | nil => exact findIdx?_eq_none (Option.map_eq_none_iff.1 h) hp
      | cons c t =>
        simp only [firstOpening?] at h
        split at h
        · cases h
        · exact findIdx?_eq_none ‹_› hp
    | cons c s ih =>
      subst he
      simp only [List.cons_append, firstOpening?] at h
      split at h
      · cases h
      · exact ih h rfl
  · intro h
    cases ho : m.firstOpening? n t with
    | none => rfl
    | some found =>
      obtain ⟨k, i⟩ := found
      obtain ⟨s, u, b, he, -, hb, hu, -⟩ := firstOpening?_spec ho
      exact absurd hu (h b (List.mem_of_getElem? hb) s u he)

/-- The first opening stands at the very beginning exactly when some pair opens there, and then it is
the first such pair. -/
theorem firstOpening?_zero_iff {m : Markers} {n i : Nat} {t : Text} :
    m.firstOpening? n t = some (n, i) ↔ m.block.findIdx? (fun p => p.opening.isPrefixOf t) = some i := by
  cases t with
  | nil => simp [firstOpening?]
  | cons c t =>
    have hc := Char.utf8Size_pos c
    simp only [firstOpening?]
    split
    · rename_i j hj
      simp [hj]
    · rename_i hj
      simp only [hj, reduceCtorEq, iff_false]
      intro h
      obtain ⟨s, -, -, -, hk, -⟩ := firstOpening?_spec h
      omega

end Markers

end LineCensus
