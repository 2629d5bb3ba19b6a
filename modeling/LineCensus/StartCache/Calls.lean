import LineCensus.StartCache
import LineCensus.Text.Utf8

/-!
# Asking for openings again and again

A `StartCache` is asked for the next opening from several bytes of one line, one after the other
(`StartCache.earliestAll`). What a search from one byte finds is said by `Markers.FirstFrom`, on the bytes of the
line and without a cache: the least offset at which the bytes of any opening stand, and the first pair of which
they stand there.
-/

namespace LineCensus

namespace Markers

/-- The bytes of the opening of `pair` stand at byte `k` of a line. -/
def OpensAt (m : Markers) (line : Text) (k pair : Nat) : Prop :=
  ∃ b, m.block[pair]? = some b ∧ Utf8.encode b.opening <+: (Utf8.encode line).drop k

/-- What a search from byte `n` of a line on finds. -/
inductive FirstFrom (m : Markers) (line : Text) (n : Nat) : Option (Nat × Nat) → Prop where
  | absent (none_opens : ∀ k pair, n ≤ k → ¬ m.OpensAt line k pair) : FirstFrom m line n none
  | found {k pair : Nat} (behind : n ≤ k) (opens : m.OpensAt line k pair)
      (least : ∀ k' pair', n ≤ k' → m.OpensAt line k' pair' → k ≤ k')
      (first : ∀ pair', m.OpensAt line k pair' → pair ≤ pair') : FirstFrom m line n (some (k, pair))

/-- A search finds one answer only. -/
theorem FirstFrom.unique {m : Markers} {line : Text} {n : Nat} {found other : Option (Nat × Nat)}
    (h : m.FirstFrom line n found) (h' : m.FirstFrom line n other) : found = other := by
  cases h with
  | absent none_opens =>
    cases h' with
    | absent _ => rfl
    | found behind opens _ _ => exact absurd opens (none_opens _ _ behind)
  | @found k pair behind opens least first =>
    cases h' with
    | absent none_opens => exact absurd opens (none_opens _ _ behind)
    | @found k' pair' behind' opens' least' first' =>
      obtain rfl : k = k' := Nat.le_antisymm (least _ _ behind' opens') (least' _ _ behind opens)
      obtain rfl : pair = pair' := Nat.le_antisymm (first _ opens') (first' _ opens)
      rfl

end Markers

namespace StartCache

/-- The answers to searches from these bytes of a line, one after the other, and what is known behind them;
`none` if one of them would begin inside a character or behind the end of the line. -/
def earliestAll (m : Markers) (line : Text) (cache : StartCache) :
    List Nat → Option (List (Option (Nat × Nat)) × StartCache)
  | [] => some ([], cache)
  | n :: rest =>
    match Cursor.at? line n with
    | none => none
    | some c =>
      let (found, cache) := cache.earliest m c
      match earliestAll m line cache rest with
      | none => none
      | some (answers, cache) => some (found :: answers, cache)

end StartCache

end LineCensus
