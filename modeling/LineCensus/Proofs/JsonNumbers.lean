import Mathlib.Data.List.Basic
import LineCensus.Proofs.JsonTokens

/-!
# Numbers that are written

`Text.ofNat` writes a number with the digits from which `Text.toNat?` reads it, and with these digits it is spelled
in a JSON text (`spelledNumber_ofNat`), where it is read as itself as long as 64 bits hold it (`value_ofNat`). A binary
number is spelled there whichever layout its decimal takes (`Binary64.spelledNumber_numeral`): each of them has digits
in front of the point, behind it and in the exponent, and no zero in front of other digits.
-/

namespace LineCensus

namespace Text

theorem ofNat_ne_nil (n : Nat) : ofNat n ≠ [] := Nat.toDigits_ne_nil

theorem isDigit_of_mem_ofNat {n : Nat} {c : Char} (h : c ∈ ofNat n) : c.isDigit = true :=
  Nat.isDigit_of_mem_toDigits (by decide) (by decide) h

theorem digitChar_ne_zero {n : Nat} (h : n < 10) (hpos : n ≠ 0) : n.digitChar ≠ '0' := by
  revert n
  decide

/-- No number but zero is written with a zero in front. -/
theorem head?_ofNat_ne {n : Nat} (h : n ≠ 0) : (ofNat n).head? ≠ some '0' := by
  induction n using Nat.strongRecOn with
  | ind n ih =>
    rcases Nat.lt_or_ge n 10 with hlt | hge
    · rw [ofNat, Nat.toDigits_of_lt_base hlt, List.head?_cons, ne_eq, Option.some.injEq]
      exact digitChar_ne_zero hlt h
    · have hfront := ih (n / 10) (by omega) (by omega)
      rw [ofNat, Nat.toDigits_of_base_le (by decide) hge]
      rwa [List.head?_append_of_ne_nil _ Nat.toDigits_ne_nil]

/-- The digits of a number come to it. -/
theorem foldl_ofNat (n : Nat) : (ofNat n).foldl (fun n c => 10 * n + (c.toNat - '0'.toNat)) 0 = n :=
  Nat.ofDigitChars_ten_toDigits

theorem toNat?_ofNat (n : Nat) : toNat? (ofNat n) = some n := by
  have hall : (ofNat n).all Char.isDigit = true := List.all_eq_true.2 fun _ hc => isDigit_of_mem_ofNat hc
  rw [toNat?, if_pos ⟨ofNat_ne_nil n, hall⟩, foldl_ofNat]

end Text

namespace Json

/-! ### Whole numbers -/

theorem digits_ofNat (n : Nat) : Digits (Text.ofNat n) where
  ne_nil := Text.ofNat_ne_nil n
  all := fun _ hc => Text.isDigit_of_mem_ofNat hc

/-- A whole number as it is written. -/
def Numeral.ofNat (n : Nat) : Numeral := ⟨false, Text.ofNat n, [], none⟩

theorem spelledNumber_ofNat (n : Nat) : SpelledNumber (.ofNat n) (Text.ofNat n) := by
  have hzero : (Text.ofNat n).head? = some '0' → (Text.ofNat n).length = 1 := by
    intro hhead
    by_cases hn : n = 0
    · rw [hn]
      rfl
    · exact absurd hhead (Text.head?_ofNat_ne hn)
  have hspelled : SpelledNumber (.ofNat n) (Text.ofNat n ++ ([] ++ [])) := .mk (digits_ofNat n) hzero .none .none
  rwa [List.append_nil, List.append_nil] at hspelled

/-- Up to 64 bits a whole number is read as itself. -/
theorem Numeral.value_ofNat {n : Nat} (h : n < bound64) : (Numeral.ofNat n).value = .ok (.natural n) := by
  have hfold : (Text.ofNat n).foldl (fun n d => 10 * n + digit d) 0 = n := Text.foldl_ofNat n
  simp [value, ofNat, hfold, h]

/-! ### Binary numbers -/

theorem Digits.append {ds es : Text} (h : Digits ds) (hes : ∀ c ∈ es, c.isDigit = true) : Digits (ds ++ es) where
  ne_nil := List.append_ne_nil_of_left_ne_nil h.ne_nil es
  all := by
    intro c hc
    rcases List.mem_append.1 hc with hc | hc
    · exact h.all c hc
    · exact hes c hc

theorem isDigit_of_mem_zeros {n : Nat} {c : Char} (h : c ∈ List.replicate n '0') : c.isDigit = true := by
  rw [List.eq_of_mem_replicate h]
  rfl

/-- Digits on both sides of a point. -/
theorem spelledNumber_point {whole fraction : Text} (digits : Digits whole)
    (zero : whole.head? = some '0' → whole.length = 1) (hfraction : Digits fraction) :
    ∃ n, n.isNegative = false ∧ SpelledNumber n (whole ++ '.' :: fraction) := by
  refine ⟨⟨false, whole, fraction, none⟩, rfl, ?_⟩
  have hspelled : SpelledNumber ⟨false, whole, fraction, none⟩ (whole ++ ('.' :: fraction ++ [])) :=
    .mk digits zero (.point hfraction) .none
  rwa [List.append_nil] at hspelled

/-- The exponent of a decimal, with a sign if it is below zero. -/
theorem exists_spelledExponent (e : Int) :
    ∃ exponent, SpelledExponent exponent ('e' :: ((if e < 0 then ['-'] else []) ++ Text.ofNat e.natAbs)) := by
  by_cases he : e < 0
  · rw [if_pos he]
    exact ⟨_, .signed true (.inl rfl) (digits_ofNat e.natAbs)⟩
  · rw [if_neg he]
    exact ⟨_, .plain (.inl rfl) (digits_ofNat e.natAbs)⟩

end Json

namespace Binary64

open Json

/-- In each of its layouts a decimal is spelled as a number. -/
theorem Decimal.exists_spelledNumber (f : DecimalFormat) (x : Decimal) :
    ∃ n, n.isNegative = false ∧ SpelledNumber n (x.toText f) := by
  have hsingle : Digits ['0'] := ⟨nofun, List.forall_mem_singleton.2 rfl⟩
  rw [Decimal.toText]
  split
  · exact spelledNumber_point hsingle (fun _ => rfl) hsingle
  rename_i hne
  have hds := digits_ofNat x.digits
  have hhead := Text.head?_ofNat_ne hne
  generalize Text.ofNat x.digits = ds at hds hhead
  dsimp only
  split
  · -- a whole number, with zeros for the exponent
    have hzeros : Digits (ds ++ List.replicate x.exponent.toNat '0') := hds.append fun _ => isDigit_of_mem_zeros
    refine spelledNumber_point hzeros (fun hzero => ?_) hsingle
    rw [List.head?_append_of_ne_nil _ hds.ne_nil] at hzero
    exact absurd hzero hhead
  split
  · -- the point stands between the digits
    rename_i hexponent hpoint
    have hwhole : Digits (ds.take (ds.length + x.exponent).toNat) := by
      refine ⟨?_, fun c hc => hds.all c (List.mem_of_mem_take hc)⟩
      rw [ne_eq, List.take_eq_nil_iff, not_or]
      exact ⟨by omega, hds.ne_nil⟩
    have hfraction : Digits (ds.drop (ds.length + x.exponent).toNat) := by
      refine ⟨?_, fun c hc => hds.all c (List.mem_of_mem_drop hc)⟩
      rw [ne_eq, List.drop_eq_nil_iff]
      omega
    refine spelledNumber_point hwhole (fun hzero => ?_) hfraction
    rw [List.head?_take, if_neg (by omega)] at hzero
    exact absurd hzero hhead
  split
  · -- zeros between the point and the digits
    have hfraction : Digits (List.replicate (-((ds.length : Int) + x.exponent)).toNat '0' ++ ds) := by
      refine ⟨List.append_ne_nil_of_right_ne_nil _ hds.ne_nil, fun c hc => ?_⟩
      rcases List.mem_append.1 hc with hc | hc
      · exact isDigit_of_mem_zeros hc
      · exact hds.all c hc
    exact spelledNumber_point hsingle (fun _ => rfl) hfraction
  · -- one digit in front of the point, and an exponent
    obtain ⟨exponent, hexponent⟩ := exists_spelledExponent ((ds.length : Int) + x.exponent - 1)
    obtain ⟨d, rest, rfl⟩ := List.exists_cons_of_ne_nil hds.ne_nil
    have hfirst : Digits [d] := ⟨nofun, by simpa using hds.all d List.mem_cons_self⟩
    cases rest with
    | nil => exact ⟨⟨false, _, _, _⟩, rfl, .mk hfirst (fun _ => rfl) .none hexponent⟩
    | cons d' rest =>
      have hrest : Digits (d' :: rest) := ⟨nofun, fun c hc => hds.all c (.tail _ hc)⟩
      exact ⟨⟨false, _, _, _⟩, rfl, .mk hfirst (fun _ => rfl) (.point hrest) hexponent⟩

/-- The number that the text of a binary number spells. -/
def numeral (x : Binary64) : Numeral :=
  match readNumeral false x.toText with
  | .ok (n, _) => n
  | .error _ => .ofNat 0

/-- Every binary number is spelled as a number without a sign. -/
theorem spelledNumber_numeral (x : Binary64) :
    SpelledNumber x.numeral x.toText ∧ x.numeral.isNegative = false := by
  obtain ⟨n, hsign, hspelled⟩ := Decimal.exists_spelledNumber report x.shortest
  have hread := hspelled.readNumeral_eq (t := []) nofun
  rw [hsign, List.append_nil] at hread
  have hnumeral : x.numeral = n := by
    rw [numeral, toText, hread]
  rw [hnumeral]
  exact ⟨hspelled, hsign⟩

end Binary64

end LineCensus
