import LineCensus.Json.Fault

/-!
# Numbers in JSON

A `Numeral` is a number as it is written. `Numeral.value` says what it stands for: a whole number
of 64 bits if it is written without fraction and exponent and fits, otherwise a binary number. The
first digits that fit into 64 bits are multiplied by or divided by the power of ten that the point,
the exponent and the digits left out give; each of the two operations rounds.
-/

namespace LineCensus.Json

/-- A number as it is written: sign, digits before the point, digits behind it, and the sign and
digits of the exponent. -/
structure Numeral where
  isNegative : Bool
  whole : Text
  fraction : Text
  exponent : Option (Bool × Text)
  deriving DecidableEq, Repr

/-- The numbers below this bound fit into 64 bits. -/
def bound64 : Nat := Nat.pow 2 64

namespace Numeral

/-- The value of a decimal digit. -/
def digit (c : Char) : Nat := c.toNat - '0'.toNat

/-- Appends digits to `n` as long as 64 bits suffice; the second result counts those that were
appended, the third those that were left out. -/
def append (n : Nat) (ds : Text) : Nat × Nat × Nat :=
  ds.foldl (fun (n, kept, dropped) d =>
    if dropped = 0 ∧ 10 * n + digit d < bound64 then (10 * n + digit d, kept + 1, 0)
    else (n, kept, dropped + 1)) (n, 0, 0)

/-- The power of ten `10 ^ k`, rounded. -/
def power (k : Nat) : Binary64 := .ofNat (Nat.pow 10 k)

/-- The rounded value of `n · 10 ^ e`. Powers beyond `10 ^ 308` are too great to multiply by, and
are divided by in two steps. -/
def scaled (n : Nat) (e : Int) : Except Cause Binary64 :=
  let x := Binary64.ofNat n
  if 0 ≤ e then
    if n = 0 then .ok .zero
    else if e ≤ 308 then
      let y := x * power e.toNat
      if y.isInfinite then .error .numberOutOfRange else .ok y
    else .error .numberOutOfRange
  else
    let k := e.natAbs
    .ok (if k ≤ 308 then x / power k
      else if k ≤ 616 then x / power 308 / power (k - 308)
      else .zero)

/-- The value of a numeral with a fraction or an exponent, or with more digits than fit. -/
def magnitude (x : Numeral) : Except Cause Binary64 :=
  let (n, _, dropped) := append 0 x.whole
  let (n, kept, _) := append n x.fraction
  let e : Int := (dropped : Int) - kept
  match x.exponent with
  | none => scaled n e
  | some (below, ds) =>
    let k := ds.foldl (fun k d => 10 * k + digit d) 0
    -- an exponent beyond 31 bits leaves nothing but zero or too great a number
    if Nat.pow 2 31 ≤ k then if n ≠ 0 ∧ ¬ below then .error .numberOutOfRange else .ok .zero
    else scaled n (if below then e - k else e + k)

/-- What a numeral stands for. -/
def value (x : Numeral) : Except Cause Found :=
  let n := x.whole.foldl (fun n d => 10 * n + digit d) 0
  if x.fraction = [] ∧ x.exponent = none ∧ n < bound64 then
    if ¬ x.isNegative then .ok (.natural n)
    else if 0 < n ∧ n ≤ Nat.pow 2 63 then .ok (.negative n)
    else .ok (.float true (.ofNat n))
  else x.magnitude.map (.float x.isNegative)

end Numeral

end LineCensus.Json
