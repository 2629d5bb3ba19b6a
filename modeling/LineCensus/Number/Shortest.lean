import LineCensus.Text.Basic
import LineCensus.Number.Binary64

/-!
# Writing binary numbers in decimal

`Binary64.shortest` finds the decimal with the fewest digits that reads back as the same number:
the reals that round to it form an interval, and for one digit, two digits and so on the two
neighbours of the exact value on that decimal grid are tested until one lies inside; of two hits
the nearer one is taken. `Binary64.toText` writes it with the conventions of `DecimalFormat`.
`Binary64.fixed` writes a given number of places, rounding the exact value.
-/

namespace LineCensus.Binary64

/-- A decimal number `digits · 10 ^ exponent`. -/
structure Decimal where
  digits : Nat
  exponent : Int
  deriving DecidableEq, Repr

/-- The fraction `n / d` rounds to `x`: it is at most half as far away as the next number on its
side, and closer than that if the mantissa of `x` is odd. -/
def within (x : Binary64) (n d : Nat) : Bool :=
  let (a, b) := x.ratio
  let closed := x.mantissa % 2 == 0
  -- one unit in the last place is `ulp.1 / ulp.2`
  let ulp := scale 1 1 x.exponent
  -- just above a power of two the gap below is half as wide
  let halves := if x.mantissa = Nat.pow 2 52 ∧ minExponent < x.exponent then 4 else 2
  if a * d ≤ n * b then
    let lhs := (n * b - a * d) * 2 * ulp.2
    let rhs := b * d * ulp.1
    if closed then lhs ≤ rhs else lhs < rhs
  else
    let lhs := (a * d - n * b) * halves * ulp.2
    let rhs := b * d * ulp.1
    if closed then lhs ≤ rhs else lhs < rhs

/-- The greatest `e` with `10 ^ e ≤ num / den`, for a positive quotient. -/
def floorLog10 (num den : Nat) : Int :=
  if den ≤ num then ((Nat.toDigits 10 (num / den)).length : Int) - 1
  else -((Nat.toDigits 10 ((den + num - 1) / num - 1)).length : Int)

/-- The numerator and denominator of `n · 10 ^ k / d`. -/
def scale10 (n d : Nat) (k : Int) : Nat × Nat := (n * Nat.pow 10 k.toNat, d * Nat.pow 10 (-k).toNat)

/-- The nearest of the two neighbours of `x` on the grid of multiples of `10 ^ k` that read back
as `x`, if any does. -/
def onGrid? (x : Binary64) (k : Int) : Option Decimal :=
  let (n, d) := scale10 x.ratio.1 x.ratio.2 (-k)
  let low := n / d
  let hit (i : Nat) : Bool := let (p, q) := scale10 i 1 k; x.within p q
  match hit low, hit (low + 1) with
  | true, true => some ⟨roundDiv n d, k⟩
  | true, false => some ⟨low, k⟩
  | false, true => some ⟨low + 1, k⟩
  | false, false => none

/-- Drops trailing zeros, at most `fuel` of them. -/
def dropZeros : Nat → Decimal → Decimal
  | 0, x => x
  | fuel + 1, x => if x.digits % 10 = 0 then dropZeros fuel ⟨x.digits / 10, x.exponent + 1⟩ else x

/-- The decimal with the fewest digits that reads back as `x`; 17 digits always do. -/
def shortest (x : Binary64) : Decimal :=
  if x.mantissa = 0 then ⟨0, 0⟩
  else
    let e := floorLog10 x.ratio.1 x.ratio.2
    let found := (List.range 17).findSome? fun (i : Nat) => onGrid? x (e - (i : Int))
    dropZeros 20 (found.getD ⟨0, 0⟩)

/-- How a decimal is laid out. -/
structure DecimalFormat where
  /-- Positional below `10 ^ maxPoint`. -/
  maxPoint : Int
  /-- Positional from `10 ^ minPoint` on. -/
  minPoint : Int

/-- Numbers are positional from 10^-5 up to 10^16, and keep one place if they are whole. -/
def report : DecimalFormat := ⟨16, -5⟩

/-- The text of a decimal. -/
def Decimal.toText (f : DecimalFormat) (x : Decimal) : Text :=
  if x.digits = 0 then ['0', '.', '0']
  else
    let ds := Text.ofNat x.digits
    -- the number is `0.ds · 10 ^ point`
    let point := (ds.length : Int) + x.exponent
    if 0 ≤ x.exponent ∧ point ≤ f.maxPoint then ds ++ List.replicate x.exponent.toNat '0' ++ ['.', '0']
    else if 0 < point ∧ point ≤ f.maxPoint then ds.take point.toNat ++ '.' :: ds.drop point.toNat
    else if f.minPoint < point ∧ point ≤ 0 then ['0', '.'] ++ List.replicate (-point).toNat '0' ++ ds
    else
      let e := point - 1
      let shownExponent := (if e < 0 then ['-'] else []) ++ Text.ofNat e.natAbs
      match ds with
      | [d] => d :: 'e' :: shownExponent
      | d :: rest => d :: '.' :: rest ++ 'e' :: shownExponent
      | [] => []

/-- The shortest text that reads back as the number. -/
def toText (x : Binary64) : Text := x.shortest.toText report

/-- The number with `places` digits behind the point; the exact value is rounded, halves to the
even digit. -/
def fixed (places : Nat) (x : Binary64) : Text :=
  let (n, d) := x.ratio
  let scaled := roundDiv (n * Nat.pow 10 places) d
  let fraction := Text.ofNat (scaled % Nat.pow 10 places)
  Text.ofNat (scaled / Nat.pow 10 places) ++
    '.' :: (List.replicate (places - fraction.length) '0' ++ fraction)

end LineCensus.Binary64
