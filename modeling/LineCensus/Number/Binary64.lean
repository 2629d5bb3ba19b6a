/-!
# Binary floating point

`Binary64` is a number m · 2^q as the 64-bit binary format holds it, without a sign: m has at most
53 bits, and fewer only where q has reached its least value. Every operation is the exact result
rounded to the nearest such number, halves to the even m (`ofRatio`), so shares and percentages
are the same on every machine and can be computed in proofs.
-/

namespace LineCensus

/-- The whole number nearest to `num / den`; halves go to the even neighbour. -/
def roundDiv (num den : Nat) : Nat :=
  let q := num / den
  let r := num % den
  if 2 * r < den then q
  else if den < 2 * r then q + 1
  else q + q % 2

/-- The number `mantissa · 2 ^ exponent`. -/
structure Binary64 where
  mantissa : Nat
  exponent : Int
  deriving DecidableEq, Repr

namespace Binary64

/-- The least exponent of the format. -/
def minExponent : Int := -1074

/-- The number zero. -/
def zero : Binary64 := ⟨0, minExponent⟩

/-- The numerator and denominator of `n · 2 ^ q / d`. -/
def scale (n d : Nat) (q : Int) : Nat × Nat := (n * Nat.pow 2 q.toNat, d * Nat.pow 2 (-q).toNat)

/-- The greatest `e` with `2 ^ e ≤ num / den`, for a positive quotient. -/
def floorLog2 (num den : Nat) : Int :=
  let e := (num.log2 : Int) - den.log2
  let (n, d) := scale num den (-e)
  if d ≤ n then e else e - 1

/-- The number nearest to `num / den`, halves to the even mantissa. -/
def ofRatio (num den : Nat) : Binary64 :=
  if num = 0 ∨ den = 0 then zero
  else
    let q := max (floorLog2 num den - 52) minExponent
    let (n, d) := scale num den (-q)
    let m := roundDiv n d
    if m = Nat.pow 2 53 then ⟨Nat.pow 2 52, q + 1⟩ else ⟨m, q⟩

/-- The number nearest to a whole number. -/
def ofNat (n : Nat) : Binary64 := ofRatio n 1

/-- The exact value as a fraction. -/
def ratio (x : Binary64) : Nat × Nat := scale x.mantissa 1 x.exponent

/-- The rounded product. -/
def mul (x y : Binary64) : Binary64 :=
  ofRatio (x.ratio.1 * y.ratio.1) (x.ratio.2 * y.ratio.2)

/-- The rounded quotient. -/
def div (x y : Binary64) : Binary64 :=
  ofRatio (x.ratio.1 * y.ratio.2) (x.ratio.2 * y.ratio.1)

instance : Mul Binary64 := ⟨mul⟩

instance : Div Binary64 := ⟨div⟩

/-- The number is too great for the format. -/
def isInfinite (x : Binary64) : Bool := Nat.pow 2 52 ≤ x.mantissa && 971 < x.exponent

/-- The 64 bits of the format. -/
def bits (x : Binary64) : Nat :=
  if x.mantissa < Nat.pow 2 52 then x.mantissa
  else (x.exponent - minExponent + 1).toNat * Nat.pow 2 52 + (x.mantissa - Nat.pow 2 52)

end Binary64

end LineCensus
