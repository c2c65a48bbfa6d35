import BearerAuth.Number.Rounding

/-!
# Binary fractions of 53 bits

The non-negative finite numbers of the binary64 format, `mantissa * 2 ^ exponent`, in exact
arithmetic.

* `Binary64.ofQuotient?` rounds a quotient to the nearest such number, a half to the even mantissa;
* `Binary64.mul?` and `Binary64.div?` are the rounded product and quotient;
* `Binary64.scaleTen?` multiplies by a power of ten the way a decimal number is read.
-/

namespace BearerAuth.Number

/-- A non-negative finite binary64 number. -/
structure Binary64 where
  /-- At most 53 bits. -/
  mantissa : Nat
  /-- The power of two it is multiplied by, from -1074 to 971. -/
  exponent : Int
  deriving DecidableEq, Repr

namespace Binary64

/-- The number zero. -/
def zero : Binary64 := ⟨0, 0⟩

/-- The number is zero. -/
def isZero (x : Binary64) : Bool := x.mantissa == 0

/-- The quotient `num / (den * 2 ^ e)`, as numerator and denominator. -/
def scaled (num den : Nat) (e : Int) : Nat × Nat :=
  if e < 0 then (num * Nat.pow 2 e.natAbs, den) else (num, den * Nat.pow 2 e.natAbs)

/-- The exponent of the format for `num / den`: the least one, not under -1074, for which the
mantissa stays below `2 ^ 53`. -/
def exponentOf (num den : Nat) : Int :=
  let d : Int := (num.log2 : Int) - den.log2 - 53
  let e := max d (-1074)
  let (n, m) := scaled num den e
  if m * Nat.pow 2 53 ≤ n then e + 1 else e

/-- The binary64 number nearest to `num / den`; `none` beyond the largest one. -/
def ofQuotient? (num den : Nat) : Option Binary64 :=
  if num == 0 then some zero
  else
    let e := exponentOf num den
    let (n, m) := scaled num den e
    let mantissa := nearestEven n m
    let x : Binary64 := if mantissa == Nat.pow 2 53 then ⟨Nat.pow 2 52, e + 1⟩ else ⟨mantissa, e⟩
    if x.isZero then some zero else if 971 < x.exponent then none else some x

/-- The number as numerator and denominator. -/
def toQuotient (x : Binary64) : Nat × Nat :=
  if x.exponent < 0 then (x.mantissa, Nat.pow 2 x.exponent.natAbs)
  else (x.mantissa * Nat.pow 2 x.exponent.natAbs, 1)

/-- The rounded product. -/
def mul? (x y : Binary64) : Option Binary64 :=
  let (a, b) := x.toQuotient
  let (c, d) := y.toQuotient
  ofQuotient? (a * c) (b * d)

/-- The rounded quotient; `y` is not zero. -/
def div? (x y : Binary64) : Option Binary64 :=
  let (a, b) := x.toQuotient
  let (c, d) := y.toQuotient
  ofQuotient? (a * d) (b * c)

/-- The nearest number to a natural number below `2 ^ 64`. -/
def ofNat? (n : Nat) : Option Binary64 := ofQuotient? n 1

/-- The nearest number to a power of ten. -/
def powTen? (k : Nat) : Option Binary64 := ofQuotient? (Nat.pow 10 k) 1

/-- Divides by `10 ^ k`, in steps of at most `10 ^ 308`, rounding after each. -/
def divPowTen? (x : Binary64) (k : Nat) : Option Binary64 :=
  if x.isZero then some zero
  else if k ≤ 308 then (powTen? k).bind x.div?
  else ((powTen? 308).bind x.div?).bind fun y => divPowTen? y (k - 308)
termination_by k

/-- Multiplies by `10 ^ e`; `none` beyond the largest number. -/
def scaleTen? (x : Binary64) (e : Int) : Option Binary64 :=
  if e < 0 then divPowTen? x e.natAbs
  else if x.isZero then some zero
  else if e ≤ 308 then (powTen? e.natAbs).bind x.mul?
  else none

end Binary64

end BearerAuth.Number
