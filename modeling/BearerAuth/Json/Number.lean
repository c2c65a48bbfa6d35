import BearerAuth.Json.Node
import BearerAuth.Number.Binary64

/-!
# The value of a number

A number without point and exponent is kept whole if it fits in 64 bits.  Any other is read as a
binary fraction: the leading digits that fit in 64 bits form a significand, the digits after them
only move the point, and the significand is multiplied or divided by a power of ten.

* `Numeral.value?` is the value of a numeral, `none` if it is beyond the largest binary fraction.
-/

namespace BearerAuth.Json

open Number (Binary64)

/-- The value of a number. -/
inductive NumberValue where
  /-- A natural number below `2 ^ 64`. -/
  | natural (n : Nat)
  /-- Minus `n`, with `n` from 1 to `2 ^ 63`. -/
  | negative (n : Nat)
  /-- A binary fraction, with a minus sign if `negative` is set; zero has a sign too. -/
  | real (negative : Bool) (x : Binary64)
  deriving DecidableEq, Repr

/-- Appends digits to a significand while it stays below `2 ^ 64`; also the digits left over. -/
def absorb (significand : Nat) : List Nat → Nat × List Nat
  | [] => (significand, [])
  | d :: rest =>
    if significand * 10 + d < Nat.pow 2 64 then absorb (significand * 10 + d) rest
    else (significand, d :: rest)

/-- The number that decimal digits write. -/
def ofDigits (digits : List Nat) : Nat := digits.foldl (fun n d => n * 10 + d) 0

/-- The largest exponent that is taken at its value. -/
def maxExponent : Nat := 2147483647

/-- The value of a numeral read as a binary fraction. -/
def Numeral.real? (n : Numeral) : Option Binary64 :=
  let (whole, moved) := absorb 0 n.whole
  let (significand, dropped) := absorb whole n.fraction
  let shift : Int := (moved.length : Int) - (n.fraction.length - dropped.length : Nat)
  let scale (e : Int) := (Binary64.ofNat? significand).bind (·.scaleTen? e)
  match n.exponent with
  | none => scale shift
  | some (negative, digits) =>
    let e := ofDigits digits
    if maxExponent < e then
      if significand == 0 || negative then some .zero else none
    else scale (if negative then shift - e else shift + e)

/-- The value of a numeral; `none` if it is out of range. -/
def Numeral.value? (n : Numeral) : Option NumberValue :=
  let (whole, moved) := absorb 0 n.whole
  if n.fraction.isEmpty && n.exponent.isNone && moved.isEmpty then
    if !n.negative then some (.natural whole)
    else if 0 < whole && whole ≤ Nat.pow 2 63 then some (.negative whole)
    else (Binary64.ofNat? whole).map (.real true)
  else n.real?.map (.real n.negative)

end BearerAuth.Json
