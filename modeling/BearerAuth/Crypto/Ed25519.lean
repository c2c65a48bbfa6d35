import BearerAuth.Crypto.Modular
import BearerAuth.Crypto.Sha2

/-!
# Signatures on the Edwards curve

The curve `-x² + y² = 1 + d x² y²` over the field of `2 ^ 255 - 19` elements.  Points are kept in
extended coordinates `(X, Y, Z, T)`, which stand for `(X / Z, Y / Z)` with `T Z = X Y`; one formula
adds any two of them.

* `Point.ofOctets?` reads the encoding of a point;
* `verify` checks a signature without a look at the order of the key: any point will do, but the
  number in the signature has to be below the order of the base point.
-/

namespace BearerAuth.Crypto.Ed25519

/-- The prime of the field. -/
def p : Nat := Nat.pow 2 255 - 19

/-- The order of the base point. -/
def order : Nat := Nat.pow 2 252 + 27742317777372353535851937790883648493

/-- The constant of the equation. -/
def d : Nat := 37095705934669439343138083508754565189542113879843219016388785533085940283555

/-- A square root of minus one. -/
def rootOfMinusOne : Nat :=
  19681161376707505956807079304988542015446066515923890162744021073123829784752

/-- A point in extended coordinates. -/
structure Point where
  /-- The first coordinate. -/
  x : Nat
  /-- The second coordinate. -/
  y : Nat
  /-- The scale. -/
  z : Nat
  /-- The product of the coordinates. -/
  t : Nat
  deriving DecidableEq, Repr

/-- The number that octets write, the last one weighing most. -/
def ofOctets (bytes : List UInt8) : Nat := Digest.ofOctets bytes.reverse

namespace Point

/-- The neutral point. -/
def zero : Point := ⟨0, 1, 1, 0⟩

/-- The sum of two points. -/
def add (q r : Point) : Point :=
  let a := Modular.sub p q.y q.x * Modular.sub p r.y r.x % p
  let b := (q.y + q.x) * (r.y + r.x) % p
  let c := 2 * d * q.t % p * r.t % p
  let e := 2 * q.z * r.z % p
  let f := Modular.sub p b a
  let g := Modular.sub p e c
  let h := (e + c) % p
  let i := (b + a) % p
  ⟨f * g % p, h * i % p, g * h % p, f * i % p⟩

/-- The opposite of a point. -/
def neg (q : Point) : Point := ⟨Modular.sub p 0 q.x, q.y, q.z, Modular.sub p 0 q.t⟩

/-- The multiple of a point by the number whose lowest `bits` bits are those of `k`. -/
def mulBits (q : Point) : Nat → Nat → Point
  | 0, _ => zero
  | bits + 1, k =>
    let half := mulBits q bits (k / 2)
    let twice := half.add half
    if k % 2 == 1 then twice.add q else twice

/-- The multiple of a point by a number. -/
def mul (q : Point) (k : Nat) : Point := q.mulBits (k.log2 + 1) k

/-- A root of `u / v`, with `v` not zero, if there is one. -/
def rootOfQuotient? (u v : Nat) : Option Nat :=
  let v3 := v * v % p * v % p
  let v7 := v3 * v3 % p * v % p
  let r := u * v3 % p * Modular.pow p (u * v7 % p) ((p - 5) / 8) % p
  let check := v * (r * r % p) % p
  if check == u % p then some r
  else if check == Modular.sub p 0 (u % p) then some (r * rootOfMinusOne % p)
  else none

/-- Reads a point from 32 octets: its second coordinate, reduced, and in the topmost bit whether the
first one is odd. -/
def ofOctets? (bytes : List UInt8) : Option Point :=
  let n := Ed25519.ofOctets bytes
  let y := n % Nat.pow 2 255 % p
  let odd := n / Nat.pow 2 255 % 2
  let yy := y * y % p
  (rootOfQuotient? (Modular.sub p yy 1) ((d * yy + 1) % p)).map fun r =>
    let x := if r % 2 == odd then r else Modular.sub p 0 r
    ⟨x, y, 1, x * y % p⟩

/-- The encoding of a point, as a number. -/
def encode (q : Point) : Nat :=
  let i := Modular.inverse p q.z
  let x := q.x * i % p
  let y := q.y * i % p
  y + x % 2 * Nat.pow 2 255

/-- The base point. -/
def base : Point :=
  let x := 15112221349535400772501151409588531511454012693041857206046113283949847762202
  let y := 46316835694926478169428394003475163141307993866256225615783033603165251855960
  ⟨x, y, 1, x * y % p⟩

end Point

/-- Checks a signature under the key with encoding `key`, which stands for the point `a`. -/
def verify (key : List UInt8) (a : Point) (message signature : List UInt8) : Bool :=
  let r := signature.take 32
  let s := ofOctets (signature.drop 32)
  if signature.length == 64 && s < order then
    let k := ofOctets (Digest.sha512.hash (r ++ key ++ message)) % order
    ((Point.base.mul s).add (a.neg.mul k)).encode == ofOctets r
  else false

end BearerAuth.Crypto.Ed25519
