import BearerAuth.Crypto.Modular
import BearerAuth.Crypto.Sha2

/-!
# Signatures on prime-order curves

The curves `y² = x³ - 3x + b` over a prime field.  Points are kept in Jacobian coordinates, in which
`(X, Y, Z)` stands for `(X / Z², Y / Z³)` and `Z = 0` for the neutral point.

* `Curve.point?` reads a published point, which has to lie on the curve;
* `verify` checks a signature, which is the pair of its two numbers in fixed length.
-/

namespace BearerAuth.Crypto.Ecdsa

open Digest (ofOctets)

/-- A curve of prime order. -/
structure Curve where
  /-- The number of octets of a coordinate, and of a number modulo the order. -/
  size : Nat
  /-- The prime of the field. -/
  p : Nat
  /-- The constant of the equation. -/
  b : Nat
  /-- The order. -/
  n : Nat
  /-- The coordinates of the generator. -/
  generator : Nat × Nat

/-- The curve P-256. -/
def p256 : Curve where
  size := 32
  p := 0xffffffff00000001000000000000000000000000ffffffffffffffffffffffff
  b := 0x5ac635d8aa3a93e7b3ebbd55769886bc651d06b0cc53b0f63bce3c3e27d2604b
  n := 0xffffffff00000000ffffffffffffffffbce6faada7179e84f3b9cac2fc632551
  generator :=
    (0x6b17d1f2e12c4247f8bce6e563a440f277037d812deb33a0f4a13945d898c296,
     0x4fe342e2fe1a7f9b8ee7eb4a7c0f9e162bce33576b315ececbb6406837bf51f5)

/-- The curve P-384. -/
def p384 : Curve where
  size := 48
  p := 0xfffffffffffffffffffffffffffffffffffffffffffffffffffffffffffffffeffffffff0000000000000000ffffffff
  b := 0xb3312fa7e23ee7e4988e056be3f82d19181d9c6efe8141120314088f5013875ac656398d8a2ed19d2a85c8edd3ec2aef
  n := 0xffffffffffffffffffffffffffffffffffffffffffffffffc7634d81f4372ddf581a0db248b0a77aecec196accc52973
  generator :=
    (0xaa87ca22be8b05378eb1c71ef320ad746e1d3b628ba79b9859f741e082542a385502f25dbf55296c3a545e3872760ab7,
     0x3617de4a96262c6f5d9e98bf9292dc29f8f41dbd289a147ce9da3113b5f0b8c00a60b1ce1d7e819d7a431d7c90ea0e5f)

/-- A point in Jacobian coordinates. -/
structure Point where
  /-- The first coordinate. -/
  x : Nat
  /-- The second coordinate. -/
  y : Nat
  /-- The scale. -/
  z : Nat
  deriving DecidableEq, Repr

/-- The neutral point. -/
def Point.zero : Point := ⟨1, 1, 0⟩

namespace Curve

variable (c : Curve)

/-- Twice a point. -/
def double (q : Point) : Point :=
  if q.z == 0 || q.y == 0 then .zero
  else
    let p := c.p
    let zz := q.z * q.z % p
    let yy := q.y * q.y % p
    let s := 4 * q.x * yy % p
    let m := 3 * (Modular.sub p q.x zz) * (q.x + zz) % p
    let x := (m * m + 2 * (p - s)) % p
    let y := (m * (Modular.sub p s x) + 8 * (p - yy * yy % p)) % p
    ⟨x, y, 2 * q.y * q.z % p⟩

/-- The sum of two points. -/
def add (q r : Point) : Point :=
  if q.z == 0 then r
  else if r.z == 0 then q
  else
    let p := c.p
    let qq := q.z * q.z % p
    let rr := r.z * r.z % p
    let u := q.x * rr % p
    let v := r.x * qq % p
    let s := q.y * rr * r.z % p
    let t := r.y * qq * q.z % p
    if u == v then
      if s == t then c.double q else .zero
    else
      let h := Modular.sub p v u
      let hh := h * h % p
      let hhh := hh * h % p
      let w := u * hh % p
      let d := Modular.sub p t s
      let x := (d * d + (p - hhh) + 2 * (p - w)) % p
      let y := (d * (Modular.sub p w x) + (p - s * hhh % p)) % p
      ⟨x, y, h * q.z * r.z % p⟩

/-- The multiple of a point by the number whose lowest `bits` bits are those of `k`. -/
def mulBits (q : Point) : Nat → Nat → Point
  | 0, _ => .zero
  | bits + 1, k =>
    let twice := c.double (mulBits q bits (k / 2))
    if k % 2 == 1 then c.add twice q else twice

/-- The multiple of a point by a number. -/
def mul (q : Point) (k : Nat) : Point := c.mulBits q (k.log2 + 1) k

/-- The generator. -/
def base : Point := ⟨c.generator.1, c.generator.2, 1⟩

/-- A pair of coordinates is a point of the curve. -/
def contains (x y : Nat) : Bool :=
  x < c.p && y < c.p && y * y % c.p == (x * x % c.p * x + 3 * (c.p - x) + c.b) % c.p

/-- Reads a point: the octet `04` and two coordinates in fixed length. -/
def point? (bytes : List UInt8) : Option Point :=
  match bytes with
  | 4 :: rest =>
    let x := ofOctets (rest.take c.size)
    let y := ofOctets (rest.drop c.size)
    if rest.length == 2 * c.size && c.contains x y then some ⟨x, y, 1⟩ else none
  | _ => none

/-- The first coordinate of a point other than the neutral one. -/
def abscissa? (q : Point) : Option Nat :=
  if q.z == 0 then none
  else
    let i := Modular.inverse c.p q.z
    some (q.x * (i * i % c.p) % c.p)

end Curve

/-- Checks a signature of a digest that is as long as a coordinate. -/
def verify (c : Curve) (d : Digest) (key : Point) (message signature : List UInt8) : Bool :=
  let r := ofOctets (signature.take c.size)
  let s := ofOctets (signature.drop c.size)
  if signature.length == 2 * c.size && 0 < r && r < c.n && 0 < s && s < c.n then
    let z := ofOctets (d.hash message)
    let i := Modular.inverse c.n s
    let q := c.add (c.mul c.base (z * i % c.n)) (c.mul key (r * i % c.n))
    match c.abscissa? q with
    | some x => x % c.n == r
    | none => false
  else false

end BearerAuth.Crypto.Ecdsa
