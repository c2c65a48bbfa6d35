/-!
# Arithmetic modulo a number

* `pow` raises to a power by squaring;
* `inverse` inverts modulo a prime number;
* `sub` subtracts.
-/

namespace BearerAuth.Crypto.Modular

/-- The power of `b` to the exponent whose lowest `bits` bits are those of `e`, modulo `m`. -/
def powBits (m b : Nat) : Nat → Nat → Nat
  | 0, _ => 1 % m
  | bits + 1, e =>
    let half := powBits m b bits (e / 2)
    let square := half * half % m
    if e % 2 == 1 then square * b % m else square

/-- The power of `b` to the exponent `e`, modulo `m`. -/
def pow (m b e : Nat) : Nat := powBits m (b % m) (e.log2 + 1) e

/-- The inverse of a number that is not zero, modulo a prime `p`. -/
def inverse (p a : Nat) : Nat := pow p a (p - 2)

/-- The difference of two numbers below `m`, modulo `m`. -/
def sub (m a b : Nat) : Nat := (a + (m - b)) % m

end BearerAuth.Crypto.Modular
