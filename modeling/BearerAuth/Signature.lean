import BearerAuth.Crypto.Ecdsa
import BearerAuth.Crypto.Ed25519
import BearerAuth.Crypto.Rsa
import BearerAuth.Jwk

/-!
# Checking signatures

* `Signature.checker?` is the check that a key makes by an algorithm, if the key is of the kind that
  the algorithm uses; an RSA key outside the limits is of that kind, but fits no signature.
-/

namespace BearerAuth.Signature

open Crypto

/-- A check of a signature: of the octets that were signed, and the signature. -/
abbrev Checker := (message signature : List UInt8) → Bool

/-- A check with an RSA key. -/
def rsaChecker (modulus exponent : List UInt8)
    (verify : Rsa.Key → List UInt8 → List UInt8 → Bool) : Checker :=
  fun message signature =>
    match Rsa.Key.ofOctets? modulus exponent with
    | some k => verify k message signature
    | none => false

/-- A check with a point of a curve. -/
def ecChecker? (c : Ecdsa.Curve) (d : Digest) (point : List UInt8) : Option Checker :=
  (c.point? point).map fun q => Ecdsa.verify c d q

/-- A check with a point of the Edwards curve, encoded in the first 32 octets. -/
def edChecker? (bytes : List UInt8) : Option Checker :=
  let key := bytes.take 32
  if key.length == 32 then
    (Ed25519.Point.ofOctets? key).map fun a => Ed25519.verify key a
  else none

/-- The check that a key makes by an algorithm.  Shared secrets check no token. -/
def checker? (a : Algorithm) (k : KeyMaterial) : Option Checker :=
  match a, k with
  | .rs256, .rsa n e => some (rsaChecker n e (Rsa.verifyPkcs1 .sha256))
  | .rs384, .rsa n e => some (rsaChecker n e (Rsa.verifyPkcs1 .sha384))
  | .rs512, .rsa n e => some (rsaChecker n e (Rsa.verifyPkcs1 .sha512))
  | .ps256, .rsa n e => some (rsaChecker n e (Rsa.verifyPss .sha256))
  | .ps384, .rsa n e => some (rsaChecker n e (Rsa.verifyPss .sha384))
  | .ps512, .rsa n e => some (rsaChecker n e (Rsa.verifyPss .sha512))
  | .es256, .point bytes => ecChecker? Ecdsa.p256 .sha256 bytes
  | .es384, .point bytes => ecChecker? Ecdsa.p384 .sha384 bytes
  | .edDSA, .edwards bytes => edChecker? bytes
  | _, _ => none

theorem family_of_checker? {a : Algorithm} {k : KeyMaterial} {c : Checker}
    (h : checker? a k = some c) : k.family = a.family := by
  cases a <;> cases k <;> simp_all [checker?, KeyMaterial.family, Algorithm.family]

end BearerAuth.Signature
