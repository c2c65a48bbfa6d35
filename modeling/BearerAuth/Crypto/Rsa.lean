import BearerAuth.Crypto.Modular
import BearerAuth.Crypto.Sha2

/-!
# RSA signatures

A signature is as long as the modulus; its number, raised to the public exponent, gives the encoding
of the digest of the message.

* `Key.ofOctets?` takes a public key within the limits on its numbers;
* `verifyPkcs1` checks a signature whose encoding is the digest in a fixed frame; its number has to
  be below the modulus;
* `verifyPss` checks one whose encoding is randomised by a salt as long as the digest; its number
  counts modulo the modulus.
-/

namespace BearerAuth.Crypto.Rsa

open Digest (ofOctets toOctets)

/-- A public key. -/
structure Key where
  /-- The modulus. -/
  modulus : Nat
  /-- The exponent. -/
  exponent : Nat
  deriving DecidableEq, Repr

namespace Key

/-- The number of bits of the modulus. -/
def bits (k : Key) : Nat := if k.modulus == 0 then 0 else k.modulus.log2 + 1

/-- The number of octets of the modulus. -/
def size (k : Key) : Nat := (k.bits + 7) / 8

/-- The key is within the limits: an odd modulus of at most 4096 bits and an odd exponent below it
and of at most 33 bits. -/
def isSound (k : Key) : Bool :=
  k.bits ≤ 4096 && k.exponent < k.modulus && k.modulus % 2 == 1 && k.exponent % 2 == 1 &&
    2 ≤ k.exponent && k.exponent < Nat.pow 2 33

/-- The key of two published numbers. -/
def ofOctets? (modulus exponent : List UInt8) : Option Key :=
  let k : Key := ⟨ofOctets modulus, ofOctets exponent⟩
  if k.isSound then some k else none

end Key

/-- The encoding that a signature stands for; both are as long as the modulus. -/
def encoding? (k : Key) (signature : List UInt8) : Option (List UInt8) :=
  if signature.length == k.size then
    some (toOctets k.size (Modular.pow k.modulus (ofOctets signature) k.exponent))
  else none

/-- The name of a digest in front of its octets. -/
def digestInfo : Digest → List UInt8
  | .sha256 => [0x30, 0x31, 0x30, 0x0d, 0x06, 0x09, 0x60, 0x86, 0x48, 0x01, 0x65, 0x03, 0x04, 0x02,
      0x01, 0x05, 0x00, 0x04, 0x20]
  | .sha384 => [0x30, 0x41, 0x30, 0x0d, 0x06, 0x09, 0x60, 0x86, 0x48, 0x01, 0x65, 0x03, 0x04, 0x02,
      0x02, 0x05, 0x00, 0x04, 0x30]
  | .sha512 => [0x30, 0x51, 0x30, 0x0d, 0x06, 0x09, 0x60, 0x86, 0x48, 0x01, 0x65, 0x03, 0x04, 0x02,
      0x03, 0x05, 0x00, 0x04, 0x40]

/-- The digest of a message in its frame of `size` octets; at least eight of them fill the frame. -/
def framed? (d : Digest) (message : List UInt8) (size : Nat) : Option (List UInt8) :=
  let t := digestInfo d ++ d.hash message
  if size < t.length + 11 then none
  else some (0x00 :: 0x01 :: List.replicate (size - t.length - 3) 0xff ++ 0x00 :: t)

/-- Checks a signature by PKCS #1 v1.5; its number has to be below the modulus. -/
def verifyPkcs1 (d : Digest) (k : Key) (message signature : List UInt8) : Bool :=
  ofOctets signature < k.modulus &&
    match encoding? k signature with
    | none => false
    | some e => framed? d message k.size == some e

/-- The mask that a seed spreads to, `n` digests of it. -/
def mask (d : Digest) (seed : List UInt8) (n : Nat) : List UInt8 :=
  (List.range n).flatMap fun i => d.hash (seed ++ toOctets 4 i)

/-- Checks an encoding by PSS, which fills the last `bits` bits of its octets.  Octets in front of
those that hold these bits are not looked at. -/
def checkPss (d : Digest) (bits : Nat) (message encoded : List UInt8) : Bool :=
  let size := (bits + 7) / 8
  let e := encoded.drop (encoded.length - size)
  let dbSize := size - d.size - 1
  let masked := e.take dbSize
  let h := (e.drop dbSize).take d.size
  let spare := 8 * size - bits
  let db := List.zipWith (· ^^^ ·) masked (mask d h ((dbSize + d.size - 1) / d.size))
  let db := match db with
    | b :: rest => UInt8.ofNat (b.toNat % Nat.pow 2 (8 - spare)) :: rest
    | [] => []
  let zeros := dbSize - d.size - 1
  let salt := db.drop (zeros + 1)
  2 * d.size + 2 ≤ size && e.getLast? == some 0xbc &&
    (masked.headD 0).toNat / Nat.pow 2 (8 - spare) == 0 &&
    db.take (zeros + 1) == List.replicate zeros 0 ++ [1] &&
    d.hash (List.replicate 8 0 ++ d.hash message ++ salt) == h

/-- Checks a signature by PSS; its encoding is one bit shorter than the modulus. -/
def verifyPss (d : Digest) (k : Key) (message signature : List UInt8) : Bool :=
  match encoding? k signature with
  | none => false
  | some e => checkPss d (k.bits - 1) message e

end BearerAuth.Crypto.Rsa
