import BearerAuth.Algorithm
import BearerAuth.Event
import BearerAuth.Json.Value
import BearerAuth.Text.Base64Url

/-!
# Published keys

A provider publishes its keys as JSON objects, each with what kind of key it is, what it is for and
the numbers that make it up.

* `Jwk.ofMembers?` reads the members of such an object;
* `Jwk.material?` decodes the key itself;
* `Jwk.usableKey` decides whether a published value can serve to check signatures: it has a name,
  is not meant for encryption, names a signing algorithm or none, and holds a key.
-/

namespace BearerAuth

open Json

/-- A key to check signatures with. -/
inductive KeyMaterial where
  /-- A shared secret. -/
  | secret (bytes : List UInt8)
  /-- Modulus and exponent of an RSA key, with their leading zeros. -/
  | rsa (modulus exponent : List UInt8)
  /-- A point of an elliptic curve: `04` and the two coordinates as published. -/
  | point (bytes : List UInt8)
  /-- A point of an Edwards curve in its encoding. -/
  | edwards (bytes : List UInt8)
  deriving DecidableEq, Repr

/-- The family that a key belongs to. -/
def KeyMaterial.family : KeyMaterial → Family
  | .secret _ => .hmac
  | .rsa _ _ => .rsa
  | .point _ => .ec
  | .edwards _ => .ed

/-- The algorithm that a key is published for. -/
inductive KeyAlgorithm where
  /-- A signature algorithm. -/
  | signing (a : Algorithm)
  /-- RSA encryption, PKCS #1 v1.5. -/
  | rsa15
  /-- RSA encryption, OAEP with SHA-1. -/
  | rsaOaep
  /-- RSA encryption, OAEP with SHA-256. -/
  | rsaOaep256
  /-- Any other. -/
  | unknown
  deriving DecidableEq, Repr

namespace KeyAlgorithm

/-- The algorithm of a published name. -/
def ofName (s : String) : KeyAlgorithm :=
  match Algorithm.ofName? s with
  | some a => signing a
  | none =>
    if s = "RSA1_5" then rsa15
    else if s = "RSA-OAEP" then rsaOaep
    else if s = "RSA-OAEP-256" then rsaOaep256
    else unknown

/-- The name under which an algorithm is published. -/
def name : KeyAlgorithm → String
  | signing a => a.name
  | rsa15 => "RSA1_5"
  | rsaOaep => "RSA-OAEP"
  | rsaOaep256 => "RSA-OAEP-256"
  | unknown => "UNKNOWN_ALGORITHM"

/-- The name of an algorithm in the log. -/
def label : KeyAlgorithm → String
  | signing a => a.name
  | rsa15 => "RSA1_5"
  | rsaOaep => "RSA_OAEP"
  | rsaOaep256 => "RSA_OAEP_256"
  | unknown => "UNKNOWN_ALGORITHM"

end KeyAlgorithm

/-- The kind of a published key, with its numbers still encoded. -/
inductive KeyParameters where
  /-- A point of an elliptic curve. -/
  | ec (crv x y : String)
  /-- An RSA key. -/
  | rsa (n e : String)
  /-- A shared secret. -/
  | oct (k : String)
  /-- A point of an Edwards curve. -/
  | okp (crv x : String)
  deriving DecidableEq, Repr

/-- A published key. -/
structure Jwk where
  /-- What the key is for. -/
  use : Option String
  /-- What the key can do. -/
  keyOps : Option (List String)
  /-- The algorithm that the key is for. -/
  alg : Option KeyAlgorithm
  /-- The name of the key. -/
  kid : Option String
  /-- Where its certificate is. -/
  x5u : Option String
  /-- The chain of its certificate. -/
  x5c : Option (List String)
  /-- The SHA-1 digest of its certificate. -/
  x5t : Option String
  /-- The SHA-256 digest of its certificate. -/
  x5tS256 : Option String
  /-- The key itself. -/
  parameters : KeyParameters
  deriving DecidableEq, Repr

namespace Jwk

/-- The members of an object. -/
abbrev Members := List (String × Value)

/-- The one value of a name, if any; a name must not be repeated. -/
def once? (members : Members) (name : String) : Option (Option Value) :=
  match members.filter (·.1 == name) with
  | [] => some none
  | [(_, v)] => some (some v)
  | _ => none

/-- A member that may be left out or be `null`. -/
def optional? {α : Type} (members : Members) (name : String) (read : Value → Option α) :
    Option (Option α) :=
  match once? members name with
  | none => none
  | some none => some none
  | some (some .null) => some none
  | some (some v) => (read v).map some

/-- A member that has to be a string. -/
def text? (members : Members) (name : String) : Option String :=
  ((once? members name).bind id).bind Value.string?

/-- The algorithm of a key; its name may also be the one member of an object without contents. -/
def algorithm? : Value → Option KeyAlgorithm
  | .object [(name, .object [])] => some (.ofName name)
  | v => v.variant?.map .ofName

/-- The value of a member that is the name of a variant. -/
def variant? (members : Members) (name : String) : Option String :=
  ((once? members name).bind id).bind Value.variant?

/-- The curves that may be named. -/
def curves : List String := ["P-256", "P-384", "P-521", "Ed25519"]

/-- The curve of a key. -/
def curve? (members : Members) : Option String :=
  (variant? members "crv").filter curves.contains

/-- The key itself, as its kind says. -/
def parameters? (members : Members) : Option KeyParameters := do
  let kind ← variant? members "kty"
  if kind = "EC" then
    pure (.ec (← curve? members) (← text? members "x") (← text? members "y"))
  else if kind = "RSA" then pure (.rsa (← text? members "n") (← text? members "e"))
  else if kind = "oct" then pure (.oct (← text? members "k"))
  else if kind = "OKP" then pure (.okp (← curve? members) (← text? members "x"))
  else none

/-- Reads the members of an object as a published key. -/
def ofMembers? (members : Members) : Option Jwk := do
  let use ← optional? members "use" Value.string?
  let keyOps ← optional? members "key_ops" Value.strings?
  let alg ← optional? members "alg" algorithm?
  let kid ← optional? members "kid" Value.string?
  let x5u ← optional? members "x5u" Value.string?
  let x5c ← optional? members "x5c" Value.strings?
  let x5t ← optional? members "x5t" Value.string?
  let x5tS256 ← optional? members "x5t#S256" Value.string?
  let parameters ← parameters? members
  pure { use, keyOps, alg, kid, x5u, x5c, x5t, x5tS256, parameters }

/-- Reads a published value, which has to be an object; of a repeated name, in it or deeper, the
last member counts. -/
def ofValue? (v : Value) : Option Jwk :=
  match v.distinct with
  | .object members => ofMembers? members
  | _ => none

/-- Decodes one number of a key. -/
def octets? (s : String) : Option (List UInt8) := Text.Base64Url.decode? s.toList

/-- Decodes the key. -/
def material? (j : Jwk) : Option KeyMaterial :=
  match j.parameters with
  | .ec _ x y => do pure (.point (4 :: (← octets? x) ++ (← octets? y)))
  | .rsa n e => do pure (.rsa (← octets? n) (← octets? e))
  | .oct k => (octets? k).map .secret
  | .okp _ x => (octets? x).map .edwards

end Jwk

/-- A key to check signatures with, and the algorithm that it was published for. -/
structure VerificationKey where
  /-- The key. -/
  material : KeyMaterial
  /-- The algorithm, if one was published. -/
  algorithm : Option Algorithm
  deriving DecidableEq, Repr

/-- The key may serve to check signatures by `a`. -/
def VerificationKey.permits (k : VerificationKey) (a : Algorithm) : Bool :=
  k.algorithm.isNone || k.algorithm == some a

namespace Jwk

/-- The signature algorithm of a key: none if it is published for no algorithm. -/
def signing? (j : Jwk) : Except String (Option Algorithm) :=
  match j.alg with
  | none => .ok none
  | some (.signing a) => .ok (some a)
  | some other => .error other.label

/-- The name and the key of a published value that can serve to check signatures; or why it is
passed over. -/
def usableKey (v : Value) : Except Event (String × VerificationKey) :=
  match ofValue? v with
  | none => .error .keyUnreadable
  | some j =>
    match j.kid with
    | none => .error .keyUnnamed
    | some kid =>
      if j.use = some "enc" then .error (.keyForEncryption kid)
      else
        match j.signing? with
        | .error label => .error (.keyNotForSignatures kid label)
        | .ok algorithm =>
          match j.material? with
          | none => .error (.keyUnusable kid)
          | some material => .ok (kid, ⟨material, algorithm⟩)

end Jwk

end BearerAuth
