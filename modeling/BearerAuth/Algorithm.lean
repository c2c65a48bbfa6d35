/-!
# Signature algorithms

The algorithms that a token may name and the families of keys that they use.

* `Algorithm.accepted` lists those that a token may be signed with: the symmetric ones are not among
  them, because published keys are public.
-/

namespace BearerAuth

/-- A kind of key. -/
inductive Family where
  /-- A shared secret. -/
  | hmac
  /-- RSA. -/
  | rsa
  /-- A prime-order elliptic curve. -/
  | ec
  /-- An Edwards curve. -/
  | ed
  deriving DecidableEq, Repr

/-- The name of a family. -/
def Family.name : Family → String
  | .hmac => "Hmac"
  | .rsa => "Rsa"
  | .ec => "Ec"
  | .ed => "Ed"

/-- A signature algorithm. -/
inductive Algorithm where
  /-- HMAC with SHA-256. -/
  | hs256
  /-- HMAC with SHA-384. -/
  | hs384
  /-- HMAC with SHA-512. -/
  | hs512
  /-- ECDSA on P-256 with SHA-256. -/
  | es256
  /-- ECDSA on P-384 with SHA-384. -/
  | es384
  /-- RSA PKCS #1 v1.5 with SHA-256. -/
  | rs256
  /-- RSA PKCS #1 v1.5 with SHA-384. -/
  | rs384
  /-- RSA PKCS #1 v1.5 with SHA-512. -/
  | rs512
  /-- RSA PSS with SHA-256. -/
  | ps256
  /-- RSA PSS with SHA-384. -/
  | ps384
  /-- RSA PSS with SHA-512. -/
  | ps512
  /-- Ed25519. -/
  | edDSA
  deriving DecidableEq, Repr

namespace Algorithm

/-- Every algorithm. -/
def all : List Algorithm :=
  [hs256, hs384, hs512, es256, es384, rs256, rs384, rs512, ps256, ps384, ps512, edDSA]

/-- The name of an algorithm in a token header. -/
def name : Algorithm → String
  | hs256 => "HS256"
  | hs384 => "HS384"
  | hs512 => "HS512"
  | es256 => "ES256"
  | es384 => "ES384"
  | rs256 => "RS256"
  | rs384 => "RS384"
  | rs512 => "RS512"
  | ps256 => "PS256"
  | ps384 => "PS384"
  | ps512 => "PS512"
  | edDSA => "EdDSA"

/-- The algorithm of a name. -/
def ofName? (s : String) : Option Algorithm := all.find? (·.name == s)

/-- The family of keys that an algorithm uses. -/
def family : Algorithm → Family
  | hs256 | hs384 | hs512 => .hmac
  | es256 | es384 => .ec
  | rs256 | rs384 | rs512 | ps256 | ps384 | ps512 => .rsa
  | edDSA => .ed

/-- The algorithms that a token may be signed with. -/
def accepted : List Algorithm :=
  [rs256, rs384, rs512, ps256, ps384, ps512, es256, es384, edDSA]

/-- An algorithm is accepted exactly if its keys are not shared secrets. -/
theorem mem_accepted_iff (a : Algorithm) : a ∈ accepted ↔ a.family ≠ .hmac := by
  cases a <;> decide

end Algorithm

end BearerAuth
