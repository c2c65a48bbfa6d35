import BearerAuth.Claims
import BearerAuth.Credential
import BearerAuth.Duration
import BearerAuth.Event
import BearerAuth.Signature
import BearerAuth.SignedToken
import BearerAuth.TimeClaims

/-!
# Verification of tokens

A token is verified in two stages with a key lookup between them.

* `Verifier.request` takes a token apart and decides whether its key is worth a lookup;
* `Verifier.conclude` judges it with what the lookup has found;
* `Verifier.verdict` is the judgement of a token whose key is at hand.
-/

namespace BearerAuth

open Json

/-- A result, with the events on the way to it. -/
structure Logged (α : Type) where
  /-- The result. -/
  result : Except Failure α
  /-- The events, in order. -/
  events : List Event

namespace Logged

variable {α β : Type}

/-- A success without events. -/
def ok (a : α) : Logged α := ⟨.ok a, []⟩

/-- A failure after some events. -/
def fail (f : Failure) (events : List Event) : Logged α := ⟨.error f, events⟩

/-- A rejection, which is logged. -/
def reject (why : Rejection) : Logged α := .fail (.rejected why) [.rejected why]

/-- Goes on with the result. -/
def andThen (a : Logged α) (next : α → Logged β) : Logged β :=
  match a.result with
  | .ok v => ⟨(next v).result, a.events ++ (next v).events⟩
  | .error f => ⟨.error f, a.events⟩

end Logged

/-- A token that passed verification. -/
structure ParsedToken where
  /-- The token as it came. -/
  raw : String
  /-- Its header. -/
  header : Header
  /-- Its claims. -/
  claims : Claims
  /-- It passed every check. -/
  valid : Bool
  deriving DecidableEq, Repr

/-- A token whose key is looked up. -/
structure Request where
  /-- The token. -/
  token : SignedToken
  /-- The name of its key. -/
  kid : String
  deriving DecidableEq, Repr

/-- What tokens are verified against, besides keys. -/
structure Verifier where
  /-- The issuer that tokens have to come from, if any. -/
  issuer : Option String := none
  /-- How long a token is still accepted after it has expired; whole seconds count. -/
  leeway : Duration := .zero
  /-- Where a token can be had. -/
  hint : String := ""
  deriving DecidableEq, Repr

namespace Verifier

/-! ### Before the lookup -/

/-- Takes a token apart; it has to name its key, and an accepted algorithm. -/
def request (token : String) : Logged Request :=
  match SignedToken.ofString token with
  | .error f => .fail (.malformedToken f) []
  | .ok t =>
    match t.header.kid with
    | none => .fail (.malformedToken .missingKeyId) []
    | some kid =>
      if Algorithm.accepted.contains t.header.alg then .ok ⟨t, kid⟩
      else .fail (.rejected .algorithm) [.algorithmRefused t.header.alg]

/-! ### After the lookup -/

/-- The claims of a payload, once the signature has been found to fit. -/
def readClaims (t : SignedToken) (now : Int) (leeway : Nat) (audience : String) :
    Except (TokenFault ⊕ Finding) Claims :=
  match t.payload? with
  | none => .error (.inl .base64)
  | some doc =>
    let judge (f : Fault) : TokenFault ⊕ Finding :=
      match f with
      | .mismatch => .inr .other
      | _ => .inl .json
    match Claims.ofDocument doc with
    | .error f => .error (judge f)
    | .ok claims =>
      match TimeClaims.ofNode doc.root with
      | .error f => .error (judge f)
      | .ok c =>
        match c.finding? now leeway audience with
        | some finding => .error (.inr finding)
        | none => .ok claims

/-- Checks the signature under a key, and only then reads the payload. -/
def open? (t : SignedToken) (key : KeyMaterial) (now : Int) (leeway : Nat) (audience : String) :
    Except (TokenFault ⊕ Finding) Claims :=
  match Signature.checker? t.header.alg key with
  | none => .error (.inr .other)
  | some check =>
    match t.signature? with
    | none => .error (.inl .base64)
    | some signature =>
      if check t.message signature then readClaims t now leeway audience
      else .error (.inr .invalidSignature)

variable (v : Verifier)

/-- Judges a token with its key at hand: signature, audience, expiry and issuer. -/
def verdict (now : Int) (audience : String) (t : SignedToken) (key : KeyMaterial) :
    Logged ParsedToken :=
  if audience.isEmpty then .reject .audience
  else
    match open? t key now v.leeway.secs audience with
    | .error (.inl f) => .fail (.malformedToken f) [.payloadUnreadable]
    | .error (.inr finding) => .reject finding.rejection
    | .ok claims =>
      if v.issuer.isSome && claims.iss != v.issuer then .reject .issuer
      else if claims.exp + v.leeway.secs ≤ now then .reject .expired
      else .ok { raw := t.raw, header := t.header, claims, valid := true }

/-- Judges a token with what the lookup of its key has found. -/
def conclude (now : Int) (audience : String) (r : Request)
    (found : Except Failure VerificationKey) : Logged ParsedToken :=
  match found with
  | .error (.unknownKey kid) => .fail (.rejected .unknownKey) [.keyUnknown kid]
  | .error f => .fail f []
  | .ok key =>
    let alg := r.token.header.alg
    if key.permits alg then v.verdict now audience r.token key.material
    else .fail (.rejected .algorithm) [.algorithmDiffers r.kid alg key.algorithm]

/-- The request that an `Authorization` value makes. -/
def requestOf (authorization : String) : Logged Request :=
  match Credential.bearerToken authorization v.hint with
  | .error f => .fail f []
  | .ok token => request token

end Verifier

end BearerAuth
