/-!
# Failures

What can go wrong, from the set-up of an authenticator to the judgement of a single token.

* `Failure.message` is the text of a failure; that of a rejected token does not tell why it was
  rejected, which only `Failure.reason?` does;
* `Failure.isAuthentication` tells failures of a single request from faults of the service.
-/

namespace BearerAuth

/-- Why a token was rejected. -/
inductive Rejection where
  /-- The signature does not fit. -/
  | signature
  /-- The token has expired. -/
  | expired
  /-- The token is meant for others. -/
  | audience
  /-- The token comes from another issuer. -/
  | issuer
  /-- The algorithm is not accepted, or not the one that the key was published for. -/
  | algorithm
  /-- No key of that name is known. -/
  | unknownKey
  /-- Anything else. -/
  | claims
  deriving DecidableEq, Repr

/-- The code of a rejection, for logs. -/
def Rejection.code : Rejection → String
  | .signature => "signature"
  | .expired => "expired"
  | .audience => "audience"
  | .issuer => "issuer"
  | .algorithm => "algorithm"
  | .unknownKey => "unknown_key"
  | .claims => "claims"

/-- A request without a usable credential. -/
inductive CredentialFault where
  /-- There is no credential. -/
  | missing
  /-- The credential is not a bearer token. -/
  | notBearer
  /-- The credential is not text. -/
  | notText
  /-- Any other fault, in words. -/
  | other (text : String)
  deriving DecidableEq, Repr

/-- The fault in words. -/
def CredentialFault.text : CredentialFault → String
  | .missing => "Authorization header missing"
  | .notBearer => "Expected a bearer token"
  | .notText => "Authorization header is not valid text"
  | .other text => text

/-- Why a token cannot be taken apart. -/
inductive TokenFault where
  /-- It does not consist of three segments. -/
  | segments
  /-- A segment is not base64. -/
  | base64
  /-- A segment is not the JSON document it should be. -/
  | json
  /-- Its header names no key. -/
  | missingKeyId
  /-- Any other fault, in words. -/
  | other (text : String)
  deriving DecidableEq, Repr

/-- The fault in words. -/
def TokenFault.text : TokenFault → String
  | .segments => "InvalidToken"
  | .base64 => "Base64 error"
  | .json => "JSON error"
  | .missingKeyId => "missing 'kid' in token header"
  | .other text => text

/-- What can go wrong. -/
inductive Failure where
  /-- The authenticator cannot be set up. -/
  | setup (text : String)
  /-- The request has no usable credential; `hint` says where to get one. -/
  | credential (fault : CredentialFault) (hint : String)
  /-- The token cannot be taken apart. -/
  | malformedToken (fault : TokenFault)
  /-- No key of that name is known. -/
  | unknownKey (kid : String)
  /-- The token was rejected. -/
  | rejected (why : Rejection)
  /-- No keys could be had. -/
  | keySource (text : String)
  /-- The provider could not be discovered. -/
  | discovery (text : String)
  deriving DecidableEq, Repr

namespace Failure

/-- The text of a failure. -/
def message : Failure → String
  | setup text => "Authenticator setup failed: " ++ text
  | credential fault hint =>
    fault.text ++ ". Please obtain an access token here: " ++ hint
  | malformedToken fault => "The provided token is not a well-formed JWT: " ++ fault.text
  | unknownKey kid => "No signing key with kid '" ++ kid ++ "' is known"
  | rejected _ => "Token verification failed"
  | keySource text => "Key source error: " ++ text
  | discovery text => "OIDC discovery error: " ++ text

/-- The failure belongs to a single request. -/
def isAuthentication : Failure → Bool
  | credential _ _ | malformedToken _ | unknownKey _ | rejected _ => true
  | setup _ | keySource _ | discovery _ => false

/-- Why the token was rejected, if it was. -/
def reason? : Failure → Option Rejection
  | rejected why => some why
  | _ => none

end Failure

/-! ### Findings of a signature check -/

/-- What the check of a signed token can find, before it is judged as a rejection. -/
inductive Finding where
  /-- The signature does not fit. -/
  | invalidSignature
  /-- The token has expired. -/
  | expiredSignature
  /-- The audience does not fit. -/
  | invalidAudience
  /-- The issuer does not fit. -/
  | invalidIssuer
  /-- The algorithm does not fit. -/
  | invalidAlgorithm
  /-- No algorithm is allowed. -/
  | missingAlgorithm
  /-- A claim that has to be there is missing. -/
  | missingClaim (name : String)
  /-- Anything else. -/
  | other
  deriving DecidableEq, Repr

/-- The rejection that a finding amounts to. -/
def Finding.rejection : Finding → Rejection
  | .invalidSignature => .signature
  | .expiredSignature => .expired
  | .invalidAudience => .audience
  | .invalidIssuer => .issuer
  | .invalidAlgorithm | .missingAlgorithm => .algorithm
  | .missingClaim name =>
    if name = "exp" then .expired else if name = "aud" then .audience else .claims
  | .other => .claims

end BearerAuth
