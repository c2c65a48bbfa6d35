import BearerAuth.Json.Value
import BearerAuth.Network

/-!
# Discovery of a provider

A provider publishes at a well-known place under its own URL where its endpoints are.

* `Metadata.reader` reads what is published there;
* `Discovery.url` is the well-known place of an issuer;
* `Discovery.discover` asks there.
-/

namespace BearerAuth

open Json

/-- What a provider publishes about itself, as far as it is used here. -/
structure Metadata where
  /-- The name of the issuer. -/
  issuer : String
  /-- Where its keys are. -/
  jwksUri : String
  /-- Where tokens can be had. -/
  tokenEndpoint : Option String
  /-- Where users log in. -/
  authorizationEndpoint : Option String
  deriving DecidableEq, Repr

namespace Metadata

/-- The fields of the record. -/
def fields : List Field :=
  [⟨"issuer", [], Reader.check Reader.string⟩,
   ⟨"jwks_uri", [], Reader.check Reader.string⟩,
   ⟨"token_endpoint", [], Reader.check (Reader.optional Reader.string)⟩,
   ⟨"authorization_endpoint", [], Reader.check (Reader.optional Reader.string)⟩]

/-- What the values of the fields state; the endpoints may be left out. -/
def ofGiven (room : Nat) (given : Given) : Except Fault Metadata := do
  let issuer ← given.get room "issuer" Reader.string
  let jwksUri ← given.get room "jwks_uri" Reader.string
  let tokenEndpoint ← given.getD room "token_endpoint" (Reader.optional Reader.string) none
  let authorizationEndpoint ←
    given.getD room "authorization_endpoint" (Reader.optional Reader.string) none
  pure { issuer, jwksUri, tokenEndpoint, authorizationEndpoint }

/-- Reads the record. -/
def reader : Reader Metadata := fun room node => do
  let given ← Record.members fields room node
  ofGiven (room - 1) given

/-- Where a token can be had: the endpoint, or else the issuer. -/
def hint (m : Metadata) : String := m.tokenEndpoint.getD m.issuer

end Metadata

namespace Discovery

/-- The well-known place. -/
def wellKnown : String := "/.well-known/openid-configuration"

/-- A text without the slashes at its end. -/
def trimSlashes (text : List Char) : List Char := (text.reverse.dropWhile (· == '/')).reverse

/-- The well-known place of an issuer, which may itself be given by that place. -/
def url (issuer : String) : String :=
  if wellKnown.toList.isSuffixOf issuer.toList then issuer
  else String.ofList (trimSlashes issuer.toList ++ wellKnown.toList)

/-- What has come from the well-known place.  The keys have to be somewhere. -/
def judge (place : String) (answer : Option Document) : Except Failure Metadata :=
  match answer.bind fun doc => (doc.read Metadata.reader).toOption with
  | none => .error (.discovery "Failed to fetch OpenID config")
  | some m =>
    if m.jwksUri.isEmpty then
      .error (.discovery ("Provider metadata at " ++ place ++ " has an empty jwks_uri"))
    else .ok m

/-- Asks an issuer where its endpoints are. -/
def discover (net : Network) (issuer : String) : Fetched Metadata :=
  let place := url issuer
  let e := net.get place
  ⟨e.requests, [.fetchingMetadata place], judge place e.document?⟩

end Discovery

end BearerAuth
