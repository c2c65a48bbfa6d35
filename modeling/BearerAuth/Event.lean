import BearerAuth.Algorithm
import BearerAuth.Failure

/-!
# Events

What is written to the log, by cause.

* `Event.line` is the line of an event: its level, its message and its fields in the order of their
  names.
-/

namespace BearerAuth

/-- How much an event matters. -/
inductive Level where
  /-- For the curious. -/
  | debug
  /-- For the operator. -/
  | info
  /-- Something is amiss. -/
  | warn
  deriving DecidableEq, Repr

/-- The name of a level. -/
def Level.name : Level → String
  | .debug => "DEBUG"
  | .info => "INFO"
  | .warn => "WARN"

/-- What made a refresh start. -/
inductive Trigger where
  /-- A lookup of a key that is not known. -/
  | unknownKey
  /-- The schedule. -/
  | scheduled
  deriving DecidableEq, Repr

/-- The name of a trigger. -/
def Trigger.name : Trigger → String
  | .unknownKey => "unknown_kid"
  | .scheduled => "scheduled"

/-- Something worth a line in the log. -/
inductive Event where
  /-- A published key cannot be read. -/
  | keyUnreadable
  /-- A published key has no name. -/
  | keyUnnamed
  /-- A published key is meant for encryption. -/
  | keyForEncryption (kid : String)
  /-- A published key is meant for an algorithm that signs nothing. -/
  | keyNotForSignatures (kid algorithm : String)
  /-- A published key does not hold what its kind of key needs. -/
  | keyUnusable (kid : String)
  /-- The first keys are loaded. -/
  | cacheLoaded (source : String) (count : Nat) (polling : Bool)
  /-- A refresh has replaced the keys. -/
  | cacheRefreshed (source : String) (count : Nat) (trigger : Trigger)
  /-- A tick fell within the rate limit. -/
  | tickSkipped
  /-- A scheduled refresh failed. -/
  | tickFailed
  /-- The schedule ends. -/
  | scheduleStopped
  /-- The schedule had broken down. -/
  | scheduleBroken
  /-- A key is not among the fixed ones. -/
  | missFixed (kid : String)
  /-- A key is not known, and the rate limit forbids a refresh. -/
  | missLimited (kid : String)
  /-- A key is not known, and a refresh starts. -/
  | missRefreshing (kid : String)
  /-- The refresh for an unknown key failed. -/
  | missFailed (kid : String)
  /-- The refresh for an unknown key broke down. -/
  | missBroken (kid : String)
  /-- A refresh failed, and there is nobody else to tell. -/
  | refreshFailed
  /-- Keys are fetched. -/
  | fetchingKeys (url : String)
  /-- A provider is discovered. -/
  | fetchingMetadata (url : String)
  /-- An authenticator is set up. -/
  | authenticatorReady (issuer jwksUri : String) (polling : Bool)
  /-- A token names an algorithm that is not accepted. -/
  | algorithmRefused (algorithm : Algorithm)
  /-- A token names a key that is not known. -/
  | keyUnknown (kid : String)
  /-- A token names an algorithm other than the one its key was published for. -/
  | algorithmDiffers (kid : String) (algorithm : Algorithm) (published : Option Algorithm)
  /-- The payload of a token cannot be read. -/
  | payloadUnreadable
  /-- A token is rejected. -/
  | rejected (why : Rejection)
  deriving DecidableEq, Repr

namespace Event

/-- A truth value as it appears in a line. -/
def flag (b : Bool) : String := if b then "true" else "false"

/-- A published algorithm as it appears in a line. -/
def optional : Option Algorithm → String
  | some a => "Some(" ++ a.name ++ ")"
  | none => "None"

/-- The level of an event. -/
def level : Event → Level
  | keyUnreadable | keyUnusable _ | missBroken _ | scheduleBroken | refreshFailed => .warn
  | cacheLoaded _ _ _ | cacheRefreshed _ _ _ | authenticatorReady _ _ _ => .info
  | _ => .debug

/-- The message of an event. -/
def message : Event → String
  | keyUnreadable => "Failed to parse JWK, skipping"
  | keyUnnamed => "Skipping JWK without kid"
  | keyForEncryption _ => "Skipping encryption JWK"
  | keyNotForSignatures _ _ => "Skipping JWK not meant for signatures"
  | keyUnusable _ => "Failed to build decoding key from JWK, skipping"
  | cacheLoaded _ _ _ => "JWKS cache initialized"
  | cacheRefreshed _ _ _ => "JWKS cache refreshed"
  | tickSkipped => "Skipping scheduled JWKS refresh, last attempt is within the rate limit"
  | tickFailed => "Scheduled JWKS refresh failed, keeping current keys"
  | scheduleStopped => "Scheduled JWKS refresh shutting down"
  | scheduleBroken => "Scheduled JWKS refresh task ended abnormally"
  | missFixed _ => "Key not found in static key set"
  | missLimited _ => "Key not found, JWKS refresh is rate limited"
  | missRefreshing _ => "Key not found in cache, refreshing JWKS"
  | missFailed _ => "JWKS refresh for unknown kid failed"
  | missBroken _ => "JWKS refresh task failed"
  | refreshFailed => "JWKS refresh failed, keeping current keys"
  | fetchingKeys _ => "Fetching JWKS"
  | fetchingMetadata _ => "Fetching OIDC discovery document"
  | authenticatorReady _ _ _ => "Authenticator ready"
  | algorithmRefused _ => "Rejecting token signed with an unaccepted algorithm"
  | keyUnknown _ => "Rejecting token signed with an unknown key"
  | algorithmDiffers _ _ _ => "Rejecting token whose algorithm differs from the key's"
  | payloadUnreadable => "Rejecting token with an undecodable payload"
  | rejected _ => "Token verification failed"

/-- The fields of an event, in the order of their names. -/
def fields : Event → List (String × String)
  | keyForEncryption kid | keyUnusable kid | missFixed kid | missLimited kid | missRefreshing kid
  | missFailed kid | missBroken kid | keyUnknown kid => [("kid", kid)]
  | keyNotForSignatures kid algorithm => [("alg", algorithm), ("kid", kid)]
  | cacheLoaded source count polling =>
    [("key_count", toString count), ("polling", flag polling), ("source", source)]
  | cacheRefreshed source count trigger =>
    [("key_count", toString count), ("source", source), ("trigger", trigger.name)]
  | fetchingKeys url | fetchingMetadata url => [("url", url)]
  | authenticatorReady issuer jwksUri polling =>
    [("issuer", issuer), ("jwks_uri", jwksUri), ("polling", flag polling)]
  | algorithmRefused a => [("alg", a.name)]
  | algorithmDiffers kid a published =>
    [("alg", a.name), ("kid", kid), ("published", optional published)]
  | rejected why => [("reason", why.code)]
  | keyUnreadable | keyUnnamed | tickSkipped | tickFailed | scheduleStopped | scheduleBroken
  | refreshFailed | payloadUnreadable => []

/-- The line of an event. -/
def line (e : Event) : String :=
  e.level.name ++ " " ++ e.message ++
    String.join (e.fields.map fun (name, value) => " " ++ name ++ "=" ++ value)

end Event

end BearerAuth
