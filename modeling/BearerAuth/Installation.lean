import BearerAuth.Authenticator
import BearerAuth.Discovery
import BearerAuth.KeySource
import BearerAuth.Settings

/-!
# Setting up an authenticator

From settings to a working authenticator: the provider is discovered, the first keys are loaded, and
the tokens of the provider can be verified.

* `Installation.ofSettings` does this; whatever goes wrong is a fault of the set-up.
-/

namespace BearerAuth

/-- An authenticator at work. -/
structure Installation where
  /-- The authenticator. -/
  authenticator : Authenticator
  /-- Where its keys come from. -/
  source : KeySource
  /-- Its keys. -/
  cache : KeyCache.Simulation
  deriving DecidableEq, Repr

namespace Installation

/-- The source of keys that settings ask for. -/
def sourceOf (s : Settings) (m : Metadata) : Except Failure KeySource :=
  if s.useHttpKeySource then .ok (.http m.jwksUri)
  else
    match s.jwksJson with
    | some document => .ok (.fixed document)
    | none =>
      .error (.setup "A static JWKS document is required when the HTTP key source is disabled")

/-- The authenticator that settings ask for. -/
def authenticatorOf (s : Settings) (m : Metadata) : Authenticator where
  verifier :=
    { issuer := if s.requireIssuer then some m.issuer else none
      leeway := s.leeway
      hint := m.hint }
  roles := s.roles
  audience := s.audience

/-- Loads the first keys.  The log goes on from `events`. -/
def load (net : Network) (now : KeyCache.Instant) (s : Settings) (logsFailures : Bool)
    (m : Metadata) (source : KeySource) (events : List Event) : Fetched Installation :=
  let f := source.fetch net
  match f.result with
  | .error why =>
    let fault := Failure.setup ("Could not load signing keys: " ++ why.message)
    ⟨f.requests, events ++ f.events, .error fault⟩
  | .ok keys =>
    let policy := source.policy s.refresh logsFailures
    let ready := Event.authenticatorReady m.issuer m.jwksUri s.useHttpKeySource
    let cache : KeyCache.Simulation :=
      { policy
        source := source.behaviour net
        state := (KeyCache.State.load policy now (events ++ f.events) keys).note [ready] }
    ⟨f.requests, cache.state.log, .ok ⟨authenticatorOf s m, source, cache.settle none⟩⟩

/-- Sets up an authenticator; with `logsFailures`, failures of later refreshes are logged. -/
def ofSettings (net : Network) (now : KeyCache.Instant) (logsFailures : Bool) (s : Settings) :
    Fetched Installation :=
  match s.validate with
  | .error f => ⟨[], [], .error f⟩
  | .ok _ =>
    let d := Discovery.discover net s.issuerUrl
    match d.result with
    | .error why =>
      ⟨d.requests, d.events, .error (.setup ("Could not set up OIDC discovery with issuer '" ++
        s.issuerUrl ++ "': " ++ why.message))⟩
    | .ok m =>
      match sourceOf s m with
      | .error f => ⟨d.requests, d.events, .error f⟩
      | .ok source =>
        let f := load net now s logsFailures m source d.events
        ⟨d.requests ++ f.requests, f.events, f.result⟩

end Installation

end BearerAuth
