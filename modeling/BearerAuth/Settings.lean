import BearerAuth.Duration
import BearerAuth.Failure
import BearerAuth.Json.Value
import BearerAuth.Roles

/-!
# Settings

What an authenticator is set up with.

* `Settings.reader` reads settings from a record; spans of time are numbers of seconds;
* `Settings.forIssuer` and the functions after it build settings step by step;
* `Settings.validate` refuses settings that an authenticator cannot run with.
-/

namespace BearerAuth

open Json

/-- When keys are refreshed. -/
structure RefreshOptions where
  /-- Time between scheduled refreshes; zero for none. -/
  interval : Duration
  /-- Least time between two attempts. -/
  rateLimit : Duration
  /-- Longest duration of one fetch. -/
  timeout : Duration
  deriving DecidableEq, Repr, Inhabited

namespace RefreshOptions

/-- The options used where none are configured. -/
def standard : RefreshOptions := ⟨.ofSecs 3600, .ofSecs 300, .ofSecs 10⟩

/-- The options as they appear in logs. -/
def text (o : RefreshOptions) : String :=
  "RefreshOptions \x7b refresh_interval: " ++ o.interval.text ++ ", rate_limit: " ++
    o.rateLimit.text ++ ", refresh_timeout: " ++ o.timeout.text ++ " \x7d"

end RefreshOptions

/-- Settings of an authenticator. -/
structure Settings where
  /-- Keys are fetched from the provider, again and again, and not taken from `jwksJson`. -/
  useHttpKeySource : Bool
  /-- Where the provider is discovered. -/
  issuerUrl : String
  /-- The audience that every token has to name. -/
  audience : String
  /-- A fixed document of keys. -/
  jwksJson : Option String
  /-- When keys are refreshed. -/
  refresh : RefreshOptions
  /-- Tokens have to come from the discovered issuer. -/
  requireIssuer : Bool
  /-- How long a token is still accepted after it has expired. -/
  leeway : Duration
  /-- The roles of the application. -/
  roles : RoleTable
  /-- A client for HTTP has been supplied. -/
  hasHttpClient : Bool
  deriving DecidableEq, Repr

namespace Settings

/-! ### Reading -/

/-- Reads a span of time from a number of seconds, which may have a fraction but no sign. -/
def duration : Reader Duration := fun room node => do
  let (negative, x) ← Reader.float room node
  if negative && !x.isZero then .error .mismatch
  else (Duration.ofSeconds? x).elim (.error .mismatch) .ok

/-- The fields of settings. -/
def fields : List Field :=
  [⟨"use_http_key_source", [], Reader.check Reader.bool⟩,
   ⟨"issuer_url", [], Reader.check Reader.string⟩,
   ⟨"audience", [], Reader.check Reader.string⟩,
   ⟨"jwks_json", [], Reader.check (Reader.optional Reader.string)⟩,
   ⟨"refresh_interval_secs", [], Reader.check duration⟩,
   ⟨"rate_limit_interval_secs", [], Reader.check duration⟩,
   ⟨"refresh_timeout_secs", [], Reader.check duration⟩,
   ⟨"require_issuer", [], Reader.check Reader.bool⟩,
   ⟨"leeway_secs", [], Reader.check duration⟩,
   ⟨"role_mapping", [], Reader.check RoleTable.reader⟩]

/-- The settings that the values of the fields state; the issuer and the audience may not be left
out. -/
def ofGiven (room : Nat) (given : Given) : Except Fault Settings := do
  let useHttpKeySource ← given.getD room "use_http_key_source" Reader.bool false
  let issuerUrl ← given.get room "issuer_url" Reader.string
  let audience ← given.get room "audience" Reader.string
  let jwksJson ← given.getD room "jwks_json" (Reader.optional Reader.string) none
  let standard := RefreshOptions.standard
  let interval ← given.getD room "refresh_interval_secs" duration standard.interval
  let rateLimit ← given.getD room "rate_limit_interval_secs" duration standard.rateLimit
  let timeout ← given.getD room "refresh_timeout_secs" duration standard.timeout
  let requireIssuer ← given.getD room "require_issuer" Reader.bool false
  let leeway ← given.getD room "leeway_secs" duration .zero
  let roles ← given.getD room "role_mapping" RoleTable.reader .standard
  pure { useHttpKeySource, issuerUrl, audience, jwksJson, refresh := ⟨interval, rateLimit, timeout⟩,
         requireIssuer, leeway, roles, hasHttpClient := false }

/-- Reads settings. -/
def reader : Reader Settings := fun room node => do
  let given ← Record.members fields room node
  ofGiven (room - 1) given

/-- Reads the settings of a text. -/
def ofString (s : String) : Except Fault Settings := (Document.ofString s).read reader

/-! ### Building -/

/-- Settings that fetch keys from the issuer. -/
def forIssuer (issuerUrl audience : String) : Settings where
  useHttpKeySource := true
  issuerUrl := issuerUrl
  audience := audience
  jwksJson := none
  refresh := .standard
  requireIssuer := false
  leeway := .zero
  roles := .standard
  hasHttpClient := false

/-- Takes keys from a fixed document. -/
def withStaticJwks (s : Settings) (document : String) : Settings :=
  { s with useHttpKeySource := false, jwksJson := some document }

/-- Sets the time between scheduled refreshes. -/
def withRefreshInterval (s : Settings) (d : Duration) : Settings :=
  { s with refresh := { s.refresh with interval := d } }

/-- Sets the least time between two attempts. -/
def withRateLimit (s : Settings) (d : Duration) : Settings :=
  { s with refresh := { s.refresh with rateLimit := d } }

/-- Sets the longest duration of one fetch. -/
def withRefreshTimeout (s : Settings) (d : Duration) : Settings :=
  { s with refresh := { s.refresh with timeout := d } }

/-- Requires the discovered issuer. -/
def withRequiredIssuer (s : Settings) : Settings := { s with requireIssuer := true }

/-- Sets the leeway. -/
def withLeeway (s : Settings) (d : Duration) : Settings := { s with leeway := d }

/-- Sets the roles of the application. -/
def withRoles (s : Settings) (t : RoleTable) : Settings := { s with roles := t }

/-- Supplies a client for HTTP. -/
def withHttpClient (s : Settings) : Settings := { s with hasHttpClient := true }

/-! ### Validation -/

/-- A reason why settings are refused. -/
inductive Invalid where
  /-- No audience is set. -/
  | noAudience
  /-- The rate limit is zero. -/
  | noRateLimit
  /-- The timeout is zero. -/
  | noTimeout
  deriving DecidableEq, Repr

/-- The reason in words. -/
def Invalid.text : Invalid → String
  | .noAudience => "An expected audience must be configured"
  | .noRateLimit => "The JWKS refresh rate limit must be greater than zero"
  | .noTimeout => "The JWKS refresh timeout must be greater than zero"

/-- The first reason to refuse settings. -/
def invalid? (s : Settings) : Option Invalid :=
  if s.audience.isEmpty then some .noAudience
  else if s.refresh.rateLimit.isZero then some .noRateLimit
  else if s.refresh.timeout.isZero then some .noTimeout
  else none

/-- Refuses settings that an authenticator cannot run with. -/
def validate (s : Settings) : Except Failure Unit :=
  match s.invalid? with
  | some why => .error (.setup why.text)
  | none => .ok ()

end Settings

end BearerAuth
