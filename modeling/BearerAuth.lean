import BearerAuth.Algorithm
import BearerAuth.Authenticator
import BearerAuth.Claims
import BearerAuth.Credential
import BearerAuth.Crypto.Ecdsa
import BearerAuth.Crypto.Ed25519
import BearerAuth.Crypto.Modular
import BearerAuth.Crypto.Rsa
import BearerAuth.Crypto.Sha2
import BearerAuth.Discovery
import BearerAuth.Duration
import BearerAuth.Event
import BearerAuth.Failure
import BearerAuth.Header
import BearerAuth.Installation
import BearerAuth.Json.Node
import BearerAuth.Json.Number
import BearerAuth.Json.Printer
import BearerAuth.Json.Reader
import BearerAuth.Json.Token
import BearerAuth.Json.Value
import BearerAuth.Jwk
import BearerAuth.KeyCache.Simulation
import BearerAuth.KeyCache.State
import BearerAuth.KeyCache.Step
import BearerAuth.KeySet
import BearerAuth.KeySource
import BearerAuth.Network
import BearerAuth.Number.Binary64
import BearerAuth.Number.Rounding
import BearerAuth.Proofs.KeyCache.Effects
import BearerAuth.Proofs.KeyCache.Core
import BearerAuth.Proofs.KeyCache.History
import BearerAuth.RequestHead
import BearerAuth.Roles
import BearerAuth.Settings
import BearerAuth.Signature
import BearerAuth.SignedToken
import BearerAuth.Text.Base64Url
import BearerAuth.Text.Blank
import BearerAuth.Text.Utf8
import BearerAuth.Text.Visible
import BearerAuth.TimeClaims
import BearerAuth.Verifier
import BearerAuth.Proofs.KeyCache.Exclusion
import BearerAuth.Proofs.KeyCache.RateLimit
import BearerAuth.Proofs.KeyCache.KeysInUse
import BearerAuth.Proofs.KeyCache.Lookups
import BearerAuth.Proofs.KeyCache.Answers
import BearerAuth.Proofs.Json.Reading
import BearerAuth.Proofs.Token.Readings
import BearerAuth.Proofs.Token.Acceptance
import BearerAuth.Proofs.KeyCache.Simulated
import BearerAuth.Proofs.KeyCache.Accounts
import BearerAuth.Proofs.Token.Unsigned
import BearerAuth.Proofs.KeyCache.Crashes
import BearerAuth.Proofs.KeyCache.Guard
import BearerAuth.Proofs.KeyCache.Lives
import BearerAuth.Proofs.KeyCache.Waiting
import BearerAuth.Proofs.KeyCache.Misses
import BearerAuth.Proofs.Request.Approaches
import BearerAuth.Proofs.Request.Fetches
import BearerAuth.Proofs.KeyCache.Resolutions
import BearerAuth.Proofs.Request.Failures
import BearerAuth.Proofs.KeyCache.Detached
import BearerAuth.Proofs.KeySet.Construction
import BearerAuth.Proofs.KeyCache.Usage
import BearerAuth.Proofs.KeyCache.Schedules
import BearerAuth.Proofs.KeyCache.Ticks
import BearerAuth.Proofs.KeyCache.Brakes
import BearerAuth.Proofs.KeyCache.Watches
import BearerAuth.Proofs.KeyCache.Stops
import BearerAuth.Proofs.KeyCache.Closings
import BearerAuth.Proofs.Token.Verdict
import BearerAuth.Proofs.Text.Utf8
import BearerAuth.Proofs.KeySet.Sources
import BearerAuth.Proofs.Installation.Setup
import BearerAuth.Proofs.Json.Lexemes
import BearerAuth.Proofs.Json.Written
import BearerAuth.Proofs.Token.RoundTrip
import BearerAuth.Proofs.Text.Words
import BearerAuth.Proofs.Request.Credentials
import BearerAuth.Proofs.Request.Heads
import BearerAuth.Proofs.Json.Spelling
import BearerAuth.Proofs.Json.Source
import BearerAuth.Proofs.Token.Spellings
import BearerAuth.Proofs.KeyCache.Rest
import BearerAuth.Proofs.KeyCache.Instants
import BearerAuth.Proofs.KeyCache.Alone
import BearerAuth.Proofs.KeyCache.SimulatedOrder
import BearerAuth.Proofs.KeyCache.Fixed
import BearerAuth.Proofs.KeySet.Refusals
import BearerAuth.Proofs.Installation.RoleTables
import BearerAuth.Proofs.Number.Nearest
import BearerAuth.Proofs.Installation.Durations
import BearerAuth.Proofs.Installation.WellKnown
import BearerAuth.Proofs.Text.OctetOrder
import BearerAuth.Proofs.KeySet.Views
