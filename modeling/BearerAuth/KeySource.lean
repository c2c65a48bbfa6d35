import BearerAuth.KeyCache.Simulation
import BearerAuth.Network

/-!
# Sources of keys

Keys come from a fixed document, or from a place in the network where they may change.

* `KeySource.fetch` has the keys of a source;
* `KeySource.policy` and `KeySource.behaviour` are the source as a key cache sees it.
-/

namespace BearerAuth

open KeyCache (Answer Behaviour Policy)

/-- Where keys come from. -/
inductive KeySource where
  /-- A fixed document. -/
  | fixed (document : String)
  /-- A place in the network. -/
  | http (url : String)
  deriving DecidableEq, Repr

namespace KeySource

/-- The source in words. -/
def describe : KeySource → String
  | fixed _ => "static JWKS document"
  | http url => url

/-- The keys of the source may change. -/
def isPolling : KeySource → Bool
  | fixed _ => false
  | http _ => true

/-- The keys of an exchange. -/
def keysOf (e : Exchange) : Except Failure KeySet :=
  match e.document?.bind fun doc => (KeySet.valuesOf doc).toOption with
  | none => .error (.keySource "Failed to fetch JWKS")
  | some values => KeySet.ofValues values

/-- What is logged when the keys of an exchange are read. -/
def noticesOf (e : Exchange) : List Event := (e.document?.map KeySet.noticesOf).getD []

/-- Fetches the keys of a source. -/
def fetch (net : Network) : KeySource → Fetched KeySet
  | fixed document =>
    let doc := Json.Document.ofString document
    ⟨[], KeySet.noticesOf doc, KeySet.ofDocument doc⟩
  | http url =>
    let e := net.get url
    ⟨e.requests, .fetchingKeys url :: noticesOf e, keysOf e⟩

/-- A cache of the source. -/
def policy (source : KeySource) (options : RefreshOptions) (logsFailures : Bool) : Policy :=
  { source := source.describe, polling := source.isPolling, options, logsFailures }

/-- The source as it answers at present, which it does at once. -/
def behaviour (source : KeySource) (net : Network) : Behaviour :=
  let f := source.fetch net
  let outcome :=
    match f.result with
    | .ok keys => .keys keys
    | .error why => .failed why
  ⟨.zero, ⟨f.events, outcome⟩⟩

end KeySource

end BearerAuth
