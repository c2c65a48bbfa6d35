import BearerAuth.Jwk

/-!
# Headers of tokens

The header of a token is an object that names the algorithm and the key of its signature.

* `Header.ofDocument?` reads a header; a member without a meaning of its own has to be a string.
-/

namespace BearerAuth

open Json

/-- The header of a token. -/
structure Header where
  /-- The kind of token. -/
  typ : Option String
  /-- The algorithm of the signature. -/
  alg : Algorithm
  /-- The kind of payload. -/
  cty : Option String
  /-- Where the key is published. -/
  jku : Option String
  /-- The key itself. -/
  jwk : Option Jwk
  /-- The name of the key. -/
  kid : Option String
  /-- Where the certificate of the key is. -/
  x5u : Option String
  /-- The chain of the certificate. -/
  x5c : Option (List String)
  /-- The SHA-1 digest of the certificate. -/
  x5t : Option String
  /-- The SHA-256 digest of the certificate. -/
  x5tS256 : Option String
  /-- Members that have to be understood. -/
  crit : Option (List String)
  /-- How the payload is encrypted. -/
  enc : Option String
  /-- How the payload is compressed. -/
  zip : Option String
  /-- Where the token is meant to be sent. -/
  url : Option String
  /-- A value that is used once. -/
  nonce : Option String
  /-- The other members. -/
  extras : List (String × String)
  deriving DecidableEq, Repr

namespace Header

/-- The names of the members with a meaning of their own. -/
def known : List String :=
  ["typ", "alg", "cty", "jku", "jwk", "kid", "x5u", "x5c", "x5t", "x5t#S256", "crit", "enc", "zip",
    "url", "nonce"]

/-- The one node of a name, if any; a name must not be repeated. -/
def once? (given : Given) (name : String) : Option (Option Node) :=
  match given.filter (·.1 == name) with
  | [] => some none
  | [(_, node)] => some (some node)
  | _ => none

/-- A member that may be left out or be `null`. -/
def optional? {α : Type} (given : Given) (room : Nat) (name : String) (read : Reader α) :
    Option (Option α) :=
  match once? given name with
  | none => none
  | some none => some none
  | some (some node) => (Reader.optional read room node).toOption

/-- The algorithm of a header; its name may also be the one member of an object, with `null`. -/
def algorithm? : Node → Option Algorithm
  | .string s => s.read.toOption.bind Algorithm.ofName?
  | .object [(name, .null)] none => name.read.toOption.bind Algorithm.ofName?
  | _ => none

/-- A published key in a header; no name in it may be repeated. -/
def jwkReader : Reader Jwk := fun room node =>
  match Reader.value room node with
  | .ok (.object members) => (Jwk.ofMembers? members).elim (.error .mismatch) .ok
  | .ok _ => .error .mismatch
  | .error f => .error f

/-- The members without a meaning of their own, of each name the last. -/
def extras? (given : Given) (room : Nat) : Option (List (String × String)) := do
  let read ← (given.filter fun m => !known.contains m.1).mapM fun (name, node) =>
    (Reader.string room node).toOption.map (name, ·)
  pure (read.foldr (fun m rest => if (rest.lookup m.1).isSome then rest else m :: rest) [])

/-- Reads the members of a header. -/
def ofGiven? (given : Given) (room : Nat) : Option Header := do
  let text (name : String) := optional? given room name Reader.string
  let texts (name : String) := optional? given room name (Reader.list Reader.string)
  let alg ← ((once? given "alg").bind id).bind algorithm?
  let typ ← text "typ"
  let cty ← text "cty"
  let jku ← text "jku"
  let jwk ← optional? given room "jwk" jwkReader
  let kid ← text "kid"
  let x5u ← text "x5u"
  let x5c ← texts "x5c"
  let x5t ← text "x5t"
  let x5tS256 ← text "x5t#S256"
  let crit ← texts "crit"
  let enc ← text "enc"
  let zip ← text "zip"
  let url ← text "url"
  let nonce ← text "nonce"
  let extras ← extras? given room
  pure { typ, alg, cty, jku, jwk, kid, x5u, x5c, x5t, x5tS256, crit, enc, zip, url, nonce, extras }

/-- Reads a header, which has to be an object. -/
def ofDocument? (doc : Document) : Option Header :=
  match doc.root with
  | .object members none =>
    if doc.trailing then none
    else do
      let given ← members.mapM fun (name, node) => name.read.toOption.map (·, node)
      ofGiven? given (maxDepth - 1)
  | _ => none

end Header

end BearerAuth
