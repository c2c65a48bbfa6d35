import BearerAuth.Json.Value
import BearerAuth.Json.Printer

/-!
# Claims of a token

What a provider states about the subject of a token, as far as it is used here.

* `Claims.reader` reads them from a record with the fields `iss`, `sub`, `aud`, `exp`, `iat` and
  `realm_access`, the last also known as `realmAccess`;
* `Claims.text` writes them.
-/

namespace BearerAuth

open Json

/-- The claims of a token. -/
structure Claims where
  /-- Who issued the token. -/
  iss : Option String
  /-- Whom the token is about. -/
  sub : Option String
  /-- Whom the token is meant for. -/
  aud : List String
  /-- When the token expires, in seconds since the epoch. -/
  exp : Int
  /-- When the token was issued. -/
  iat : Option Int
  /-- The roles granted to the subject in the whole realm. -/
  realmRoles : List String
  deriving DecidableEq, Repr

namespace Claims

/-- The fields of the record of roles. -/
def accessFields : List Field := [⟨"roles", [], Reader.check (Reader.list Reader.string)⟩]

/-- Reads the record of roles. -/
def accessReader : Reader (List String) := fun room node => do
  let given ← Record.members accessFields room node
  given.getD (room - 1) "roles" (Reader.list Reader.string) []

/-- The fields of claims. -/
def fields : List Field :=
  [⟨"iss", [], Reader.check (Reader.optional Reader.string)⟩,
   ⟨"sub", [], Reader.check (Reader.optional Reader.string)⟩,
   ⟨"aud", [], Reader.check Reader.oneOrMany⟩,
   ⟨"exp", [], Reader.check Reader.integer⟩,
   ⟨"iat", [], Reader.check (Reader.optional Reader.integer)⟩,
   ⟨"realm_access", ["realmAccess"], Reader.check accessReader⟩]

/-- The claims that the values of the fields state; only `exp` may not be left out. -/
def ofGiven (room : Nat) (given : Given) : Except Fault Claims := do
  let iss ← given.getD room "iss" (Reader.optional Reader.string) none
  let sub ← given.getD room "sub" (Reader.optional Reader.string) none
  let aud ← given.getD room "aud" Reader.oneOrMany []
  let exp ← given.get room "exp" Reader.integer
  let iat ← given.getD room "iat" (Reader.optional Reader.integer) none
  let realmRoles ← given.getD room "realm_access" accessReader []
  pure ⟨iss, sub, aud, exp, iat, realmRoles⟩

/-- Reads claims. -/
def reader : Reader Claims := fun room node => do
  let given ← Record.members fields room node
  ofGiven (room - 1) given

/-- Reads the claims of a document. -/
def ofDocument (doc : Json.Document) : Except Fault Claims := doc.read reader

/-- Reads the claims of a text. -/
def ofString (s : String) : Except Fault Claims := ofDocument (.ofString s)

open Printer in
/-- The claims as an object: members in the order of the fields, without the optional ones that are
not stated. -/
def chars (c : Claims) : List Char :=
  object <|
    (c.iss.map fun s => member "iss" (quoted s)).toList ++
    (c.sub.map fun s => member "sub" (quoted s)).toList ++
    [member "aud" (strings c.aud), member "exp" (integer c.exp)] ++
    (c.iat.map fun n => member "iat" (integer n)).toList ++
    [member "realm_access" (object [member "roles" (strings c.realmRoles)])]

/-- The claims as a text. -/
def text (c : Claims) : String := String.ofList c.chars

end Claims

end BearerAuth
