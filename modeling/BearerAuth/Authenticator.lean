import BearerAuth.KeyCache.Simulation
import BearerAuth.RequestHead
import BearerAuth.Roles
import BearerAuth.Verifier

/-!
# Authenticators

An authenticator takes the token out of a request, verifies it, and says who the user is.

* `Authenticator.request` and `Authenticator.conclude` are what it does before and after the lookup
  of the key;
* `Authenticator.authenticate` does it all against a key cache, `Verifier.verify` and
  `Verifier.verifyToken` the same without the user.
-/

namespace BearerAuth

open KeyCache (Simulation)

/-- Who made a request. -/
structure User where
  /-- The roles of the application that the user has. -/
  roles : List String
  /-- The subject of the token. -/
  subject : Option String
  deriving DecidableEq, Repr

/-- What is needed to authenticate requests, besides keys. -/
structure Authenticator where
  /-- What tokens are verified against. -/
  verifier : Verifier
  /-- The roles of the application. -/
  roles : RoleTable
  /-- The audience that every token has to name. -/
  audience : String
  deriving DecidableEq, Repr

/-! ### Around the lookup -/

/-- Answers a request with the help of a key cache, whose log it shares. -/
def Logged.against {α : Type} (q : Logged Request) (m : Simulation)
    (conclude : Request → Except Failure VerificationKey → Logged α) :
    Simulation × Except Failure α :=
  let m := m.act (.note q.events)
  match q.result with
  | .error f => (m, .error f)
  | .ok r =>
    let (m, found) := m.lookup r.kid
    let a := conclude r found
    (m.act (.note a.events), a.result)

namespace Verifier

variable (v : Verifier) (now : Int) (audience : String) (m : Simulation)

/-- Verifies a token. -/
def verifyToken (token : String) : Simulation × Except Failure ParsedToken :=
  (request token).against m (v.conclude now audience)

/-- Verifies the token of an `Authorization` value. -/
def verify (authorization : String) : Simulation × Except Failure ParsedToken :=
  (v.requestOf authorization).against m (v.conclude now audience)

end Verifier

namespace Authenticator

variable (a : Authenticator)

/-- The user that a token speaks of. -/
def userOf (t : ParsedToken) : User := ⟨a.roles.translate t.claims.realmRoles, t.claims.sub⟩

/-- The request that a head makes. -/
def request (head : RequestHead) : Logged Request :=
  match head.authorization? with
  | .error fault => .fail (.credential fault a.verifier.hint) []
  | .ok authorization => a.verifier.requestOf authorization

/-- Judges a request with what the lookup of its key has found. -/
def conclude (now : Int) (r : Request) (found : Except Failure VerificationKey) : Logged User :=
  (a.verifier.conclude now a.audience r found).andThen fun t => .ok (a.userOf t)

/-- Authenticates a request. -/
def authenticate (now : Int) (m : Simulation) (head : RequestHead) :
    Simulation × Except Failure User :=
  (a.request head).against m (a.conclude now)

/-- Authenticates an `Authorization` value. -/
def authenticateValue (now : Int) (m : Simulation) (authorization : String) :
    Simulation × Except Failure User :=
  (a.verifier.requestOf authorization).against m (a.conclude now)

end Authenticator

end BearerAuth
