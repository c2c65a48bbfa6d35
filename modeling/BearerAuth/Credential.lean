import BearerAuth.Failure
import BearerAuth.Text.Blank

/-!
# Bearer credentials

The value of an `Authorization` header has to consist of two words, `Bearer` and the token.

* `Credential.token?` takes the token out of it.
-/

namespace BearerAuth.Credential

/-- The word in front of the token. -/
def scheme : String := "Bearer"

/-- The token of an `Authorization` value, or what is wrong with the value. -/
def token? (authorization : String) : Except CredentialFault String :=
  if Text.isAllBlank authorization.toList then .error .missing
  else
    match Text.words authorization.toList with
    | [first, token] =>
      if first = scheme.toList then .ok (String.ofList token) else .error .notBearer
    | _ => .error .notBearer

/-- The token of an `Authorization` value; a failure carries `hint`. -/
def bearerToken (authorization hint : String) : Except Failure String :=
  (token? authorization).mapError (.credential · hint)

end BearerAuth.Credential
