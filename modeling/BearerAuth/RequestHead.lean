import BearerAuth.Failure

/-!
# Heads of requests

The head of a request is a list of lines, each with a name and octets.

* `RequestHead.authorization?` is the text of the first line named `Authorization`; that there is
  none is the same as that it is empty.
-/

namespace BearerAuth

/-- The lines of a head, in order. -/
abbrev RequestHead := List (String × List UInt8)

namespace RequestHead

/-- The name of the line with the credential, in small letters. -/
def authorizationName : String := "authorization"

/-- The line with the credential; the case of its name does not matter. -/
def isAuthorization (name : String) : Bool :=
  name.toList.map Char.toLower == authorizationName.toList

/-- An octet that may occur in a value that is text: printable or a tab. -/
def isText (b : UInt8) : Bool := (0x20 ≤ b && b ≤ 0x7e) || b == 0x09

/-- The text of a value. -/
def text? (value : List UInt8) : Option String :=
  if value.all isText then some (String.ofList (value.map fun b => Char.ofNat b.toNat)) else none

/-- The text of the first line with a credential. -/
def authorization? (head : RequestHead) : Except CredentialFault String :=
  match head.find? (isAuthorization ·.1) with
  | none => .ok ""
  | some (_, value) => (text? value).elim (.error .notText) .ok

end RequestHead

end BearerAuth
