import BearerAuth.Jwk
import BearerAuth.Text.Visible

/-!
# Key sets

The keys of a published document by their names.

* `KeySet.ofValues` keeps the values that can serve, of each name the last;
* `KeySet.ofDocument` reads a document, whose only field is the list of its values;
* `KeySet.get?`, `contains`, `size` and `keyIds` are views of a set.
-/

namespace BearerAuth

open Json

/-- Keys by name, in the order of the names. -/
structure KeySet where
  /-- Names and keys. -/
  entries : List (String × VerificationKey)
  deriving DecidableEq, Repr

namespace KeySet

/-- The set without keys. -/
def empty : KeySet := ⟨[]⟩

/-- Puts a key in its place among ordered entries; an earlier key of that name is replaced. -/
def insertEntry (kid : String) (key : VerificationKey) :
    List (String × VerificationKey) → List (String × VerificationKey)
  | [] => [(kid, key)]
  | e :: rest =>
    if kid < e.1 then (kid, key) :: e :: rest
    else if kid = e.1 then (kid, key) :: rest
    else e :: insertEntry kid key rest

/-- Adds a key; an earlier key of that name is replaced. -/
def insert (s : KeySet) (kid : String) (key : VerificationKey) : KeySet :=
  ⟨insertEntry kid key s.entries⟩

/-- The key of a name. -/
def get? (s : KeySet) (kid : String) : Option VerificationKey := s.entries.lookup kid

/-- The set has a key of that name. -/
def contains (s : KeySet) (kid : String) : Bool := s.entries.any (·.1 == kid)

/-- The number of keys. -/
def size (s : KeySet) : Nat := s.entries.length

/-- The set has no key. -/
def isEmpty (s : KeySet) : Bool := s.entries.isEmpty

/-- The names, in their order. -/
def keyIds (s : KeySet) : List String := s.entries.map (·.1)

/-- The set as it appears in logs. -/
def text (s : KeySet) : String :=
  "KeySet \x7b key_ids: [" ++ ", ".intercalate (s.keyIds.map Text.quoted) ++ "] \x7d"

/-- The set of some names and keys. -/
def ofList (keys : List (String × VerificationKey)) : KeySet :=
  keys.foldl (fun s k => s.insert k.1 k.2) empty

/-- The values that can serve, with their names, in order. -/
def usable (values : List Value) : List (String × VerificationKey) :=
  values.filterMap fun v => (Jwk.usableKey v).toOption

/-- Why values are passed over, in order. -/
def notices (values : List Value) : List Event :=
  values.filterMap fun v =>
    match Jwk.usableKey v with
    | .error e => some e
    | .ok _ => none

/-- The set of the values that can serve; there has to be one. -/
def ofValues (values : List Value) : Except Failure KeySet :=
  let s := ofList (usable values)
  if s.isEmpty then .error (.keySource "No usable signing keys found in JWKS") else .ok s

/-- The fields of a document of keys. -/
def fields : List Field := [⟨"keys", [], Reader.check (Reader.list Reader.value)⟩]

/-- Reads the values of a document of keys. -/
def valuesReader : Reader (List Value) := fun room node => do
  let given ← Record.members fields room node
  given.get (room - 1) "keys" (Reader.list Reader.value)

/-- The values of a document of keys. -/
def valuesOf (doc : Document) : Except Fault (List Value) := doc.read valuesReader

/-- Reads a document of keys. -/
def ofDocument (doc : Document) : Except Failure KeySet :=
  match valuesOf doc with
  | .error _ => .error (.keySource "Malformed JWKS document")
  | .ok values => ofValues values

/-- What is logged when a document of keys is read. -/
def noticesOf (doc : Document) : List Event :=
  match valuesOf doc with
  | .error _ => []
  | .ok values => notices values

/-- Reads a text of keys. -/
def ofString (s : String) : Except Failure KeySet := ofDocument (.ofString s)

end KeySet

end BearerAuth
