import BearerAuth.Json.Reader

/-!
# Values of any shape

A value that is built whole before its shape is judged.

* `Reader.value` builds one from a node;
* `Value.distinct` settles repeated names: of each name an object keeps the last member;
* `Value.variant?` reads a name out of a closed set: a string, or an object with that name as its
  only member and `null` as its value.
-/

namespace BearerAuth.Json

/-- A value of any shape; numbers are not looked into. -/
inductive Value where
  /-- `null` -/
  | null
  /-- `true` or `false` -/
  | bool (b : Bool)
  /-- A number. -/
  | number
  /-- A string. -/
  | string (s : String)
  /-- A list. -/
  | list (items : List Value)
  /-- An object; a name may be repeated. -/
  | object (members : List (String × Value))
  deriving Repr, Inhabited

namespace Reader

mutual

/-- Builds a value. -/
def value (room : Nat) : Node → Except Fault Value
  | .null => .ok .null
  | .bool b => .ok (.bool b)
  | .number n => if n.value?.isSome then .ok .number else .error .malformed
  | .cutNumber => .error .truncated
  | .string s => s.read.map .string
  | .list items close =>
    match room with
    | 0 => .error .malformed
    | room + 1 =>
      match values room items with
      | .error f => .error f
      | .ok items => leave close (.list items)
  | .object members close =>
    match room with
    | 0 => .error .malformed
    | room + 1 =>
      match namedValues room members with
      | .error f => .error f
      | .ok members => leave close (.object members)
  | .broken f => .error f

/-- Builds the items of a list. -/
def values (room : Nat) : List Node → Except Fault (List Value)
  | [] => .ok []
  | node :: rest =>
    match value room node with
    | .error f => .error f
    | .ok v => (values room rest).map (v :: ·)

/-- Builds the members of an object. -/
def namedValues (room : Nat) : List (RawString × Node) → Except Fault (List (String × Value))
  | [] => .ok []
  | (name, node) :: rest =>
    match name.read with
    | .error f => .error f
    | .ok name =>
      match value room node with
      | .error f => .error f
      | .ok v => (namedValues room rest).map ((name, v) :: ·)

end

end Reader

namespace Value

/-- The string that a value is. -/
def string? : Value → Option String
  | .string s => some s
  | _ => none

/-- The strings that the items of a list are. -/
def strings? : Value → Option (List String)
  | .list items => items.mapM string?
  | _ => none

/-- One string, or a list of strings. -/
def oneOrMany? : Value → Option (List String)
  | .string s => some [s]
  | v => v.strings?

/-- The members of an object, of each name the last one. -/
def lastMembers (members : List (String × Value)) : List (String × Value) :=
  members.foldr (fun m rest => if (rest.lookup m.1).isSome then rest else m :: rest) []

mutual

/-- The value without repeated names: in it and in every value inside, an object has of each name
the last member. -/
def distinct : Value → Value
  | .null => .null
  | .bool b => .bool b
  | .number => .number
  | .string s => .string s
  | .list items => .list (distinctItems items)
  | .object members => .object (lastMembers (distinctMembers members))

/-- The items of a list, each without repeated names. -/
def distinctItems : List Value → List Value
  | [] => []
  | v :: rest => v.distinct :: distinctItems rest

/-- Members whose values are without repeated names. -/
def distinctMembers : List (String × Value) → List (String × Value)
  | [] => []
  | (name, v) :: rest => (name, v.distinct) :: distinctMembers rest

end

/-- The name of a variant without contents. -/
def variant? : Value → Option String
  | .string s => some s
  | .object [(name, .null)] => some name
  | _ => none

end Value

namespace Reader

/-- One string, or a list of strings, built whole before its shape is judged. -/
def oneOrMany : Reader (List String) := fun room node =>
  match value room node with
  | .error f => .error f
  | .ok v =>
    match v.oneOrMany? with
    | some strings => .ok strings
    | none => .error .mismatch

end Reader

end BearerAuth.Json
