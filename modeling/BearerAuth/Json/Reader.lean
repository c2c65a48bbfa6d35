import BearerAuth.Json.Number

/-!
# Reading values of a known shape

A reader turns a node into a value of some type, or finds the first fault on the way.  `room` is the
number of lists and objects that may still be opened around one another; a document may open
`maxDepth` of them where values are built.

* `string`, `bool`, `integer`, `float`, `optional`, `list`, `stringMap` read plain values;
* `Record.members` opens a record, which is written as an object with named members or as a list
  with its fields in order.
-/

namespace BearerAuth.Json

open Number (Binary64)

/-- How deep a document may be nested where values are built. -/
def maxDepth : Nat := 127

/-- Turns a node into a value, with `room` further levels of nesting allowed. -/
abbrev Reader (α : Type) := (room : Nat) → Node → Except Fault α

namespace Reader

variable {α β : Type}

/-- The fault of a node that is not of the shape awaited.  A scalar is read before its shape is
judged; of a list or an object the opening is enough. -/
def wrongShape : Node → Fault
  | .null | .bool _ | .list _ _ | .object _ _ => .mismatch
  | .number n => if n.value?.isSome then .mismatch else .malformed
  | .cutNumber => .truncated
  | .string s =>
    match s.read with
    | .ok _ => .mismatch
    | .error f => f
  | .broken f => f

/-- Passes over a value. -/
def skip : Reader Unit := fun _ node =>
  match node.fault? with
  | some f => .error f
  | none => .ok ()

/-- A string. -/
def string : Reader String := fun _ node =>
  match node with
  | .string s => s.read
  | node => .error (wrongShape node)

/-- A truth value. -/
def bool : Reader Bool := fun _ node =>
  match node with
  | .bool b => .ok b
  | node => .error (wrongShape node)

/-- A whole number of 64 bits with sign. -/
def integer : Reader Int := fun _ node =>
  match node with
  | .number n =>
    match n.value? with
    | some (.natural n) => if n < Nat.pow 2 63 then .ok n else .error .mismatch
    | some (.negative n) => .ok (-n)
    | some (.real _ _) => .error .mismatch
    | none => .error .malformed
  | node => .error (wrongShape node)

/-- A number as a binary fraction with its sign. -/
def float : Reader (Bool × Binary64) := fun _ node =>
  match node with
  | .number n =>
    match n.value? with
    | some (.natural n) => (Binary64.ofNat? n).elim (.error .malformed) fun x => .ok (false, x)
    | some (.negative n) => (Binary64.ofNat? n).elim (.error .malformed) fun x => .ok (true, x)
    | some (.real negative x) => .ok (negative, x)
    | none => .error .malformed
  | node => .error (wrongShape node)

/-- A value or `null`. -/
def optional (read : Reader α) : Reader (Option α) := fun room node =>
  match node with
  | .null => .ok none
  | node => (read room node).map some

/-- Opens a list or an object. -/
def enter (room : Nat) (inside : Nat → Except Fault α) : Except Fault α :=
  match room with
  | 0 => .error .malformed
  | room + 1 => inside room

/-- Closes a list or an object. -/
def leave (close : Option Fault) (a : α) : Except Fault α :=
  match close with
  | some f => .error f
  | none => .ok a

/-- A list of values. -/
def list (read : Reader α) : Reader (List α) := fun room node =>
  match node with
  | .list items close => enter room fun room => do
    let values ← items.mapM (read room)
    leave close values
  | node => .error (wrongShape node)

/-- The members of an object that maps names to strings, in order. -/
def stringMap : Reader (List (String × String)) := fun room node =>
  match node with
  | .object members close => enter room fun room => do
    let values ← members.mapM fun (name, value) => do
      let name ← name.read
      let value ← string room value
      pure (name, value)
    leave close values
  | node => .error (wrongShape node)

/-- Reads a value and keeps nothing of it. -/
def check (read : Reader α) : Reader Unit := fun room node => (read room node).map fun _ => ()

end Reader

/-! ### Records -/

/-- A field of a record. -/
structure Field where
  /-- The name it is known by. -/
  name : String
  /-- Other names under which it may be written. -/
  aliases : List String := []
  /-- Whether its value is of the right shape. -/
  accepts : Reader Unit

/-- The values given for the fields of a record, by the name each field is known by. -/
abbrev Given := List (String × Node)

namespace Record

variable {α : Type}

/-- The field that a name stands for. -/
def field? (fields : List Field) (name : String) : Option Field :=
  fields.find? fun f => f.name == name || f.aliases.contains name

/-- The fields that the members of an object give, in order.  No field may be given twice; a member
that stands for no field is passed over. -/
def ofMembers (fields : List Field) (room : Nat) (given : Given) :
    List (RawString × Node) → Except Fault Given
  | [] => .ok given.reverse
  | (name, node) :: rest => do
    let name ← name.read
    match field? fields name with
    | some field =>
      if (given.lookup field.name).isSome then .error .mismatch
      else
        field.accepts room node
        ofMembers fields room ((field.name, node) :: given) rest
    | none =>
      Reader.skip room node
      ofMembers fields room given rest

/-- The fields that the items of a list give, in order.  An item beyond the last field makes the
list ill-formed. -/
def ofItems (room : Nat) (close : Option Fault) : List Field → List Node → Except Fault Given
  | [], [] => Reader.leave close []
  | [], _ :: _ => .error .malformed
  | _ :: _, [] => Reader.leave close []
  | field :: fields, node :: rest => do
    field.accepts room node
    let given ← ofItems room close fields rest
    pure ((field.name, node) :: given)

/-- Opens a record written as an object. -/
def objectMembers (fields : List Field) : Reader Given := fun room node =>
  match node with
  | .object members close => Reader.enter room fun room => do
    let given ← ofMembers fields room [] members
    Reader.leave close given
  | node => .error (Reader.wrongShape node)

/-- Opens a record written as an object or as a list. -/
def members (fields : List Field) : Reader Given := fun room node =>
  match node with
  | .list items close => Reader.enter room fun room => ofItems room close fields items
  | node => objectMembers fields room node

end Record

namespace Given

variable {α : Type}

/-- The value of a field that may be left out. -/
def getD (given : Given) (room : Nat) (name : String) (read : Reader α) (default : α) :
    Except Fault α :=
  match given.lookup name with
  | some node => read room node
  | none => .ok default

/-- The value of a field that may not be left out. -/
def get (given : Given) (room : Nat) (name : String) (read : Reader α) : Except Fault α :=
  match given.lookup name with
  | some node => read room node
  | none => .error .mismatch

end Given

/-- Reads a whole document. -/
def Document.read {α : Type} (doc : Document) (read : Reader α) : Except Fault α := do
  let a ← read maxDepth doc.root
  if doc.trailing then .error .malformed else .ok a

end BearerAuth.Json
