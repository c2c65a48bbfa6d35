import BearerAuth.Json.Token

/-!
# Documents as trees

Tokens are assembled into a tree.  Assembly never fails either: where the tokens stop following the
grammar, the tree is broken off, by a `Node.broken` leaf where a value should stand or by the fault
that closes a list or an object too early.  Only the last place of a document can be broken, so a
reader that walks the tree in order meets the faults of the document in reading order.

* `assemble` builds the tree of some tokens;
* `Document.ofText` reads a text.
-/

namespace BearerAuth.Json

/-- A value as written. -/
inductive Node where
  /-- `null` -/
  | null
  /-- `true` or `false` -/
  | bool (b : Bool)
  /-- A number. -/
  | number (n : Numeral)
  /-- A number that lacks a digit where the text ends. -/
  | cutNumber
  /-- A string. -/
  | string (s : RawString)
  /-- A list, with the fault that ends it early. -/
  | list (items : List Node) (close : Option Fault)
  /-- An object, with the fault that ends it early; a name may be repeated. -/
  | object (members : List (RawString × Node)) (close : Option Fault)
  /-- No value stands here. -/
  | broken (f : Fault)
  deriving Repr, Inhabited

/-- A text read as a value. -/
structure Document where
  /-- The value. -/
  root : Node
  /-- Something other than blanks follows the value. -/
  trailing : Bool
  deriving Repr, Inhabited

/-! ### Assembly -/

/-- A list or an object under way, with what it holds so far in reverse. -/
inductive Frame where
  /-- A list. -/
  | list (items : List Node)
  /-- An object in which the value of `name` is under way. -/
  | member (members : List (RawString × Node)) (name : RawString)
  deriving Repr

/-- What may come next. -/
inductive Awaited where
  /-- A value. -/
  | value
  /-- A value, or the end of a list just opened. -/
  | itemOrEnd
  /-- A name, or the end of an object just opened. -/
  | nameOrEnd
  /-- A name. -/
  | name (members : List (RawString × Node))
  /-- The colon after a name. -/
  | colon (members : List (RawString × Node)) (name : RawString)
  /-- A comma or the end of a list. -/
  | listNext (items : List Node)
  /-- A comma or the end of an object. -/
  | objectNext (members : List (RawString × Node))
  deriving Repr

/-- The tree when `node` is its last complete part: every open list and object is broken off. -/
def abandon (f : Fault) (node : Node) : List Frame → Node
  | [] => node
  | .list items :: frames => abandon f (.list (node :: items).reverse (some f)) frames
  | .member members name :: frames =>
    abandon f (.object ((name, node) :: members).reverse (some f)) frames

/-- The tree when what is awaited does not come, for the reason `f`. -/
def breakOff (f : Fault) (frames : List Frame) : Awaited → Node
  | .value => abandon f (.broken f) frames
  | .itemOrEnd => abandon f (.list [] (some f)) frames
  | .nameOrEnd => abandon f (.object [] (some f)) frames
  | .name members => abandon f (.object members.reverse (some f)) frames
  | .colon members name =>
    abandon f (.object ((name, .broken f) :: members).reverse (some f)) frames
  | .listNext items => abandon f (.list items.reverse (some f)) frames
  | .objectNext members => abandon f (.object members.reverse (some f)) frames

/-- A single token that is a value. -/
def Token.leaf? : Token → Option Node
  | .null => some .null
  | .bool b => some (.bool b)
  | .number n => some (.number n)
  | .cutNumber => some .cutNumber
  | .string s => some (.string s)
  | _ => none

/-- Assembles tokens: `awaited` comes next inside the open `frames`. -/
def assemble (awaited : Awaited) (frames : List Frame) : List Token → Document
  | [] => ⟨breakOff .truncated frames awaited, false⟩
  | t :: rest =>
    let refuse (_ : Unit) : Document := ⟨breakOff .malformed frames awaited, false⟩
    let complete (node : Node) (frames : List Frame) : Document :=
      match frames with
      | [] => ⟨node, !rest.isEmpty⟩
      | .list items :: frames => assemble (.listNext (node :: items)) frames rest
      | .member members name :: frames =>
        assemble (.objectNext ((name, node) :: members)) frames rest
    let value (frames : List Frame) : Document :=
      match t with
      | .openList => assemble .itemOrEnd frames rest
      | .openObject => assemble .nameOrEnd frames rest
      | .bad f => ⟨breakOff f frames .value, false⟩
      | t =>
        match t.leaf? with
        | some node => complete node frames
        | none => ⟨breakOff .malformed frames .value, false⟩
    match awaited, t with
    | .value, _ => value frames
    | .itemOrEnd, .closeList => complete (.list [] none) frames
    | .itemOrEnd, _ => value (.list [] :: frames)
    | .nameOrEnd, .closeObject => complete (.object [] none) frames
    | .nameOrEnd, .string s => assemble (.colon [] s) frames rest
    | .name members, .string s => assemble (.colon members s) frames rest
    | .colon members name, .colon => assemble .value (.member members name :: frames) rest
    | .listNext items, .comma => assemble .value (.list items :: frames) rest
    | .listNext items, .closeList => complete (.list items.reverse none) frames
    | .objectNext members, .comma => assemble (.name members) frames rest
    | .objectNext members, .closeObject => complete (.object members.reverse none) frames
    | _, _ => refuse ()

/-- Reads a text. -/
def Document.ofText (text : Text.Utf8.Loose) : Document := assemble .value [] (tokens text)

/-- Reads a text without gaps. -/
def Document.ofString (s : String) : Document := .ofText (Text.Utf8.loose s)

/-- Reads octets. -/
def Document.ofOctets (bytes : List UInt8) : Document := .ofText (Text.Utf8.decode bytes)

/-! ### Values that are passed over -/

mutual

/-- The fault in a value that is passed over: it has to follow the grammar, but its strings and
numbers are not looked into and it may be nested at will. -/
def Node.fault? : Node → Option Fault
  | .null | .bool _ | .number _ => none
  | .cutNumber => some .malformed
  | .string s => s.fault
  | .list items close => (itemsFault? items).or close
  | .object members close => (membersFault? members).or close
  | .broken f => some f

/-- The first fault among the items of a list. -/
def itemsFault? : List Node → Option Fault
  | [] => none
  | node :: rest => node.fault?.or (itemsFault? rest)

/-- The first fault among the members of an object. -/
def membersFault? : List (RawString × Node) → Option Fault
  | [] => none
  | (name, node) :: rest => (name.fault.or node.fault?).or (membersFault? rest)

end

end BearerAuth.Json
