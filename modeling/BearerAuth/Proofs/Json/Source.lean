import BearerAuth.Proofs.Json.Spelling
import BearerAuth.Proofs.Json.Written

/-!
# Documents as they are spelled

The grammar of documents, as the values that they are spelled from and the blanks between their
lexemes.

* `Lexeme` and `Source` are the grammar;
* `Source.text` spells a value with some blanks;
* `Source.document_text` : what is spelled is a document of the value, whatever the blanks;
* `Source.fault?_node` : there is no fault in it, however deep it is nested.

The proof: the text is cut into its lexemes by an induction on them, because a number is followed by
a mark or by nothing.  The tokens are assembled by an induction on the value, in which a part is
complete where its last token is read.
-/

namespace BearerAuth.Json

open Text.Utf8

/-! ### Lexemes -/

/-- A lexeme. -/
inductive Lexeme where
  /-- `[` -/
  | openList
  /-- `]` -/
  | closeList
  /-- `{` -/
  | openObject
  /-- `}` -/
  | closeObject
  /-- `,` -/
  | comma
  /-- `:` -/
  | colon
  /-- `null` -/
  | null
  /-- `true` or `false` -/
  | bool (b : Bool)
  /-- A number. -/
  | number (n : NumberText)
  /-- A string. -/
  | string (text : StringText)

namespace Lexeme

/-- The characters of a lexeme. -/
def chars : Lexeme → List Char
  | .openList => ['[']
  | .closeList => [']']
  | .openObject => ['{']
  | .closeObject => ['}']
  | .comma => [',']
  | .colon => [':']
  | .null => ['n', 'u', 'l', 'l']
  | .bool true => ['t', 'r', 'u', 'e']
  | .bool false => ['f', 'a', 'l', 's', 'e']
  | .number n => n.chars
  | .string text => '"' :: (text.flatMap StringPart.chars ++ ['"'])

/-- The token of a lexeme. -/
def token : Lexeme → Token
  | .openList => .openList
  | .closeList => .closeList
  | .openObject => .openObject
  | .closeObject => .closeObject
  | .comma => .comma
  | .colon => .colon
  | .null => .null
  | .bool b => .bool b
  | .number n => .number n.numeral
  | .string text => .string text.raw

variable {l : Lexeme} {ls : List Lexeme} {rest : Loose}

/-- A lexeme is cut off the text; a number has to end where it does. -/
theorem tokens_chars (l : Lexeme) (stops : ∀ n, l = .number n → Stops rest) :
    tokens (l.chars.map some ++ rest) = l.token :: tokens rest := by
  cases l with
  | number n => exact n.tokens_chars (stops n rfl)
  | string text =>
    have scan : scanToken '"' ((text.flatMap StringPart.chars).map some ++ some '"' :: rest) =
        (.string text.raw, rest) := by
      simp only [scanToken, StringText.scanString_raw]
    simpa [chars, token] using tokens_cons rfl scan rfl
  | bool b => cases b <;> exact tokens_cons rfl rfl rfl
  | _ => exact tokens_cons rfl rfl rfl

/-- What may follow a number: nothing, or the mark after an item or a member. -/
def Ends (ls : List Lexeme) : Prop :=
  ∀ l, ls.head? = some l → l = .comma ∨ l = .closeList ∨ l = .closeObject

/-- No number runs into the lexeme after it. -/
def Apart : List Lexeme → Prop
  | [] => True
  | .number _ :: ls => Ends ls ∧ Apart ls
  | _ :: ls => Apart ls

end Lexeme

/-- Some blanks before each lexeme and after the last, counted from the first. -/
abbrev Layout := Nat → List Space

/-- The blanks after the first lexeme. -/
def Layout.tail (layout : Layout) : Layout := fun i => layout (i + 1)

/-- The characters of some lexemes with blanks between them. -/
def spread (layout : Layout) : List Lexeme → List Char
  | [] => (layout 0).map (·.val)
  | l :: ls => (layout 0).map (·.val) ++ l.chars ++ spread layout.tail ls

theorem isSpace_val (s : Space) : isSpace s.val = true := by
  have each : [' ', '\n', '\t', '\x0d'].all isSpace = true := rfl
  exact List.all_eq_true.1 each s.val s.property

theorem tokens_blanks (blanks : List Space) (rest : Loose) :
    tokens ((blanks.map (·.val)).map some ++ rest) = tokens rest := by
  induction blanks with
  | nil => rfl
  | cons s blanks ih =>
    rw [List.map_cons, List.map_cons, List.cons_append, tokens, if_pos (isSpace_val s), ih]

theorem stops_blank (s : Space) (rest : Loose) : Stops (some s.val :: rest) := by
  have each : [' ', '\n', '\t', '\x0d'].all
      (fun c => !c.isDigit && c != '.' && c != 'e' && c != 'E') = true := rfl
  rintro _ ⟨⟩
  simpa [and_assoc] using List.all_eq_true.1 each s.val s.property

theorem Lexeme.Ends.stops {ls : List Lexeme} (h : Ends ls) (layout : Layout) :
    Stops ((spread layout ls).map some) := by
  match ls, blanks : layout 0 with
  | [], [] =>
    rw [spread, blanks]
    nofun
  | [], s :: more => 
    rw [spread, blanks]
    exact stops_blank s _
  | l :: ls, s :: more =>
    rw [spread, blanks]
    exact stops_blank s _
  | l :: ls, [] =>
    rw [spread, blanks]
    rcases h l rfl with rfl | rfl | rfl <;> exact stops_mark (by decide) _

/-- **The text is cut into its lexemes**, whatever the blanks. -/
theorem tokens_spread {ls : List Lexeme} (apart : Lexeme.Apart ls) (layout : Layout) :
    tokens ((spread layout ls).map some) = ls.map Lexeme.token := by
  induction ls generalizing layout with
  | nil =>
    have nothing : tokens [] = [] := by rw [tokens]
    rw [spread, ← List.append_nil (List.map some _), tokens_blanks, nothing]
    rfl
  | cons l ls ih =>
    have others : Lexeme.Apart ls := by
      cases l <;> first | exact apart | exact apart.2
    rw [spread, List.append_assoc, List.map_append, List.map_append, tokens_blanks,
      l.tokens_chars, ih others]
    · rfl
    · rintro n rfl
      exact apart.1.stops _

/-! ### Values -/

/-- A value. -/
inductive Source where
  /-- `null` -/
  | null
  /-- `true` or `false` -/
  | bool (b : Bool)
  /-- A number. -/
  | number (n : NumberText)
  /-- A string. -/
  | string (text : StringText)
  /-- A list. -/
  | list (items : List Source)
  /-- An object; a name may be repeated. -/
  | object (members : List (StringText × Source))

namespace Source

mutual

/-- The lexemes of a value. -/
def lexemes : Source → List Lexeme
  | .null => [.null]
  | .bool b => [.bool b]
  | .number n => [.number n]
  | .string text => [.string text]
  | .list [] => [.openList, .closeList]
  | .list (item :: items) => .openList :: (item.lexemes ++ moreItems items)
  | .object [] => [.openObject, .closeObject]
  | .object ((name, value) :: members) =>
    .openObject :: .string name :: .colon :: (value.lexemes ++ moreMembers members)

/-- The lexemes of the items after the first, and of the end of the list. -/
def moreItems : List Source → List Lexeme
  | [] => [.closeList]
  | item :: items => .comma :: (item.lexemes ++ moreItems items)

/-- The lexemes of the members after the first, and of the end of the object. -/
def moreMembers : List (StringText × Source) → List Lexeme
  | [] => [.closeObject]
  | (name, value) :: members =>
    .comma :: .string name :: .colon :: (value.lexemes ++ moreMembers members)

end

mutual

/-- The tree of a value. -/
def node : Source → Node
  | .null => .null
  | .bool b => .bool b
  | .number n => .number n.numeral
  | .string text => .string text.raw
  | .list items => .list (nodes items) none
  | .object members => .object (memberNodes members) none

/-- The trees of some items. -/
def nodes : List Source → List Node
  | [] => []
  | item :: items => item.node :: nodes items

/-- The trees of some members. -/
def memberNodes : List (StringText × Source) → List (RawString × Node)
  | [] => []
  | (name, value) :: members => (name.raw, value.node) :: memberNodes members

end

theorem memberNodes_eq (members : List (StringText × Source)) :
    memberNodes members = members.map fun m => (m.1.raw, m.2.node) := by
  induction members with
  | nil => rfl
  | cons m members ih => rw [memberNodes, ih, List.map_cons]

/-! ### Reading them -/

theorem ends_moreItems (items : List Source) (ls : List Lexeme) :
    Lexeme.Ends (moreItems items ++ ls) := by
  cases items with
  | nil => rintro _ ⟨⟩; exact .inr (.inl rfl)
  | cons item items => rintro _ ⟨⟩; exact .inl rfl

theorem ends_moreMembers (members : List (StringText × Source)) (ls : List Lexeme) :
    Lexeme.Ends (moreMembers members ++ ls) := by
  cases members with
  | nil => rintro _ ⟨⟩; exact .inr (.inr rfl)
  | cons m members => rintro _ ⟨⟩; exact .inl rfl

mutual

/-- No number of a value runs into what follows it. -/
theorem apart_lexemes : ∀ (s : Source) {ls : List Lexeme}, Lexeme.Ends ls → Lexeme.Apart ls →
    Lexeme.Apart (s.lexemes ++ ls)
  | .null, _, _, apart | .bool _, _, _, apart | .string _, _, _, apart | .list [], _, _, apart
  | .object [], _, _, apart => apart
  | .number _, _, ends, apart => ⟨ends, apart⟩
  | .list (item :: items), ls, _, apart => by
    have others := apart_moreItems items apart
    simpa [lexemes, Lexeme.Apart] using apart_lexemes item (ends_moreItems items ls) others
  | .object ((_, value) :: members), ls, _, apart => by
    have others := apart_moreMembers members apart
    simpa [lexemes, Lexeme.Apart] using apart_lexemes value (ends_moreMembers members ls) others

theorem apart_moreItems : ∀ (items : List Source) {ls : List Lexeme}, Lexeme.Apart ls →
    Lexeme.Apart (moreItems items ++ ls)
  | [], _, apart => apart
  | item :: items, ls, apart => by
    have others := apart_moreItems items apart
    simpa [moreItems, Lexeme.Apart] using apart_lexemes item (ends_moreItems items ls) others

theorem apart_moreMembers : ∀ (members : List (StringText × Source)) {ls : List Lexeme},
    Lexeme.Apart ls → Lexeme.Apart (moreMembers members ++ ls)
  | [], _, apart => apart
  | (_, value) :: members, ls, apart => by
    have others := apart_moreMembers members apart
    simpa [moreMembers, Lexeme.Apart] using
      apart_lexemes value (ends_moreMembers members ls) others

end

mutual

theorem assemble_lexemes : ∀ (s : Source) {awaited : Awaited} {frames inner : List Frame},
    Admits awaited frames inner → ∀ ts : List Token,
      assemble awaited frames (s.lexemes.map Lexeme.token ++ ts) = complete s.node ts inner
  | .null, _, _, _, admits, _ | .bool _, _, _, _, admits, _ | .number _, _, _, _, admits, _
  | .string _, _, _, _, admits, _ => admits.leaf rfl
  | .list [], _, _, inner, admits, ts => by
    refine admits.openList.trans ?_
    rcases inner with _ | ⟨_ | _, _⟩ <;> rfl
  | .object [], _, _, inner, admits, ts => by
    refine admits.openObject.trans ?_
    rcases inner with _ | ⟨_ | _, _⟩ <;> rfl
  | .list (item :: items), _, _, inner, admits, ts => by
    have first := assemble_lexemes item (.item inner) ((moreItems items).map Lexeme.token ++ ts)
    have others := assemble_moreItems items [item.node] inner ts
    rw [lexemes, List.map_cons, List.map_append, List.cons_append, List.append_assoc]
    exact admits.openList.trans (first.trans others)
  | .object ((name, value) :: members), _, _, inner, admits, ts => by
    have first := assemble_lexemes value (.value (.member [] name.raw :: inner))
      ((moreMembers members).map Lexeme.token ++ ts)
    have others := assemble_moreMembers members [(name.raw, value.node)] inner ts
    simp only [lexemes, List.map_cons, List.map_append, List.cons_append, List.append_assoc]
    exact admits.openObject.trans (first.trans others)

theorem assemble_moreItems : ∀ (items : List Source) (before : List Node) (frames : List Frame)
    (ts : List Token),
      assemble (.listNext before) frames ((moreItems items).map Lexeme.token ++ ts) =
        complete (.list (before.reverse ++ nodes items) none) ts frames
  | [], before, frames, ts => by
    rw [nodes, List.append_nil]
    exact assemble_closeList before frames
  | item :: items, before, frames, ts => by
    have first := assemble_lexemes item (.value (.list before :: frames))
      ((moreItems items).map Lexeme.token ++ ts)
    have others := assemble_moreItems items (item.node :: before) frames ts
    rw [List.reverse_cons, List.append_assoc, List.singleton_append] at others
    rw [moreItems, List.map_cons, List.map_append, List.cons_append, List.append_assoc]
    exact first.trans others

theorem assemble_moreMembers : ∀ (members : List (StringText × Source))
    (before : List (RawString × Node)) (frames : List Frame) (ts : List Token),
      assemble (.objectNext before) frames ((moreMembers members).map Lexeme.token ++ ts) =
        complete (.object (before.reverse ++ memberNodes members) none) ts frames
  | [], before, frames, ts => by
    rw [memberNodes, List.append_nil]
    exact assemble_closeObject before frames
  | (name, value) :: members, before, frames, ts => by
    have first := assemble_lexemes value (.value (.member before name.raw :: frames))
      ((moreMembers members).map Lexeme.token ++ ts)
    have others := assemble_moreMembers members ((name.raw, value.node) :: before) frames ts
    rw [List.reverse_cons, List.append_assoc, List.singleton_append] at others
    simp only [moreMembers, List.map_cons, List.map_append, List.cons_append, List.append_assoc]
    exact first.trans others

end

/-- A value as a text, with some blanks. -/
def text (layout : Layout) (s : Source) : String := String.ofList (spread layout s.lexemes)

/-- **What is spelled is a document** of the value and nothing else, whatever the blanks. -/
theorem document_text (layout : Layout) (s : Source) :
    Document.ofString (s.text layout) = ⟨s.node, false⟩ := by
  have apart : Lexeme.Apart (s.lexemes ++ []) := apart_lexemes s nofun trivial
  rw [List.append_nil] at apart
  have whole := assemble_lexemes s (.value []) []
  rw [List.append_nil] at whole
  rw [Document.ofString, Document.ofText, text, loose, String.toList_ofList,
    tokens_spread apart, whole]
  rfl

mutual

/-- **There is no fault** in a value that is passed over, however deep it is nested. -/
theorem fault?_node : ∀ s : Source, s.node.fault? = none
  | .null | .bool _ | .number _ | .string _ => rfl
  | .list items => by rw [node, Node.fault?, itemsFault?_nodes items]; rfl
  | .object members => by rw [node, Node.fault?, membersFault?_memberNodes members]; rfl

theorem itemsFault?_nodes : ∀ items : List Source, itemsFault? (nodes items) = none
  | [] => rfl
  | item :: items => by rw [nodes, itemsFault?, fault?_node item, itemsFault?_nodes items]; rfl

theorem membersFault?_memberNodes :
    ∀ members : List (StringText × Source), membersFault? (memberNodes members) = none
  | [] => rfl
  | (name, value) :: members => by
    rw [memberNodes, membersFault?, fault?_node value, membersFault?_memberNodes members]
    rfl

end

end Source

end BearerAuth.Json
