import BearerAuth.Proofs.Json.Lexemes
import Mathlib.Data.List.Forall2

/-!
# Written lists and objects are read back

Whatever the printer puts together from written values, the reader takes apart into the same values.

* `Written` says that a text is that of a value, wherever a value may stand;
* `written_string`, `written_integer`, `Written.list`, `Written.object` : what the printer writes;
* `Written.ofString` : a written text is a document with its value and nothing else;
* `Record.members_written` : a written object gives the members that it was written from.

The proof: a value is complete where its last token is read, and the frame around it goes on from
there.  So a list is read by an induction on its items and an object by one on its members, in which
the values are only known to be written.
-/

namespace BearerAuth.Json

open Printer Text.Utf8

variable {text value : List Char} {texts : List (List Char)} {node : Node} {items : List Node}
  {members : List (String × Node)} {frames inner : List Frame} {awaited : Awaited}
  {rest : Loose} {ts : List Token} {t : Token}

/-! ### Values in their places -/

/-- A value is complete, and the frame around it goes on. -/
def complete (node : Node) (ts : List Token) : List Frame → Document
  | [] => ⟨node, !ts.isEmpty⟩
  | .list items :: frames => assemble (.listNext (node :: items)) frames ts
  | .member members name :: frames => assemble (.objectNext ((name, node) :: members)) frames ts

/-- A value may come next, and then stands inside some frames. -/
inductive Admits : Awaited → List Frame → List Frame → Prop where
  /-- A value has to come. -/
  | value (frames : List Frame) : Admits .value frames frames
  /-- The first item of a list may come. -/
  | item (frames : List Frame) : Admits .itemOrEnd frames (.list [] :: frames)

theorem Admits.leaf (h : Admits awaited frames inner) (leaf : t.leaf? = some node) :
    assemble awaited frames (t :: ts) = complete node ts inner := by
  cases h
  · cases t <;> cases leaf <;> rcases frames with _ | ⟨_ | _, _⟩ <;> rfl
  · cases t <;> cases leaf <;> rfl

theorem Admits.openList (h : Admits awaited frames inner) :
    assemble awaited frames (.openList :: ts) = assemble .itemOrEnd inner ts := by
  cases h <;> rfl

theorem Admits.openObject (h : Admits awaited frames inner) :
    assemble awaited frames (.openObject :: ts) = assemble .nameOrEnd inner ts := by
  cases h <;> rfl

theorem assemble_closeList (items : List Node) (frames : List Frame) :
    assemble (.listNext items) frames (.closeList :: ts) =
      complete (.list items.reverse none) ts frames := by
  rcases frames with _ | ⟨_ | _, _⟩ <;> rfl

theorem assemble_closeObject (members : List (RawString × Node)) (frames : List Frame) :
    assemble (.objectNext members) frames (.closeObject :: ts) =
      complete (.object members.reverse none) ts frames := by
  rcases frames with _ | ⟨_ | _, _⟩ <;> rfl

/-- The text is that of a value: where a value may come and a number would end after it, the text is
read as the value. -/
def Written (text : List Char) (node : Node) : Prop :=
  ∀ ⦃awaited frames inner⦄, Admits awaited frames inner → ∀ ⦃rest⦄, Stops rest →
    assemble awaited frames (tokens (text.map some ++ rest)) = complete node (tokens rest) inner

theorem written_string (s : String) : Written (quoted s) (.string (.written s)) := by
  intro awaited frames inner admits rest stops
  rw [tokens_quoted]
  exact admits.leaf rfl

theorem written_integer (n : Int) : Written (integer n) (.number (.written n)) := by
  intro awaited frames inner admits rest stops
  rw [tokens_integer n stops]
  exact admits.leaf rfl

/-! ### Lists -/

theorem separated_cons (text : List Char) (texts : List (List Char)) :
    separated (text :: texts) = text ++ texts.flatMap (',' :: ·) := by
  induction texts generalizing text with
  | nil => simp [separated]
  | cons next texts ih => simp [separated, ih next]

theorem stops_mark {c : Char} (mark : c ∈ [',', ']', '}']) (rest : Loose) :
    Stops (some c :: rest) := by
  rintro _ ⟨⟩
  simp only [List.mem_cons, List.not_mem_nil, or_false] at mark
  rcases mark with rfl | rfl | rfl <;> decide

theorem stops_more (texts : List (List Char)) {c : Char} (mark : c ∈ [',', ']', '}'])
    (rest : Loose) : Stops ((texts.flatMap (',' :: ·)).map some ++ some c :: rest) := by
  cases texts with
  | nil => exact stops_mark mark rest
  | cons text texts => exact stops_mark (List.mem_cons_self ..) _

theorem assemble_items (h : List.Forall₂ Written texts items) (before : List Node)
    (frames : List Frame) (rest : Loose) :
    assemble (.listNext before) frames
        (tokens ((texts.flatMap (',' :: ·)).map some ++ some ']' :: rest)) =
      complete (.list (before.reverse ++ items) none) (tokens rest) frames := by
  induction h generalizing before with
  | nil =>
    rw [List.flatMap_nil, List.map_nil, List.nil_append, tokens_cons (c := ']') rfl rfl rfl,
      assemble_closeList, List.append_nil]
  | @cons text node texts items written _ ih =>
    have first := written (.value (.list before :: frames))
      (stops_more texts (c := ']') (by decide) rest)
    simp only [List.flatMap_cons, List.cons_append, List.map_cons, List.map_append,
      List.append_assoc]
    rw [tokens_cons (c := ',') rfl rfl rfl]
    calc assemble (.listNext before) frames (.comma :: _)
        = complete node _ (.list before :: frames) := first
      _ = complete (.list ((node :: before).reverse ++ items) none) (tokens rest) frames := ih _
      _ = _ := by rw [List.reverse_cons, List.append_assoc, List.singleton_append]

/-- **A written list is read back**, if its items are. -/
theorem Written.list (h : List.Forall₂ Written texts items) :
    Written ('[' :: separated texts ++ [']']) (.list items none) := by
  intro awaited frames inner admits rest stops
  simp only [List.cons_append, List.map_cons, List.map_append, List.map_nil, List.append_assoc,
    List.nil_append]
  rw [tokens_cons (c := '[') rfl rfl rfl, admits.openList]
  cases h with
  | nil =>
    rw [separated, List.map_nil, List.nil_append, tokens_cons (c := ']') rfl rfl rfl]
    rcases inner with _ | ⟨_ | _, _⟩ <;> rfl
  | @cons text node texts items written others =>
    rw [separated_cons, List.map_append, List.append_assoc,
      written (.item inner) (stops_more texts (c := ']') (by decide) rest)]
    exact assemble_items others [node] inner rest

/-- The node of a list of strings. -/
def Node.strings (items : List String) : Node :=
  .list (items.map fun s => .string (.written s)) none

theorem written_strings (items : List String) : Written (strings items) (.strings items) := by
  refine Written.list ?_
  rw [List.forall₂_map_left_iff, List.forall₂_map_right_iff, List.forall₂_same]
  exact fun s _ => written_string s

/-! ### Objects -/

/-- The node of an object with some members. -/
def Node.record (members : List (String × Node)) : Node :=
  .object (members.map fun m => (.written m.1, m.2)) none

/-- A name may come next, after some members. -/
inductive AdmitsName : Awaited → List (RawString × Node) → Prop where
  /-- A name has to come. -/
  | name (before : List (RawString × Node)) : AdmitsName (.name before) before
  /-- The first name may come. -/
  | first : AdmitsName .nameOrEnd []

/-- The text is that of a member. -/
def WrittenMember (text : List Char) (m : String × Node) : Prop :=
  ∃ value, text = member m.1 value ∧ Written value m.2

theorem WrittenMember.read {m : String × Node} (h : WrittenMember text m)
    {before : List (RawString × Node)} (admits : AdmitsName awaited before) (frames : List Frame)
    (stops : Stops rest) :
    assemble awaited frames (tokens (text.map some ++ rest)) =
      assemble (.objectNext ((.written m.1, m.2) :: before)) frames (tokens rest) := by
  obtain ⟨value, rfl, written⟩ := h
  have inside := written (.value (.member before (.written m.1) :: frames)) stops
  rw [member, List.map_append, List.append_assoc, tokens_quoted, List.map_cons, List.cons_append,
    tokens_cons (c := ':') rfl rfl rfl]
  cases admits <;> exact inside

theorem assemble_members (h : List.Forall₂ WrittenMember texts members)
    (before : List (RawString × Node)) (frames : List Frame) (rest : Loose) :
    assemble (.objectNext before) frames
        (tokens ((texts.flatMap (',' :: ·)).map some ++ some '}' :: rest)) =
      complete (.object (before.reverse ++ members.map fun m => (.written m.1, m.2)) none)
        (tokens rest) frames := by
  induction h generalizing before with
  | nil =>
    rw [List.flatMap_nil, List.map_nil, List.nil_append, tokens_cons (c := '}') rfl rfl rfl,
      assemble_closeObject, List.map_nil, List.append_nil]
  | @cons text m texts members written _ ih =>
    have first := written.read (.name before) frames
      (stops_more texts (c := '}') (by decide) rest)
    simp only [List.flatMap_cons, List.cons_append, List.map_cons, List.map_append,
      List.append_assoc]
    rw [tokens_cons (c := ',') rfl rfl rfl]
    calc assemble (.objectNext before) frames (.comma :: _)
        = assemble (.objectNext ((.written m.1, m.2) :: before)) frames _ := first
      _ = complete (.object (((.written m.1, m.2) :: before).reverse ++
            members.map fun m => (.written m.1, m.2)) none) (tokens rest) frames := ih _
      _ = _ := by rw [List.reverse_cons, List.append_assoc, List.singleton_append]

/-- **A written object is read back**, if its members are. -/
theorem Written.object (h : List.Forall₂ WrittenMember texts members) :
    Written (Printer.object texts) (.record members) := by
  intro awaited frames inner admits rest stops
  simp only [Printer.object, List.cons_append, List.map_cons, List.map_append, List.map_nil,
    List.append_assoc, List.nil_append]
  rw [tokens_cons (c := '{') rfl rfl rfl, admits.openObject]
  cases h with
  | nil =>
    rw [separated, List.map_nil, List.nil_append, tokens_cons (c := '}') rfl rfl rfl]
    rcases inner with _ | ⟨_ | _, _⟩ <;> rfl
  | @cons text m texts members written others =>
    rw [separated_cons, List.map_append, List.append_assoc,
      written.read .first inner (stops_more texts (c := '}') (by decide) rest)]
    exact assemble_members others [(.written m.1, m.2)] inner rest

/-! ### Documents -/

/-- **A written text is a document** with its value and nothing else. -/
theorem Written.ofString (h : Written text node) :
    Document.ofString (String.ofList text) = ⟨node, false⟩ := by
  have whole := @h _ _ _ (.value []) [] nofun
  rw [List.append_nil] at whole
  have nothing : tokens [] = [] := by rw [tokens]
  rw [Document.ofString, Document.ofText, loose, String.toList_ofList, whole, nothing]
  rfl

/-! ### Reading -/

namespace Reader

variable {α : Type} {read : Reader α} {room : Nat} {a : α}

theorem check_of_ok (h : read room node = .ok a) : check read room node = .ok () := by
  rw [check, h]
  rfl

theorem string_written (s : String) : string room (.string (.written s)) = .ok s :=
  RawString.read_written s

theorem optional_string_written (room : Nat) (s : String) :
    optional string room (.string (.written s)) = .ok (some s) := by
  rw [optional, string_written]
  · rfl
  · nofun

theorem optional_integer_written (room : Nat) {n : Int} (fits : IsInt64 n) :
    optional integer room (.number (.written n)) = .ok (some n) := by
  rw [optional, integer_written room fits]
  · rfl
  · nofun

theorem list_written (items : List String) :
    list string (room + 1) (.strings items) = .ok items := by
  have each : (items.map fun s => Node.string (.written s)).mapM (string room) = .ok items := by
    induction items with
    | nil => rfl
    | cons s items ih => rw [List.map_cons, List.mapM_cons, string_written, ih]; rfl
  simp only [list, Node.strings, enter, each]
  rfl

theorem oneOrMany_written (items : List String) :
    oneOrMany (room + 1) (.strings items) = .ok items := by
  have built : values room (items.map fun s => .string (.written s)) =
      .ok (items.map .string) := by
    induction items with
    | nil => rfl
    | cons s items ih =>
      simp only [List.map_cons, values, value, RawString.read_written, ih, Except.map]
  have seen (items : List String) : (items.map Value.string).mapM Value.string? = some items := by
    induction items with
    | nil => rfl
    | cons s items ih => rw [List.map_cons, List.mapM_cons, ih]; rfl
  simp only [oneOrMany, Node.strings, value, built, leave, Value.oneOrMany?, Value.strings?, seen]

end Reader

theorem Given.getD_optional {α : Type} {given : Given} {room : Nat} {name : String} {o : Option α}
    {node : α → Node} {read : Reader (Option α)} (there : given.lookup name = o.map node)
    (each : ∀ a, o = some a → read room (node a) = .ok (some a)) :
    given.getD room name read none = .ok o := by
  cases o with
  | none => rw [Given.getD, there]; rfl
  | some a => rw [Given.getD, there]; exact each a rfl

namespace Record

variable {fields : List Field} {room : Nat} {given : Given}

theorem ofMembers_written
    (known : ∀ m ∈ given, ∃ f, field? fields m.1 = some f ∧ f.name = m.1 ∧
      f.accepts room m.2 = .ok ())
    (once : (given.map (·.1)).Nodup) :
    ofMembers fields room [] (given.map fun m => (.written m.1, m.2)) = .ok given := by
  have gives : ∀ m ∈ given, giving? fields (.written m.1, m.2) = some m := by
    intro m hm
    obtain ⟨f, found, named, -⟩ := known m hm
    simp [giving?, RawString.read_written, Except.toOption, found, named]
  have taken : (given.map fun m => (RawString.written m.1, m.2)).filterMap (giving? fields) =
      given := by
    rw [List.filterMap_map]
    exact (List.filterMap_congr gives).trans List.filterMap_some
  rw [ofMembers_eq_ok_iff, taken]
  refine ⟨List.forall_mem_map.2 fun m hm => ?_, once, fun _ _ => rfl, rfl⟩
  obtain ⟨f, found, -, accepted⟩ := known m hm
  refine ⟨m.1, RawString.read_written m.1, ?_⟩
  rw [Fits, found]
  exact accepted

/-- **A written object gives the members that it was written from**, if all of them are fields with
values of the right shape. -/
theorem members_written
    (known : ∀ m ∈ given, ∃ f, field? fields m.1 = some f ∧ f.name = m.1 ∧
      f.accepts room m.2 = .ok ())
    (once : (given.map (·.1)).Nodup) :
    Record.members fields (room + 1) (.record given) = .ok given := by
  simp only [Record.members, Node.record, objectMembers, Reader.enter,
    ofMembers_written known once]
  rfl

end Record

end BearerAuth.Json
