import BearerAuth.Proofs.Json.Source
import BearerAuth.Proofs.Token.Readings
import Mathlib.Data.List.Nodup
import Mathlib.Logic.Relation

/-!
# Claims may be spelled in many ways

The same claims are read from all objects that differ only in the blanks between their lexemes, in
the order of their members, in members that are not looked at, in which of its two names the roles
go by, in whether a single audience stands in a list, and in whether optional claims that are not
stated are `null`.  No claims are read from an object that states one of them twice.

* `Claims.Reads` says what it takes to read claims from an object, `Claims.ofString_eq_ok_iff` that
  it is this;
* `Claims.Respelled` are the ways to spell an object differently, and `Claims.Repeated` says that an
  object states something twice;
* `Claims.ofString_respelled` : the theorem.

The proof: the members that are looked at suit their fields, are given once each, and are looked up
by name.  Each way to respell changes at most one of the values that are looked up, to one that is
read alike.
-/

namespace BearerAuth.Json

open Record

variable {fields : List Field} {room : Nat} {name : String} {given : Given}

/-- The string of a member's name. -/
def StringText.Is (text : StringText) (s : String) : Prop := text.Spells s.toList

theorem StringText.Is.read {text : StringText} {s : String} (h : text.Is s) :
    text.raw.read = .ok s :=
  StringText.read_eq_ok_iff.2 h

namespace Record

theorem giving?_eq {raw : RawString} {s : String} (read : raw.read = .ok s) (node : Node) :
    giving? fields (raw, node) = (field? fields s).map fun f => (f.name, node) := by
  rw [giving?, read]
  rfl

theorem suits_iff {raw : RawString} {s : String} (read : raw.read = .ok s) (node : Node) :
    Suits fields room (raw, node) ↔ Fits fields room s node := by
  simp [Suits, read]

theorem lookup_between (before after : Given) (s : String) (node : Node) (name : String)
    (fresh : before.lookup s = none) :
    (before ++ (s, node) :: after : Given).lookup name =
      if name = s then some node else (before ++ after : Given).lookup name := by
  rw [List.lookup_append, List.lookup_append, List.lookup_cons]
  by_cases same : name = s
  · simp [same, fresh]
  · simp [same, beq_false_of_ne same]

end Record

theorem Reader.oneOrMany_singleton (room : Nat) (s : RawString) :
    oneOrMany (room + 1) (.list [.string s] none) = oneOrMany (room + 1) (.string s) := by
  unfold oneOrMany
  simp only [value, values]
  cases s.read <;> rfl

end BearerAuth.Json

namespace BearerAuth.Claims

open Json

/-! ### What claims are read from -/

/-- The names under which the roles may be stated. -/
def accessNames : List String := ["realm_access", "realmAccess"]

/-- The names that are looked at. -/
def names : List String := ["iss", "sub", "aud", "exp", "iat"] ++ accessNames

/-- The names of the claims that may be `null`. -/
def optionalNames : List String := ["iss", "sub", "iat"]

/-- A member of an object. -/
abbrev Member := StringText × Source

/-- The members of an object as they are read. -/
abbrev Member.read (m : Member) : RawString × Node := (m.1.raw, m.2.node)

/-- The values that the members of an object give for the fields of claims. -/
def entries (members : List Member) : Given :=
  members.filterMap fun m => Record.giving? fields m.read

/-- What it takes to read claims from an object. -/
structure Reads (members : List Member) (c : Claims) : Prop where
  /-- Each member suits the field it stands for, or can be passed over. -/
  suits : ∀ m ∈ members, Record.Suits fields (maxDepth - 1) m.read
  /-- No two stand for one field. -/
  once : ((entries members).map (·.1)).Nodup
  /-- The values that are given state the claims. -/
  states : ofGiven (maxDepth - 1) (entries members) = .ok c

variable {members before after a b : List Member} {c : Claims} {name : String}

/-- **What claims are read from**, whatever the blanks. -/
theorem ofString_eq_ok_iff (layout : Layout) :
    ofString ((Source.object members).text layout) = .ok c ↔ Reads members c := by
  have taken :
      (Source.memberNodes members).filterMap (Record.giving? fields) = entries members := by
    rw [Source.memberNodes_eq, List.filterMap_map]
    rfl
  have whole : ofString ((Source.object members).text layout) = .ok c ↔
      ∃ given, Record.ofMembers fields (maxDepth - 1) [] (Source.memberNodes members) = .ok given ∧
        ofGiven (maxDepth - 1) given = .ok c := by
    rw [ofString, Source.document_text, Source.node, ← Record.members_object]
    constructor
    · exact exists_given
    · rintro ⟨given, opened, states⟩
      change Record.members fields maxDepth _ = _ at opened
      simp [ofDocument, Document.read, reader, opened, states, bind, Except.bind]
  rw [whole]
  constructor
  · rintro ⟨given, opened, states⟩
    obtain ⟨suits, once, -, rfl⟩ := Record.ofMembers_eq_ok_iff.1 opened
    rw [taken] at once states
    rw [Source.memberNodes_eq] at suits
    exact ⟨List.forall_mem_map.1 suits, once, states⟩
  · rintro ⟨suits, once, states⟩
    refine ⟨entries members, Record.ofMembers_eq_ok_iff.2 ⟨?_, ?_, fun _ _ => rfl, taken⟩, states⟩
    · rw [Source.memberNodes_eq]
      exact List.forall_mem_map.2 suits
    · rw [taken]
      exact once

/-! ### Values that are read alike -/

/-- Two values that may be given for a field, if any, are read alike. -/
inductive Alike (name : String) : Option Node → Option Node → Prop where
  /-- It is the same value. -/
  | same (o : Option Node) : Alike name o o
  /-- One is `null`, and the other is not given. -/
  | unstated (optional : name ∈ optionalNames) : Alike name none (some .null)
  /-- One is a single string, and the other the list of it. -/
  | audience (aud : name = "aud") (s : RawString) :
    Alike name (some (.string s)) (some (.list [.string s] none))

section Alike

variable {given given' : Given} {room : Nat}
  (h : Alike name (given.lookup name) (given'.lookup name))

include h

theorem Alike.getD_optional {α : Type} (read : Reader α) (other : name ≠ "aud") :
    given.getD room name (Reader.optional read) none =
      given'.getD room name (Reader.optional read) none := by
  unfold Given.getD
  generalize given.lookup name = o at h ⊢
  generalize given'.lookup name = o' at h ⊢
  cases h with
  | same => rfl
  | unstated => rfl
  | audience aud => exact absurd aud other

theorem Alike.getD_audience (other : name ∉ optionalNames) :
    given.getD (room + 1) name Reader.oneOrMany [] =
      given'.getD (room + 1) name Reader.oneOrMany [] := by
  unfold Given.getD
  generalize given.lookup name = o at h ⊢
  generalize given'.lookup name = o' at h ⊢
  cases h with
  | same => rfl
  | unstated optional => exact absurd optional other
  | audience => exact (Reader.oneOrMany_singleton room _).symm

theorem Alike.lookup_eq (other : name ∉ optionalNames) (plain : name ≠ "aud") :
    given.lookup name = given'.lookup name := by
  generalize given.lookup name = o at h ⊢
  generalize given'.lookup name = o' at h ⊢
  cases h with
  | same => rfl
  | unstated optional => exact absurd optional other
  | audience aud => exact absurd aud plain

theorem Alike.getD_other {α : Type} (read : Reader α) (default : α) (other : name ∉ optionalNames)
    (plain : name ≠ "aud") :
    given.getD room name read default = given'.getD room name read default := by
  rw [Given.getD, h.lookup_eq other plain, Given.getD]

theorem Alike.get_other {α : Type} (read : Reader α) (other : name ∉ optionalNames)
    (plain : name ≠ "aud") : given.get room name read = given'.get room name read := by
  rw [Given.get, h.lookup_eq other plain, Given.get]

end Alike

theorem ofGiven_congr {given given' : Given} (room : Nat)
    (alike : ∀ name, Alike name (given.lookup name) (given'.lookup name)) :
    ofGiven (room + 1) given = ofGiven (room + 1) given' := by
  unfold ofGiven
  rw [(alike "iss").getD_optional _ (by decide), (alike "sub").getD_optional _ (by decide),
    (alike "aud").getD_audience (by decide), (alike "exp").get_other _ (by decide) (by decide),
    (alike "iat").getD_optional _ (by decide),
    (alike "realm_access").getD_other _ _ (by decide) (by decide)]

/-! ### Spellings -/

/-- One object is spelled in place of another. -/
inductive Respelled : List Member → List Member → Prop where
  /-- The members are put into another order. -/
  | permuted {members members' : List Member} (h : members.Perm members') :
    Respelled members members'
  /-- A member is added whose name is none of those that are looked at, with any value. -/
  | added (before after : List Member) {text : StringText} {s : String} (value : Source)
    (named : text.Is s) (other : s ∉ names) :
    Respelled (before ++ after) (before ++ (text, value) :: after)
  /-- The roles go by their other name. -/
  | renamed (before after : List Member) {text text' : StringText} (value : Source)
    (named : text.Is "realm_access") (named' : text'.Is "realmAccess") :
    Respelled (before ++ (text, value) :: after) (before ++ (text', value) :: after)
  /-- A single audience is put into a list. -/
  | listed (before after : List Member) {text : StringText} (audience : StringText)
    (named : text.Is "aud") :
    Respelled (before ++ (text, .string audience) :: after)
      (before ++ (text, .list [.string audience]) :: after)
  /-- An optional claim that is not stated is stated to be `null`. -/
  | unstated (before after : List Member) {text : StringText} {s : String} (named : text.Is s)
    (optional : s ∈ optionalNames) (absent : ∀ m ∈ before ++ after, ¬ m.1.Is s) :
    Respelled (before ++ after) (before ++ (text, .null) :: after)

/-- An object states something twice: two of its members have a name that is looked at, or two names
for the roles. -/
def Repeated (members : List Member) : Prop :=
  ∃ m m' s s', [m, m'].Sublist members ∧ m.1.Is s ∧ m'.1.Is s' ∧ s ∈ names ∧
    (s = s' ∨ s ∈ accessNames ∧ s' ∈ accessNames)

/-! ### Reading what is respelled -/

theorem field?_of_not_mem {s : String} (other : s ∉ names) : Record.field? fields s = none := by
  simp only [names, accessNames, List.mem_append, List.mem_cons, List.not_mem_nil, or_false,
    not_or] at other
  obtain ⟨⟨iss, sub, aud, exp, iat⟩, access, access'⟩ := other
  simp [Record.field?, fields, Ne.symm iss, Ne.symm sub, Ne.symm aud, Ne.symm exp, Ne.symm iat,
    Ne.symm access, access']

theorem field?_of_optional {s : String} (optional : s ∈ optionalNames) :
    ∃ f, Record.field? fields s = some f ∧ f.name = s ∧ ∀ room, f.accepts room .null = .ok () := by
  simp only [optionalNames, List.mem_cons, List.not_mem_nil, or_false] at optional
  rcases optional with rfl | rfl | rfl <;> exact ⟨_, rfl, rfl, fun _ => rfl⟩

theorem field?_of_mem {s : String} (known : s ∈ names) :
    ∃ f, Record.field? fields s = some f := by
  simp only [names, accessNames, List.cons_append, List.nil_append, List.mem_cons,
    List.not_mem_nil, or_false] at known
  rcases known with rfl | rfl | rfl | rfl | rfl | rfl | rfl <;> exact ⟨_, rfl⟩

theorem field?_of_access {s : String} (access : s ∈ accessNames) :
    Record.field? fields s = Record.field? fields "realm_access" := by
  simp only [accessNames, List.mem_cons, List.not_mem_nil, or_false] at access
  rcases access with rfl | rfl <;> rfl

theorem entries_append (before after : List Member) :
    entries (before ++ after) = entries before ++ entries after :=
  List.filterMap_append

theorem entries_cons_other {text : StringText} {s : String} (value : Source) (named : text.Is s)
    (other : s ∉ names) : entries ((text, value) :: after) = entries after := by
  refine List.filterMap_cons_none ?_
  rw [Member.read, Record.giving?_eq named.read, field?_of_not_mem other, Option.map_none]

theorem entries_cons {text : StringText} {s : String} {f : Field} (value : Source)
    (named : text.Is s) (found : Record.field? fields s = some f) :
    entries ((text, value) :: after) = (f.name, value.node) :: entries after := by
  refine List.filterMap_cons_some ?_
  rw [Member.read, Record.giving?_eq named.read, found, Option.map_some]

theorem not_mem_entries {s : String} (optional : s ∈ optionalNames)
    (absent : ∀ m ∈ members, ¬ m.1.Is s) : s ∉ (entries members).map (·.1) := by
  intro there
  obtain ⟨g, mem, named⟩ := List.mem_map.1 there
  obtain ⟨m, hm, gives⟩ := List.mem_filterMap.1 mem
  obtain ⟨f, found, rfl⟩ := Option.map_eq_some_iff.1 gives
  obtain ⟨s', read, found⟩ := Option.bind_eq_some_iff.1 found
  have plain : s ≠ "realm_access" ∧ s ≠ "realmAccess" := by
    constructor <;> (rintro rfl; exact absurd optional (by decide))
  obtain rfl := (name_eq_iff plain found).1 named
  exact absent m hm (StringText.read_eq_ok_iff.1 (eq_ok_of_toOption read))

theorem forall_mem_between {p : Member → Prop} (before after : List Member) (m : Member) :
    (∀ n ∈ before ++ m :: after, p n) ↔ p m ∧ ∀ n ∈ before ++ after, p n := by
  rw [List.forall_mem_append, List.forall_mem_cons, List.forall_mem_append, and_left_comm]

theorem reads_congr
    (suits : (∀ m ∈ a, Record.Suits fields (maxDepth - 1) m.read) ↔
      ∀ m ∈ b, Record.Suits fields (maxDepth - 1) m.read)
    (once : ((entries a).map (·.1)).Nodup ↔ ((entries b).map (·.1)).Nodup)
    (alike : ((entries a).map (·.1)).Nodup →
      ∀ name, Alike name ((entries a).lookup name) ((entries b).lookup name)) :
    Reads a c ↔ Reads b c := by
  constructor
  · rintro ⟨suits', once', states⟩
    exact ⟨suits.1 suits', once.1 once', ofGiven_congr _ (alike once') ▸ states⟩
  · rintro ⟨suits', once', states⟩
    have once' := once.2 once'
    exact ⟨suits.2 suits', once', (ofGiven_congr _ (alike once')).trans states⟩

theorem reads_perm (h : a.Perm b) : Reads a c ↔ Reads b c := by
  have taken := h.filterMap fun m => Record.giving? fields m.read
  refine reads_congr ?_ (taken.map _).nodup_iff fun once name => ?_
  · exact forall_congr' fun m => by rw [h.mem_iff]
  · rw [entries, Record.lookup_perm taken once]
    exact .same _

/-- A member with a name that is not looked at gives nothing. -/
theorem reads_added {text : StringText} {s : String} (value : Source) (named : text.Is s)
    (other : s ∉ names) :
    Reads (before ++ after) c ↔ Reads (before ++ (text, value) :: after) c := by
  have fits : Record.Suits fields (maxDepth - 1) (Member.read (text, value)) := by
    rw [Record.suits_iff named.read, Record.Fits, field?_of_not_mem other]
    exact value.fault?_node
  have given : entries (before ++ (text, value) :: after) = entries (before ++ after) := by
    rw [entries_append, entries_append, entries_cons_other value named other]
  refine reads_congr ?_ (by rw [given]) fun _ name => ?_
  · rw [forall_mem_between, and_iff_right fits]
  · rw [given]
    exact .same _

/-- Both names of the roles stand for the same field. -/
theorem reads_renamed {text text' : StringText} (value : Source) (named : text.Is "realm_access")
    (named' : text'.Is "realmAccess") :
    Reads (before ++ (text, value) :: after) c ↔ Reads (before ++ (text', value) :: after) c := by
  have given : entries (before ++ (text, value) :: after) =
      entries (before ++ (text', value) :: after) := by
    rw [entries_append, entries_append, entries_cons value named rfl, entries_cons value named' rfl]
  refine reads_congr ?_ (by rw [given]) fun _ name => ?_
  · rw [forall_mem_between, forall_mem_between, Record.suits_iff named.read,
      Record.suits_iff named'.read]
    rfl
  · rw [given]
    exact .same _

theorem fits_listed (audience : StringText) :
    Record.Fits fields (maxDepth - 1) "aud" (Source.string audience).node ↔
      Record.Fits fields (maxDepth - 1) "aud" (Source.list [.string audience]).node := by
  have alike : Reader.oneOrMany (maxDepth - 1) (Source.string audience).node =
      Reader.oneOrMany (maxDepth - 1) (Source.list [.string audience]).node :=
    (Reader.oneOrMany_singleton (maxDepth - 2) audience.raw).symm
  change (Reader.oneOrMany _ _).map _ = _ ↔ (Reader.oneOrMany _ _).map _ = _
  rw [alike]

theorem reads_listed {text : StringText} (audience : StringText) (named : text.Is "aud") :
    Reads (before ++ (text, .string audience) :: after) c ↔
      Reads (before ++ (text, .list [.string audience]) :: after) c := by
  refine reads_congr ?_ ?_ fun once name => ?_
  · rw [forall_mem_between, forall_mem_between, Record.suits_iff named.read,
      Record.suits_iff named.read, fits_listed]
  · rw [entries_append, entries_append, entries_cons _ named rfl, entries_cons _ named rfl]
    simp
  · rw [entries_append, entries_cons _ named rfl, List.map_append, List.map_cons,
      List.nodup_middle] at once
    have fresh : (entries before).lookup "aud" = none :=
      Record.lookup_eq_none fun there =>
        (List.nodup_cons.1 once).1 (List.mem_append_left _ there)
    rw [entries_append, entries_append, entries_cons _ named rfl, entries_cons _ named rfl,
      Record.lookup_between _ _ _ _ _ fresh, Record.lookup_between _ _ _ _ _ fresh]
    split
    · rename_i aud
      exact .audience aud audience.raw
    · exact .same _

theorem reads_unstated {text : StringText} {s : String} (named : text.Is s)
    (optional : s ∈ optionalNames) (absent : ∀ m ∈ before ++ after, ¬ m.1.Is s) :
    Reads (before ++ after) c ↔ Reads (before ++ (text, .null) :: after) c := by
  obtain ⟨f, found, rfl, accepts⟩ := field?_of_optional optional
  have fits : Record.Fits fields (maxDepth - 1) f.name Source.null.node := by
    rw [Record.Fits, found]
    exact accepts _
  have fresh := not_mem_entries optional absent
  rw [entries_append] at fresh
  refine reads_congr ?_ ?_ fun _ name => ?_
  · rw [forall_mem_between, Record.suits_iff named.read, and_iff_right fits]
  · rw [entries_append, entries_append, entries_cons _ named found, List.map_append,
      List.map_append, List.map_cons, List.nodup_middle, List.nodup_cons, ← List.map_append,
      and_iff_right fresh]
  · have before' : (entries before).lookup f.name = none :=
      Record.lookup_eq_none fun there =>
        fresh (by rw [List.map_append]; exact List.mem_append_left _ there)
    rw [entries_append, entries_append, entries_cons _ named found,
      Record.lookup_between _ _ _ _ _ before']
    split
    · rename_i same
      rw [same, Record.lookup_eq_none fresh]
      exact .unstated optional
    · exact .same _

/-- **An object that is spelled differently reads the same.** -/
theorem Respelled.reads_iff (h : Respelled a b) : Reads a c ↔ Reads b c := by
  cases h with
  | permuted h => exact reads_perm h
  | added _ _ value named other => exact reads_added value named other
  | renamed _ _ value named named' => exact reads_renamed value named named'
  | listed _ _ audience named => exact reads_listed audience named
  | unstated _ _ named optional absent => exact reads_unstated named optional absent

/-- **An object that states something twice is not read.** -/
theorem Repeated.not_reads (h : Repeated members) : ¬ Reads members c := by
  rintro ⟨-, once, -⟩
  obtain ⟨⟨text, value⟩, ⟨text', value'⟩, s, s', sub, named, named', known, same⟩ := h
  obtain ⟨f, found⟩ := field?_of_mem known
  have found' : Record.field? fields s' = some f := by
    rcases same with rfl | ⟨access, access'⟩
    · exact found
    · rw [field?_of_access access', ← field?_of_access access, found]
  have twice := (sub.filterMap fun m => Record.giving? fields m.read).map (·.1)
  change ((entries [(text, value), (text', value')]).map _).Sublist ((entries members).map _)
    at twice
  rw [entries_cons value named found, entries_cons value' named' found'] at twice
  exact absurd (once.sublist twice) (by simp)

/-- Characters that need no escape. -/
def Free (cs : List Char) : Prop := ∀ c ∈ cs, 0x20 ≤ c.toNat ∧ c ≠ '"' ∧ c ≠ '\\'

theorem free_iff {cs : List Char} :
    cs.all (fun c => 0x20 ≤ c.toNat ∧ c ≠ '"' ∧ c ≠ '\\') = true ↔ Free cs := by
  simp [Free]

instance (cs : List Char) : Decidable (Free cs) := decidable_of_iff _ free_iff

/-- A string without escapes. -/
def unescaped (s : String) (free : Free s.toList) : StringText :=
  s.toList.pmap (fun c h => .plain c h) free

theorem unescaped_is (s : String) (free : Free s.toList) : (unescaped s free).Is s := by
  unfold unescaped StringText.Is
  generalize s.toList = cs at free ⊢
  induction cs with
  | nil => exact .nil
  | cons c cs ih => exact .plain (ih _)

/-- **Claims may be spelled in many ways.**  Blanks between the lexemes of an object make no
difference at all.  Claims that are read from an object are read from all objects that are spelled
in its place, one way after another, forth or back.  No claims are read from an object that states
something twice. -/
theorem ofString_respelled :
    (∀ members layout layout', ofString ((Source.object members).text layout) =
      ofString ((Source.object members).text layout')) ∧
    (∀ a b, Relation.EqvGen Respelled a b → ∀ layout layout' c,
      ofString ((Source.object a).text layout) = .ok c →
        ofString ((Source.object b).text layout') = .ok c) ∧
    ∀ members, Repeated members → ∀ layout c,
      ofString ((Source.object members).text layout) ≠ .ok c := by
  refine ⟨fun members layout layout' => ?_, fun a b same layout layout' c => ?_,
    fun members twice layout c read => twice.not_reads ((ofString_eq_ok_iff layout).1 read)⟩
  · rw [ofString, ofString, Source.document_text, Source.document_text]
  · rw [ofString_eq_ok_iff, ofString_eq_ok_iff]
    have each : Reads a c ↔ Reads b c := by
      induction same with
      | rel a b h => exact h.reads_iff
      | refl => rfl
      | symm a b _ ih => exact ih.symm
      | trans a b d _ _ ih ih' => exact ih.trans ih'
    exact each.1

/-- The member `"exp":1`. -/
def sampleExpiry : Member :=
  (unescaped "exp" (by decide), .number ⟨false, ⟨⟨'1', rfl⟩, []⟩, nofun, none, none⟩)

/-- Nothing between lexemes. -/
def dense : Layout := fun _ => []

/-- One blank between any two lexemes. -/
def loose : Layout := fun _ => [⟨' ', by decide⟩]

/-- The member `"aud":"x"`. -/
def sampleAudience : Member := (unescaped "aud" (by decide), .string (unescaped "x" (by decide)))

/-- The member `"aud":["x"]`. -/
def sampleAudiences : Member :=
  (unescaped "aud" (by decide), .list [.string (unescaped "x" (by decide))])

/-- An audience in a list, members in another order, and blanks; and an expiry that is stated
twice. -/
theorem ofString_respelled_audience :
    ofString "\x7b\"exp\":1,\"aud\":\"x\"\x7d" = .ok ⟨none, none, ["x"], 1, none, []⟩ ∧
    ofString " \x7b \"aud\" : [ \"x\" ] , \"exp\" : 1 \x7d " =
      .ok ⟨none, none, ["x"], 1, none, []⟩ ∧
    ∀ c, ofString "\x7b\"exp\":1,\"exp\":1\x7d" ≠ .ok c := by
  obtain ⟨-, same, twice⟩ := ofString_respelled
  have listed : Respelled [sampleExpiry, sampleAudience] [sampleExpiry, sampleAudiences] :=
    .listed [sampleExpiry] [] _ (unescaped_is ..)
  have turned : Respelled [sampleExpiry, sampleAudiences] [sampleAudiences, sampleExpiry] :=
    .permuted (.swap ..)
  have read : ofString ((Source.object [sampleExpiry, sampleAudience]).text dense) =
      .ok ⟨none, none, ["x"], 1, none, []⟩ := by
    rw [ofString, Source.document_text]
    rfl
  have read' := same _ _ (.trans _ _ _ (.rel _ _ listed) (.rel _ _ turned)) dense loose _ read
  have refused := twice [sampleExpiry, sampleExpiry]
    ⟨_, _, _, _, List.Sublist.refl _, unescaped_is .., unescaped_is .., by decide, .inl rfl⟩ dense
  have text : (Source.object [sampleExpiry, sampleAudience]).text dense =
      "\x7b\"exp\":1,\"aud\":\"x\"\x7d" := rfl
  have text' : (Source.object [sampleAudiences, sampleExpiry]).text loose =
      " \x7b \"aud\" : [ \"x\" ] , \"exp\" : 1 \x7d " := rfl
  have text'' : (Source.object [sampleExpiry, sampleExpiry]).text dense =
      "\x7b\"exp\":1,\"exp\":1\x7d" := rfl
  rw [text] at read
  rw [text'] at read'
  rw [text''] at refused
  exact ⟨read, read', refused⟩

/-- The name `"\ud800"`, half of a character. -/
def halfName : StringText :=
  [.code ⟨⟨'d', by decide⟩, ⟨'8', by decide⟩, ⟨'0', by decide⟩, ⟨'0', by decide⟩⟩]

/-- A member may not be added whose name is no string. -/
theorem not_added_halfName : ¬ ∀ (members : List Member) (text : StringText) (value : Source)
    (layout : Layout) (c : Claims), (∀ s ∈ names, ¬ text.Is s) →
      ofString ((Source.object members).text layout) = .ok c →
        ofString ((Source.object (members ++ [(text, value)])).text layout) = .ok c := by
  intro claim
  have half (s : String) : ¬ halfName.Is s := by
    intro is
    have read := is.read
    rw [show halfName.raw.read = .error .malformed from rfl] at read
    cases read
  have plain : ofString ((Source.object [sampleExpiry]).text dense) =
      .ok ⟨none, none, [], 1, none, []⟩ := by
    rw [ofString, Source.document_text]
    rfl
  have added : ofString ((Source.object [sampleExpiry, (halfName, .null)]).text dense) =
      .error .malformed := by
    rw [ofString, Source.document_text]
    rfl
  have read := claim [sampleExpiry] halfName .null dense _ (fun s _ => half s) plain
  rw [List.singleton_append, added] at read
  cases read

end BearerAuth.Claims
