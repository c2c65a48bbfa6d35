import BearerAuth.Proofs.Token.Spellings
import BearerAuth.Roles
import Mathlib.Data.Finset.Card

/-!
# Tables of roles

A table of roles is made from pairs, or read from an object that lists the pairs as its members.
Both ways give the same table, also where a provider role is repeated: its last pair counts.

* `StringText.exists_is` : every string can be spelled;
* `RoleTable.Lists` says that an object lists some pairs;
* `RoleTable.get?_ofPairs` : a role is looked up from the last pair to the first;
* `RoleTable.tables_agree` : both ways, and what becomes of a list of roles.

The proof: of each pair the object is read back by an induction on the members.  The table is
described by an induction from the last pair, which overwrites what the ones before it say of its
role.
-/

namespace BearerAuth

open Json

/-! ### Strings that are spelled -/

theorem Json.HexDigit.exists_value {d : Nat} (small : d < 16) : ∃ h : HexDigit, h.value = d := by
  have each : ∀ d : Fin 16, ∃ h : HexDigit, h.value = d.val := by
    intro d
    refine ⟨⟨Nat.digitChar d.val, ?_⟩, ?_⟩
    · revert d
      decide
    · revert d
      decide
  exact each ⟨d, small⟩

theorem Json.Code.exists_number {n : Nat} (small : n < 0x20) : ∃ k : Code, k.number = n := by
  obtain ⟨zero, none⟩ := HexDigit.exists_value (d := 0) (by omega)
  obtain ⟨third, high⟩ := HexDigit.exists_value (d := n / 16) (by omega)
  obtain ⟨last, low⟩ := HexDigit.exists_value (d := n % 16) (by omega)
  refine ⟨⟨zero, zero, third, last⟩, ?_⟩
  rw [Code.number, none, high, low]
  omega

/-- **Every string can be spelled**: a character that may not stand for itself is written by a
letter or by its number. -/
theorem Json.StringText.exists_is (s : String) : ∃ text : StringText, text.Is s := by
  unfold StringText.Is
  generalize s.toList = cs
  induction cs with
  | nil => exact ⟨[], .nil⟩
  | cons c cs ih =>
    obtain ⟨text, others⟩ := ih
    by_cases quote : c = '"'
    · subst quote
      exact ⟨.letter '"' '"' (by decide) :: text, .letter others⟩
    by_cases backslash : c = '\\'
    · subst backslash
      exact ⟨.letter '\\' '\\' (by decide) :: text, .letter others⟩
    by_cases control : c.toNat < 0x20
    · obtain ⟨k, number⟩ := Code.exists_number control
      have spelled := StringText.Spells.code (k := k) (by omega) others
      rw [number, Char.ofNat_toNat] at spelled
      exact ⟨.code k :: text, spelled⟩
    · exact ⟨.plain c ⟨Nat.not_lt.1 control, quote, backslash⟩ :: text, .plain others⟩

namespace RoleTable

variable {members : List (StringText × Source)} {pairs : List (String × String)} {t : RoleTable}
  {provider role r : String}

/-! ### Objects that list pairs -/

/-- A member states a pair: it has the one as its name and the other as its value. -/
def States (m : StringText × Source) (q : String × String) : Prop :=
  m.1.Is q.1 ∧ ∃ text, m.2 = .string text ∧ text.Is q.2

/-- The members of an object state some pairs, in order. -/
abbrev Lists : List (StringText × Source) → List (String × String) → Prop := List.Forall₂ States

/-- All pairs can be listed. -/
theorem exists_lists (pairs : List (String × String)) : ∃ members, Lists members pairs := by
  induction pairs with
  | nil => exact ⟨[], .nil⟩
  | cons q pairs ih =>
    obtain ⟨members, lists⟩ := ih
    obtain ⟨name, named⟩ := StringText.exists_is q.1
    obtain ⟨text, valued⟩ := StringText.exists_is q.2
    exact ⟨(name, .string text) :: members, .cons ⟨named, text, rfl, valued⟩ lists⟩

/-- An object that lists pairs is read as the pairs. -/
theorem stringMap_of_lists (lists : Lists members pairs) (room : Nat) :
    Reader.stringMap (room + 1) (Source.object members).node = .ok pairs := by
  have each : (members.map fun m => (m.1.raw, m.2.node)).mapM
      (fun x : RawString × Node => do
        let name ← x.1.read
        let value ← Reader.string room x.2
        pure (name, value)) = .ok pairs := by
    induction lists with
    | nil => rfl
    | cons states _ ih =>
      obtain ⟨named, text, valued, is⟩ := states
      rw [List.map_cons, List.mapM_cons, ih, valued]
      simp only [Source.node, Reader.string, named.read, is.read]
      rfl
  rw [Source.node, Source.memberNodes_eq]
  simp only [Reader.stringMap, Reader.enter, each]
  rfl

/-- **A table is read from an object as it is made from the pairs.** -/
theorem ofString_of_lists (lists : Lists members pairs) (layout : Layout) :
    ofString ((Source.object members).text layout) = .ok (ofPairs pairs) := by
  have read : Reader.stringMap maxDepth (Source.object members).node = .ok pairs :=
    stringMap_of_lists lists _
  rw [ofString, Source.document_text, Document.read, reader, read]
  rfl

/-! ### What a table says -/

theorem lookup_filter_ne (entries : List (String × String)) (provider r : String) :
    (entries.filter (·.1 != provider)).lookup r =
      if r = provider then none else entries.lookup r := by
  induction entries with
  | nil => exact (ite_self none).symm
  | cons e entries ih =>
    by_cases own : e.1 = provider
    · rw [List.filter_cons_of_neg (by simp [own]), ih]
      split
      · rfl
      · rename_i other
        rw [List.lookup_cons, beq_false_of_ne (own ▸ other)]
    · rw [List.filter_cons_of_pos (by simp [own]), List.lookup_cons, List.lookup_cons, ih]
      by_cases same : r = e.1
      · simp [same, own]
      · rw [beq_false_of_ne same]

theorem get?_insert (t : RoleTable) (provider role r : String) :
    (t.insert provider role).get? r = if r = provider then some role else t.get? r := by
  rw [get?, insert, List.lookup_append, lookup_filter_ne, List.lookup_singleton]
  by_cases own : r = provider
  · simp [own]
  · simp [own, get?]

theorem ofPairs_concat (pairs : List (String × String)) (q : String × String) :
    ofPairs (pairs ++ [q]) = (ofPairs pairs).insert q.1 q.2 := by
  rw [ofPairs, List.foldl_append]
  rfl

/-- **A role is looked up from the last pair to the first.** -/
theorem get?_ofPairs (pairs : List (String × String)) (r : String) :
    (ofPairs pairs).get? r = pairs.reverse.lookup r := by
  induction pairs using List.reverseRecOn with
  | nil => rfl
  | append_singleton pairs q ih =>
    rw [ofPairs_concat, get?_insert, List.reverse_append, List.reverse_singleton,
      List.singleton_append, List.lookup_cons, ih]
    by_cases same : r = q.1
    · rw [if_pos same, same, beq_self_eq_true]
    · rw [if_neg same, beq_false_of_ne same]

theorem keys_ofPairs (pairs : List (String × String)) :
    ((ofPairs pairs).entries.map Prod.fst).Nodup ∧
      ∀ r, r ∈ (ofPairs pairs).entries.map Prod.fst ↔ r ∈ pairs.map Prod.fst := by
  induction pairs using List.reverseRecOn with
  | nil => exact ⟨List.nodup_nil, fun r => Iff.rfl⟩
  | append_singleton pairs q ih =>
    obtain ⟨once, same⟩ := ih
    rw [ofPairs_concat, insert, List.map_append, List.map_singleton]
    have others : ((ofPairs pairs).entries.filter (·.1 != q.1)).map Prod.fst =
        ((ofPairs pairs).entries.map Prod.fst).filter (· != q.1) := by
      rw [List.filter_map]
      rfl
    rw [others]
    refine ⟨?_, fun r => ?_⟩
    · refine List.nodup_append.2 ⟨once.filter _, List.nodup_singleton _, fun a ha b hb => ?_⟩
      rw [List.mem_singleton.1 hb]
      exact bne_iff_ne.1 (List.mem_filter.1 ha).2
    · rw [List.map_append, List.mem_append, List.mem_append, List.mem_filter, same]
      by_cases own : r = q.1
      · simp [own]
      · simp [own]

theorem size_ofPairs (pairs : List (String × String)) :
    (ofPairs pairs).size = (pairs.map Prod.fst).toFinset.card := by
  obtain ⟨once, same⟩ := keys_ofPairs pairs
  have keys : (pairs.map Prod.fst).toFinset = ((ofPairs pairs).entries.map Prod.fst).toFinset := by
    ext r
    rw [List.mem_toFinset, List.mem_toFinset, same]
  rw [keys, List.toFinset_card_of_nodup once, List.length_map]
  rfl

/-- A role has the entry of its last pair. -/
theorem get?_eq_some_iff : (ofPairs pairs).get? r = some role ↔
    ∃ before after, pairs = before ++ (r, role) :: after ∧ ∀ q ∈ after, q.1 ≠ r := by
  rw [get?_ofPairs, List.lookup_eq_some_iff]
  constructor
  · rintro ⟨after, before, reversed, others⟩
    refine ⟨before.reverse, after.reverse, ?_, fun q hq => ?_⟩
    · rw [← List.reverse_reverse pairs, reversed]
      simp
    · exact (bne_iff_ne.1 (others q (List.mem_reverse.1 hq))).symm
  · rintro ⟨before, after, rfl, others⟩
    refine ⟨after.reverse, before.reverse, by simp, fun q hq => ?_⟩
    exact bne_iff_ne.2 (others q (List.mem_reverse.1 hq)).symm

theorem get?_eq_none_iff : (ofPairs pairs).get? r = none ↔ ∀ q ∈ pairs, q.1 ≠ r := by
  rw [get?_ofPairs, List.lookup_eq_none_iff]
  refine forall_congr' fun q => ?_
  rw [List.mem_reverse, bne_iff_ne, ne_comm]

theorem forall₂_translate (t : RoleTable) (roles : List String) :
    List.Forall₂ (fun r role => t.get? r = some role)
      (roles.filter fun r => (t.get? r).isSome) (t.translate roles) := by
  induction roles with
  | nil => exact .nil
  | cons r roles ih =>
    cases found : t.get? r with
    | none =>
      rw [translate, List.filterMap_cons_none found, List.filter_cons_of_neg (by simp [found])]
      exact ih
    | some role =>
      rw [translate, List.filterMap_cons_some found, List.filter_cons_of_pos (by simp [found])]
      exact .cons found ih

/-! ### Both ways to a table -/

/-- **Both ways to a table agree.**  All pairs can be listed as the members of an object, and the
table that is read from such an object is the table of the pairs, however it is spelled.  A role has
the entry of its last pair, and none if no pair has it; the table has as many roles as the pairs.
Of a list of roles those are translated that have an entry, in their order and as often as they
occur, so that a list may be translated piece by piece. -/
theorem tables_agree (pairs : List (String × String)) :
    ((∃ members, Lists members pairs) ∧
      ∀ members, Lists members pairs → ∀ layout,
        ofString ((Source.object members).text layout) = .ok (ofPairs pairs)) ∧
    ((∀ r role, (ofPairs pairs).get? r = some role ↔
        ∃ before after, pairs = before ++ (r, role) :: after ∧ ∀ q ∈ after, q.1 ≠ r) ∧
      ∀ r, (ofPairs pairs).get? r = none ↔ ∀ q ∈ pairs, q.1 ≠ r) ∧
    (ofPairs pairs).size = (pairs.map Prod.fst).toFinset.card ∧
    (∀ roles, List.Forall₂ (fun r role => (ofPairs pairs).get? r = some role)
      (roles.filter fun r => ((ofPairs pairs).get? r).isSome) ((ofPairs pairs).translate roles)) ∧
    ∀ xs ys, (ofPairs pairs).translate (xs ++ ys) =
      (ofPairs pairs).translate xs ++ (ofPairs pairs).translate ys := by
  refine ⟨⟨exists_lists pairs, fun members lists layout => ofString_of_lists lists layout⟩,
    ⟨fun r role => get?_eq_some_iff, fun r => get?_eq_none_iff⟩, size_ofPairs pairs,
    fun roles => forall₂_translate _ roles, fun xs ys => translate_append _ xs ys⟩

/-- The member `"\/ops":"w"`. -/
def sampleEscaped : StringText × Source :=
  (.letter '/' '/' (by decide) :: Claims.unescaped "ops" (by decide),
    .string (Claims.unescaped "w" (by decide)))

/-- The member `"b":"y"`. -/
def samplePlain : StringText × Source :=
  (Claims.unescaped "b" (by decide), .string (Claims.unescaped "y" (by decide)))

/-- The member `"/ops":"z"`. -/
def sampleAgain : StringText × Source :=
  (Claims.unescaped "/ops" (by decide), .string (Claims.unescaped "z" (by decide)))

/-- A provider role is stated twice, the first time with an escape. -/
theorem tables_agree_again :
    ofString "\x7b\"\\/ops\":\"w\",\"b\":\"y\",\"/ops\":\"z\"\x7d" =
        .ok (ofPairs [("/ops", "w"), ("b", "y"), ("/ops", "z")]) ∧
      (ofPairs [("/ops", "w"), ("b", "y"), ("/ops", "z")]).get? "/ops" = some "z" := by
  obtain ⟨⟨-, read⟩, ⟨found, -⟩, -⟩ := tables_agree [("/ops", "w"), ("b", "y"), ("/ops", "z")]
  have states : States sampleEscaped ("/ops", "w") :=
    ⟨.letter (Claims.unescaped_is "ops" _), _, rfl, Claims.unescaped_is ..⟩
  have states' : States samplePlain ("b", "y") :=
    ⟨Claims.unescaped_is .., _, rfl, Claims.unescaped_is ..⟩
  have states'' : States sampleAgain ("/ops", "z") :=
    ⟨Claims.unescaped_is .., _, rfl, Claims.unescaped_is ..⟩
  have read := read _ (.cons states (.cons states' (.cons states'' .nil))) Claims.dense
  have text : (Source.object [sampleEscaped, samplePlain, sampleAgain]).text Claims.dense =
      "\x7b\"\\/ops\":\"w\",\"b\":\"y\",\"/ops\":\"z\"\x7d" := rfl
  rw [text] at read
  exact ⟨read, (found "/ops" "z").2 ⟨[("/ops", "w"), ("b", "y")], [], rfl, nofun⟩⟩

end RoleTable

end BearerAuth
