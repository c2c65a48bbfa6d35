import Mathlib.Data.List.Induction
import Mathlib.Data.List.Nodup
import Mathlib.Data.String.Basic
import BearerAuth.Proofs.Json.Reading
import BearerAuth.KeySet

/-!
# How a key set comes out of a document

A document publishes values, and those that can serve become keys under their names, of each name
the last one.  What cannot serve leaves no trace, wherever it stands and whatever its name.

* `Jwk.Serves` says, without the order in which it is checked, when a value can serve as a key;
* `KeySet.get?_insert`, `KeySet.Ordered` and `KeySet.eq_of_get?` : a set is told by the keys of its
  names;
* `Jwk.ServesLast` : the last of the values that can serve under a name;
* `KeySet.get?_ofList_usable` : the key of a name is that of the last value;
* `KeySet.keys_of_document` : key sets from documents.

The proof: entries are kept in the order of their names, so that two sets with the same keys under
all names are equal.  Whatever keeps the last value of each name keeps the set.
-/

namespace BearerAuth

open Json

variable {v w : Value} {values before after : List Value} {kid k : String}
  {key key' : VerificationKey}

/-! ### Values that can serve -/

namespace Jwk

/-- A published key can serve to check signatures, under a name and as a key. -/
structure Suits (j : Jwk) (kid : String) (key : VerificationKey) : Prop where
  /-- It has the name. -/
  named : j.kid = some kid
  /-- It is not meant for encryption. -/
  notForEncryption : j.use ≠ some "enc"
  /-- It is published for the signature algorithm of the key, or for none. -/
  declared : j.alg = key.algorithm.map .signing
  /-- It can be decoded. -/
  decoded : j.material? = some key.material

/-- A published value can serve to check signatures, under a name and as a key. -/
def Serves (v : Value) (kid : String) (key : VerificationKey) : Prop :=
  ∃ j, ofValue? v = some j ∧ j.Suits kid key

/-- A published value can serve to check signatures. -/
def Usable (v : Value) : Prop := ∃ kid key, Serves v kid key

/-- The last of the values that can serve under a name serves as a key. -/
def ServesLast (values : List Value) (kid : String) (key : VerificationKey) : Prop :=
  ∃ before v after, values = before ++ v :: after ∧ Serves v kid key ∧
    ∀ w ∈ after, ∀ key', ¬ Serves w kid key'

/-- Values that cannot serve are put in between others, anywhere. -/
inductive Padded : List Value → List Value → Prop where
  /-- There is nothing. -/
  | nil : Padded [] []
  /-- A value stays where it is. -/
  | keep (v : Value) {values padded : List Value} (rest : Padded values padded) :
    Padded (v :: values) (v :: padded)
  /-- A value that cannot serve is put in. -/
  | put {v : Value} {values padded : List Value} (useless : ¬ Usable v)
    (rest : Padded values padded) : Padded values (v :: padded)

/-- No name is that of both values. -/
def Apart (v w : Value) : Prop := ∀ kid key key', Serves v kid key → ¬ Serves w kid key'

theorem signing?_eq_ok_iff {j : Jwk} {algorithm : Option Algorithm} :
    j.signing? = .ok algorithm ↔ j.alg = algorithm.map .signing := by
  unfold signing?
  rcases j.alg with _ | (_ | _ | _ | _ | _) <;> cases algorithm <;> simp

/-- The checks of a value, one after the other, accept it exactly if it can serve. -/
theorem usableKey_eq_ok_iff : usableKey v = .ok (kid, key) ↔ Serves v kid key := by
  unfold usableKey Serves
  cases read : ofValue? v with
  | none => simp
  | some j =>
    constructor
    · intro passed
      refine ⟨j, rfl, ?_⟩
      simp only at passed
      split at passed
      · cases passed
      rename_i name named
      split at passed
      · cases passed
      rename_i open_
      split at passed
      · cases passed
      rename_i algorithm signing
      split at passed <;> cases passed
      rename_i material decoded
      exact ⟨named, open_, signing?_eq_ok_iff.1 signing, decoded⟩
    · rintro ⟨_, ⟨⟩, named, open_, declared, decoded⟩
      simp only [named, if_neg open_, signing?_eq_ok_iff.2 declared, decoded]

theorem Serves.unique (h : Serves v kid key) (h' : Serves v k key') : k = kid ∧ key' = key := by
  have same := (usableKey_eq_ok_iff.2 h').symm.trans (usableKey_eq_ok_iff.2 h)
  cases same
  exact ⟨rfl, rfl⟩

theorem Apart.symm (h : Apart v w) : Apart w v := fun kid key key' hw hv => h kid key' key hv hw

end Jwk

open Jwk

/-! ### Entries -/

namespace KeySet

variable {s t : KeySet}

theorem lookup_insertEntry (entries : List (String × VerificationKey)) :
    (insertEntry kid key entries).lookup k = if k = kid then some key else entries.lookup k := by
  induction entries with
  | nil =>
    rw [insertEntry, List.lookup_cons]
    by_cases same : k = kid
    · simp [same]
    · rw [beq_false_of_ne same, if_neg same]
  | cons e rest ih =>
    unfold insertEntry
    by_cases same : k = kid
    · subst same
      simp only [if_true] at ih ⊢
      split
      · simp
      split
      · simp
      · rename_i other
        rw [List.lookup_cons, beq_false_of_ne other, ih]
    · simp only [if_neg same] at ih ⊢
      split
      · rw [List.lookup_cons, beq_false_of_ne same]
      split
      · rename_i named
        rw [List.lookup_cons, List.lookup_cons, beq_false_of_ne same, ← named,
          beq_false_of_ne same]
      · rw [List.lookup_cons, List.lookup_cons, ih]

theorem get?_insert (s : KeySet) :
    (s.insert kid key).get? k = if k = kid then some key else s.get? k :=
  lookup_insertEntry s.entries

/-- The entries are in the order of their names, and no name is there twice. -/
def Ordered (s : KeySet) : Prop := s.entries.Pairwise fun e f => e.1 < f.1

theorem mem_insertEntry {e : String × VerificationKey} {entries : List (String × VerificationKey)}
    (h : e ∈ insertEntry kid key entries) : e = (kid, key) ∨ e ∈ entries := by
  induction entries with
  | nil => exact .inl (List.mem_singleton.1 h)
  | cons f rest ih =>
    unfold insertEntry at h
    split at h
    · exact List.mem_cons.1 h
    split at h
    · exact (List.mem_cons.1 h).imp_right (List.mem_cons_of_mem _)
    · rcases List.mem_cons.1 h with rfl | behind
      · exact .inr (List.mem_cons_self ..)
      · exact (ih behind).imp_right (List.mem_cons_of_mem _)

theorem Ordered.insert (h : s.Ordered) (kid : String) (key : VerificationKey) :
    (s.insert kid key).Ordered := by
  obtain ⟨entries⟩ := s
  change (insertEntry kid key entries).Pairwise _
  induction entries with
  | nil => exact List.pairwise_singleton ..
  | cons f rest ih =>
    obtain ⟨first, behind⟩ := List.pairwise_cons.1 h
    unfold insertEntry
    split
    · rename_i less
      refine List.pairwise_cons.2 ⟨fun e he => ?_, h⟩
      rcases List.mem_cons.1 he with rfl | he
      · exact less
      · exact lt_trans less (first e he)
    split
    · rename_i same
      subst same
      exact List.pairwise_cons.2 ⟨first, behind⟩
    · rename_i notLess other
      refine List.pairwise_cons.2 ⟨fun e he => ?_, ih behind⟩
      rcases mem_insertEntry he with rfl | he
      · exact lt_of_le_of_ne (not_lt.1 notLess) (Ne.symm other)
      · exact first e he

theorem Ordered.mem_entries_iff (h : s.Ordered) :
    (kid, key) ∈ s.entries ↔ s.get? kid = some key := by
  obtain ⟨entries⟩ := s
  change _ ↔ entries.lookup kid = some key
  induction entries with
  | nil => simp
  | cons e rest ih =>
    obtain ⟨first, behind⟩ := List.pairwise_cons.1 h
    rw [List.mem_cons, ih behind, List.lookup_cons]
    by_cases same : kid = e.1
    · subst same
      -- behind its entry a name is not found again
      have gone : ¬ rest.lookup e.1 = some key := by
        intro found
        exact lt_irrefl e.1 (first (e.1, key) ((ih behind).2 found))
      simp only [gone, or_false, beq_self_eq_true, Option.some.injEq]
      exact ⟨fun own => own ▸ rfl, fun own => own ▸ rfl⟩
    · rw [beq_false_of_ne same]
      exact or_iff_right fun own => same (congrArg Prod.fst own)

/-- **Sets with the same keys under all names are equal.** -/
theorem eq_of_get? (hs : s.Ordered) (ht : t.Ordered) (same : ∀ kid, s.get? kid = t.get? kid) :
    s = t := by
  have once {s : KeySet} (h : s.Ordered) : s.entries.Nodup := by
    refine List.Pairwise.imp (fun {e f} less => ?_) h
    rintro rfl
    exact lt_irrefl _ less
  have perm : s.entries.Perm t.entries := by
    refine (List.perm_ext_iff_of_nodup (once hs) (once ht)).2 fun e => ?_
    rw [hs.mem_entries_iff, ht.mem_entries_iff, same]
  have equal : s.entries = t.entries :=
    perm.eq_of_pairwise (fun _ _ _ _ less greater => absurd less (lt_asymm greater)) hs ht
  exact congrArg KeySet.mk equal

theorem isEmpty_iff : s.isEmpty = true ↔ ∀ kid, s.get? kid = none := by
  obtain ⟨entries⟩ := s
  cases entries with
  | nil => simp [isEmpty, get?]
  | cons e rest => simpa [isEmpty, get?] using ⟨e.1, by simp⟩

/-! ### Sets of values -/

theorem ordered_ofList (keys : List (String × VerificationKey)) : (ofList keys).Ordered := by
  unfold ofList
  induction keys using List.reverseRecOn with
  | nil => exact .nil
  | append_singleton keys k ih =>
    rw [List.foldl_append]
    exact ih.insert k.1 k.2

theorem get?_ofList (keys : List (String × VerificationKey)) :
    (ofList keys).get? kid = keys.reverse.lookup kid := by
  unfold ofList
  induction keys using List.reverseRecOn with
  | nil => rfl
  | append_singleton keys k ih =>
    rw [List.foldl_append, List.reverse_append, List.foldl_cons, List.foldl_nil, get?_insert, ih,
      List.reverse_singleton, List.singleton_append, List.lookup_cons]
    by_cases same : kid = k.1
    · simp [same]
    · rw [if_neg same, beq_false_of_ne same]

theorem servesLast_concat : ServesLast (values ++ [v]) kid key ↔
    Serves v kid key ∨ (∀ key', ¬ Serves v kid key') ∧ ServesLast values kid key := by
  constructor
  · rintro ⟨before, w, after, split, serves, last⟩
    cases after using List.reverseRecOn with
    | nil =>
      obtain ⟨-, own⟩ := List.append_inj' split rfl
      cases own
      exact .inl serves
    | append_singleton after x =>
      rw [← List.cons_append, ← List.append_assoc] at split
      obtain ⟨rfl, own⟩ := List.append_inj' split rfl
      cases own
      exact .inr ⟨last v (by simp), before, w, after, rfl, serves,
        fun x hx => last x (List.mem_append_left _ hx)⟩
  · rintro (serves | ⟨other, before, w, after, rfl, serves, last⟩)
    · exact ⟨values, v, [], rfl, serves, nofun⟩
    · refine ⟨before, w, after ++ [v], by simp, serves, fun x hx => ?_⟩
      rcases List.mem_append.1 hx with hx | hx
      · exact last x hx
      · exact List.mem_singleton.1 hx ▸ other

theorem exists_servesLast (hv : v ∈ values) (h : Serves v kid key) :
    ∃ key', ServesLast values kid key' := by
  induction values using List.reverseRecOn with
  | nil => cases hv
  | append_singleton values w ih =>
    by_cases own : ∃ key', Serves w kid key'
    · obtain ⟨key', serves⟩ := own
      exact ⟨key', servesLast_concat.2 (.inl serves)⟩
    · rcases List.mem_append.1 hv with before | last
      · obtain ⟨key', serves⟩ := ih before
        exact ⟨key', servesLast_concat.2 (.inr ⟨not_exists.1 own, serves⟩)⟩
      · exact absurd ⟨key, List.mem_singleton.1 last ▸ h⟩ own

/-- Where no two values share a name, each is the last under its own. -/
theorem servesLast_iff_of_apart (apart : values.Pairwise Apart) :
    ServesLast values kid key ↔ ∃ v ∈ values, Serves v kid key := by
  constructor
  · rintro ⟨before, v, after, rfl, serves, -⟩
    exact ⟨v, by simp, serves⟩
  · rintro ⟨v, hv, serves⟩
    obtain ⟨before, after, rfl⟩ := List.append_of_mem hv
    refine ⟨before, v, after, rfl, serves, fun w hw key' => ?_⟩
    exact (List.pairwise_cons.1 (List.pairwise_append.1 apart).2.1).1 w hw kid key key' serves

theorem usable_append (values values' : List Value) :
    usable (values ++ values') = usable values ++ usable values' := List.filterMap_append

theorem usable_eq_nil (useless : ∀ v ∈ values, ¬ Usable v) : usable values = [] := by
  refine List.filterMap_eq_nil_iff.2 fun v hv => ?_
  cases checked : usableKey v with
  | error e => rfl
  | ok entry => exact absurd ⟨entry.1, entry.2, usableKey_eq_ok_iff.1 checked⟩ (useless v hv)

theorem usable_of_padded {padded : List Value} (h : Padded values padded) :
    usable padded = usable values := by
  induction h with
  | nil => rfl
  | keep v _ ih => rw [usable, List.filterMap_cons, ← usable, ih]; rfl
  | put useless _ ih =>
    rename_i v _ padded _
    rw [← List.singleton_append, usable_append,
      usable_eq_nil fun w hw => List.mem_singleton.1 hw ▸ useless, List.nil_append, ih]

theorem usable_singleton (h : Serves v kid key) : usable [v] = [(kid, key)] := by
  simp [usable, usableKey_eq_ok_iff.2 h, Except.toOption]

/-- What serves last under a name is found first from behind. -/
theorem lookup_usable_iff :
    (usable values).reverse.lookup kid = some key ↔ ServesLast values kid key := by
  induction values using List.reverseRecOn with
  | nil => simp [usable, ServesLast]
  | append_singleton values v ih =>
    rw [servesLast_concat, ← ih, usable_append, List.reverse_append]
    by_cases served : Usable v
    · obtain ⟨kid', key', serves⟩ := served
      rw [usable_singleton serves, List.reverse_singleton, List.singleton_append, List.lookup_cons]
      by_cases same : kid = kid'
      · subst same
        rw [beq_self_eq_true]
        constructor
        · rintro ⟨⟩
          exact .inl serves
        · rintro (own | ⟨other, -⟩)
          · rw [(serves.unique own).2]
          · exact absurd serves (other key')
      · rw [beq_false_of_ne same]
        have other (key : VerificationKey) : ¬ Serves v kid key :=
          fun own => same (serves.unique own).1
        simp [other]
    · have other (key : VerificationKey) : ¬ Serves v kid key := fun own => served ⟨kid, key, own⟩
      rw [usable_eq_nil fun w hw => List.mem_singleton.1 hw ▸ served]
      simp [other]

/-- **The key of a name is that of the last value that can serve under it.** -/
theorem get?_ofList_usable :
    (ofList (usable values)).get? kid = some key ↔ ServesLast values kid key := by
  rw [get?_ofList, lookup_usable_iff]

theorem isEmpty_ofList_usable (values : List Value) :
    (ofList (usable values)).isEmpty = true ↔ ∀ v ∈ values, ¬ Usable v := by
  rw [isEmpty_iff]
  constructor
  · rintro empty v hv ⟨kid, key, serves⟩
    obtain ⟨key', last⟩ := exists_servesLast hv serves
    rw [← get?_ofList_usable, empty kid] at last
    cases last
  · intro useless kid
    rw [usable_eq_nil useless]
    rfl

/-- Values make the same set if the same of them serve last. -/
theorem ofValues_congr {values' : List Value}
    (same : ∀ kid key, ServesLast values kid key ↔ ServesLast values' kid key) :
    ofValues values = ofValues values' := by
  have equal : ofList (usable values) = ofList (usable values') := by
    refine eq_of_get? (ordered_ofList _) (ordered_ofList _) fun kid => Option.ext fun key => ?_
    rw [get?_ofList_usable, get?_ofList_usable, same]
  unfold ofValues
  rw [equal]

/-! ### Documents -/

variable {doc doc' : Document} {keys : KeySet} {f : Failure}

theorem ofDocument_of_valuesOf (read : valuesOf doc = .ok values) :
    ofDocument doc = ofValues values := by
  unfold ofDocument
  rw [read]

theorem ofValues_eq_ok_iff : ofValues values = .ok keys ↔
    (∃ v ∈ values, Usable v) ∧ ofList (usable values) = keys := by
  have filled := isEmpty_ofList_usable values
  unfold ofValues
  dsimp only
  split
  · rename_i empty
    have useless := filled.1 empty
    constructor
    · nofun
    · rintro ⟨⟨v, hv, usable⟩, -⟩
      exact absurd usable (useless v hv)
  · rename_i some
    have served : ∃ v ∈ values, Usable v := by
      by_contra none
      exact some (filled.2 fun v hv usable => none ⟨v, hv, usable⟩)
    rw [Except.ok.injEq, and_iff_right served]

theorem keySource_of_ofValues (h : ofValues values = .error f) : ∃ why, f = .keySource why := by
  unfold ofValues at h
  dsimp only at h
  split at h <;> cases h
  exact ⟨_, rfl⟩

theorem keySource_of_ofDocument (h : ofDocument doc = .error f) : ∃ why, f = .keySource why := by
  unfold ofDocument at h
  split at h
  · cases h
    exact ⟨_, rfl⟩
  · exact keySource_of_ofValues h

/-- A document fails exactly if it is none of values or none of its values can serve. -/
theorem ofDocument_fails_iff : (∃ f, ofDocument doc = .error f) ↔
    (∃ fault, valuesOf doc = .error fault) ∨
      ∃ values, valuesOf doc = .ok values ∧ ∀ v ∈ values, ¬ Usable v := by
  cases read : valuesOf doc with
  | error fault =>
    refine ⟨fun _ => .inl ⟨fault, rfl⟩, fun _ => ?_⟩
    unfold ofDocument
    rw [read]
    exact ⟨_, rfl⟩
  | ok values =>
    rw [ofDocument_of_valuesOf read, ofValues]
    split
    · rename_i empty
      exact ⟨fun _ => .inr ⟨values, rfl, (isEmpty_ofList_usable values).1 empty⟩, fun _ => ⟨_, rfl⟩⟩
    · rename_i some
      constructor
      · rintro ⟨f, ⟨⟩⟩
      · rintro (⟨fault, ⟨⟩⟩ | ⟨_, ⟨⟩, useless⟩)
        exact absurd ((isEmpty_ofList_usable _).2 useless) some

/-- **Key sets from documents.**  A document fails, as a source, exactly if it is none of values or
none of its values can serve.  Otherwise a name has the key, with the algorithm it was published
for, of the last value that can serve under it, and a name under which none can has no key.

So values that cannot serve may be put in and taken out anywhere, and the outcome is the same.  A
value that can serve is not replaced by later ones that cannot, whatever their names.  And where no
two values share a name, their order does not matter. -/
theorem keys_of_document (doc : Document) :
    ((∃ f, ofDocument doc = .error f) ↔
      (∃ fault, valuesOf doc = .error fault) ∨
        ∃ values, valuesOf doc = .ok values ∧ ∀ v ∈ values, ¬ Usable v) ∧
    (∀ f, ofDocument doc = .error f → ∃ why, f = .keySource why) ∧
    (∀ values keys, valuesOf doc = .ok values → ofDocument doc = .ok keys →
      ∀ kid key, keys.get? kid = some key ↔ ServesLast values kid key) ∧
    (∀ doc' values padded, valuesOf doc = .ok values → valuesOf doc' = .ok padded →
      Padded values padded → ofDocument doc' = ofDocument doc) ∧
    (∀ before v after kid key, valuesOf doc = .ok (before ++ v :: after) → Serves v kid key →
      (∀ w ∈ after, ∀ key', ¬ Serves w kid key') →
        ∃ keys, ofDocument doc = .ok keys ∧ keys.get? kid = some key) ∧
    ∀ doc' values values', valuesOf doc = .ok values → valuesOf doc' = .ok values' →
      values'.Perm values → values.Pairwise Apart → ofDocument doc' = ofDocument doc := by
  refine ⟨ofDocument_fails_iff, fun f => keySource_of_ofDocument, ?_, ?_, ?_, ?_⟩
  · intro values keys read made kid key
    rw [ofDocument_of_valuesOf read, ofValues_eq_ok_iff] at made
    rw [← made.2, get?_ofList_usable]
  · intro doc' values padded read read' put
    rw [ofDocument_of_valuesOf read, ofDocument_of_valuesOf read', ofValues, ofValues,
      usable_of_padded put]
  · intro before v after kid key read serves last
    have served : ∃ w ∈ before ++ v :: after, Usable w := ⟨v, by simp, kid, key, serves⟩
    exact ⟨_, (ofDocument_of_valuesOf read).trans (ofValues_eq_ok_iff.2 ⟨served, rfl⟩),
      get?_ofList_usable.2 ⟨before, v, after, rfl, serves, last⟩⟩
  · intro doc' values values' read read' perm apart
    have apart' : values'.Pairwise Apart := perm.symm.pairwise apart Apart.symm
    rw [ofDocument_of_valuesOf read, ofDocument_of_valuesOf read']
    refine ofValues_congr fun kid key => ?_
    rw [servesLast_iff_of_apart apart, servesLast_iff_of_apart apart']
    exact exists_congr fun v => and_congr_left' perm.mem_iff

/-- A text that publishes three keys: the second has the name of the first, and is for
encryption. -/
def sampleJwks : String :=
  "\x7b\"keys\":[\x7b\"kty\":\"oct\",\"kid\":\"a\",\"k\":\"AQAB\"\x7d," ++
    "\x7b\"kty\":\"oct\",\"kid\":\"a\",\"k\":\"AQAC\",\"use\":\"enc\"\x7d," ++
    "\x7b\"kty\":\"oct\",\"kid\":\"b\",\"k\":\"AQAD\"\x7d]\x7d"

theorem served_sampleJwks :
    (valuesOf (.ofString sampleJwks)).toOption.map (·.map fun v => (usableKey v).toOption) =
      some [some ("a", ⟨.secret [1, 0, 1], none⟩), none,
        some ("b", ⟨.secret [1, 0, 3], none⟩)] := by
  decide +kernel

/-- The first key is not replaced by the second. -/
theorem keys_of_document_sampleJwks :
    ∃ keys, ofDocument (.ofString sampleJwks) = .ok keys ∧
      keys.get? "a" = some ⟨.secret [1, 0, 1], none⟩ := by
  obtain ⟨values, read, served⟩ := Option.map_eq_some_iff.1 served_sampleJwks
  obtain ⟨v, rest, rfl, first, served⟩ := List.map_eq_cons_iff.1 served
  obtain ⟨w, rest, rfl, second, served⟩ := List.map_eq_cons_iff.1 served
  obtain ⟨x, rest, rfl, third, served⟩ := List.map_eq_cons_iff.1 served
  obtain rfl := List.map_eq_nil_iff.1 served
  have serves := usableKey_eq_ok_iff.1 (eq_ok_of_toOption first)
  refine (keys_of_document _).2.2.2.2.1 [] v [w, x] "a" _ (eq_ok_of_toOption read) serves ?_
  intro y hy key' own
  have checked := congrArg Except.toOption (usableKey_eq_ok_iff.2 own)
  simp only [List.mem_cons, List.not_mem_nil, or_false] at hy
  rcases hy with rfl | rfl
  · rw [second] at checked
    cases checked
  · rw [third] at checked
    simp [Except.toOption] at checked

end KeySet

end BearerAuth
