import BearerAuth.Proofs.KeySet.Construction
import BearerAuth.Proofs.Text.OctetOrder

/-!
# The views of a key set

A set can be asked for the key of a name, whether it has one, for all its names, and for their
number.  The answers agree with each other, and with what the document of the set publishes.

* `KeySet.mem_keyIds_iff`, `KeySet.contains_iff` : the names are those that have a key;
* `KeySet.Ordered.keyIds` : they are listed once each, in the order of their octets;
* `KeySet.isSome_get?_ofList_usable` : a name has a key if a value can serve under it;
* `KeySet.views_agree` : sets from documents.

The proof: names and keys are kept as pairs in the order of the names, and this order is that of
their octets.  A name with a key is the name of the last value that can serve under it.
-/

namespace BearerAuth.KeySet

open Json Jwk Text

variable {s keys : KeySet} {kid : String} {key : VerificationKey} {values : List Value}
  {doc : Document}

/-! ### Views of any set -/

theorem mem_keyIds_iff : kid ∈ s.keyIds ↔ s.contains kid = true := by
  simp only [keyIds, contains, List.mem_map, List.any_eq_true, beq_iff_eq]

theorem contains_iff : s.contains kid = true ↔ (s.get? kid).isSome = true := by
  rw [contains, get?, List.any_eq_true, List.lookup_isSome_iff]
  simp only [beq_iff_eq, eq_comm (a := kid)]

theorem size_eq (s : KeySet) : s.size = s.keyIds.length := (List.length_map _).symm

theorem Ordered.keyIds (h : s.Ordered) :
    s.keyIds.Pairwise fun a b => Utf8.octets a < Utf8.octets b := by
  refine List.pairwise_map.2 (h.imp fun less => ?_)
  exact Utf8.octets_lt_octets_iff.2 less

/-! ### Sets of documents -/

theorem isSome_get?_ofList_usable :
    ((ofList (usable values)).get? kid).isSome = true ↔ ∃ v ∈ values, ∃ key, Serves v kid key := by
  rw [Option.isSome_iff_exists]
  constructor
  · rintro ⟨key, found⟩
    obtain ⟨before, v, after, rfl, serves, -⟩ := get?_ofList_usable.1 found
    exact ⟨v, by simp, key, serves⟩
  · rintro ⟨v, hv, key, serves⟩
    -- the key need not be that of this value: a later one may have replaced it
    obtain ⟨key', last⟩ := exists_servesLast hv serves
    exact ⟨key', get?_ofList_usable.2 last⟩

/-- What a document gives is the set of its values, of which one can serve. -/
theorem ofDocument_eq_ok_iff : ofDocument doc = .ok keys ↔
    ∃ values, valuesOf doc = .ok values ∧ (∃ v ∈ values, Usable v) ∧
      ofList (usable values) = keys := by
  unfold ofDocument
  cases valuesOf doc with
  | error fault => simp
  | ok values => simp [ofValues_eq_ok_iff]

/-- **The views of a set agree.**  A set from a document lists its names in the strict order of
their octets, so that none is there twice.  A name is listed exactly if the set says that it has a
key for it, if it finds the key, and if the document publishes a value that can serve under that
name.  The number of keys is that of the names, and there is at least one. -/
theorem views_agree (doc : Document) (keys : KeySet) (made : ofDocument doc = .ok keys) :
    keys.keyIds.Pairwise (fun a b => Utf8.octets a < Utf8.octets b) ∧
    (∀ kid,
      (kid ∈ keys.keyIds ↔ keys.contains kid = true) ∧
      (keys.contains kid = true ↔ (keys.get? kid).isSome = true) ∧
      ((keys.get? kid).isSome = true ↔
        ∃ values, valuesOf doc = .ok values ∧ ∃ v ∈ values, ∃ key, Serves v kid key)) ∧
    keys.size = keys.keyIds.length ∧ keys.isEmpty = false := by
  obtain ⟨values, read, ⟨v, hv, serves⟩, rfl⟩ := ofDocument_eq_ok_iff.1 made
  have published (kid : String) : ((ofList (usable values)).get? kid).isSome = true ↔
      ∃ values, valuesOf doc = .ok values ∧ ∃ v ∈ values, ∃ key, Serves v kid key := by
    rw [isSome_get?_ofList_usable, read]
    simp
  have filled : (ofList (usable values)).isEmpty = false := by
    rw [← Bool.not_eq_true, isEmpty_ofList_usable]
    exact fun useless => useless v hv serves
  exact ⟨(ordered_ofList _).keyIds, fun kid => ⟨mem_keyIds_iff, contains_iff, published kid⟩,
    size_eq _, filled⟩

/-- A text that publishes keys under three names, one of them twice and one of them empty. -/
def sampleNames : String :=
  "\x7b\"keys\":[\x7b\"kty\":\"oct\",\"kid\":\"😀\",\"k\":\"AQAB\"\x7d," ++
    "\x7b\"kty\":\"oct\",\"kid\":\"ﬀ\",\"k\":\"AQAB\"\x7d," ++
    "\x7b\"kty\":\"oct\",\"kid\":\"\",\"k\":\"AQAB\"\x7d," ++
    "\x7b\"kty\":\"oct\",\"kid\":\"ﬀ\",\"k\":\"AQAC\"\x7d]\x7d"

/-- The names of the text are listed in the order of their octets, which is not that of their units
of 16 bits. -/
theorem views_agree_sampleNames :
    ∃ keys, ofDocument (.ofString sampleNames) = .ok keys ∧ keys.keyIds = ["", "ﬀ", "😀"] ∧
      keys.keyIds.Pairwise (fun a b => Utf8.octets a < Utf8.octets b) ∧
      keys.contains "ﬀ" = true ∧ keys.size = 3 := by
  have read : ((KeySet.ofString sampleNames).toOption.map KeySet.keyIds) =
      some ["", "ﬀ", "😀"] := by
    decide +kernel
  obtain ⟨keys, made, named⟩ := Option.map_eq_some_iff.1 read
  have made := eq_ok_of_toOption made
  obtain ⟨increasing, views, counted, -⟩ := views_agree (.ofString sampleNames) keys made
  refine ⟨keys, made, named, increasing, (views "ﬀ").1.1 ?_, ?_⟩
  · rw [named]
    simp
  · rw [counted, named]
    rfl

end BearerAuth.KeySet
