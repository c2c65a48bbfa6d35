import BearerAuth.KeySource
import BearerAuth.Proofs.KeySet.Construction
import BearerAuth.Proofs.Text.Utf8

/-!
# Sources of keys read the same documents

A document of keys reaches a source as a text, or as the octets of an answer over the network.
Which way it comes makes no difference to the keys, and a failure is one of the source either way.

* `Document.ofOctets_octets` : the octets of a text are read as the text;
* `KeySource.keysOf_eq_ok_iff`, `KeySource.keySource_of_keysOf` : what an exchange brings;
* `KeySource.same_documents` : both sources agree on every text.
-/

namespace BearerAuth

open Json KeySet

theorem Json.Document.ofOctets_octets (s : String) :
    Document.ofOctets (Text.Utf8.octets s) = .ofString s := by
  rw [Document.ofOctets, Text.Utf8.decode_octets, Document.ofString]

theorem Exchange.document?_eq {e : Exchange} {r : Response} (answered : e.answer = some r)
    (fine : r.isError = false) : e.document? = some (.ofOctets r.body) := by
  simp [document?, answered, fine]

theorem Exchange.document?_eq_none {e : Exchange} {r : Response} (answered : e.answer = some r)
    (bad : r.isError = true) : e.document? = none := by
  simp [document?, answered, bad]

theorem Response.isError_eq_false {r : Response} (success : 200 ≤ r.status ∧ r.status < 300) :
    r.isError = false := by
  simp [isError]
  omega

namespace KeySource

variable {e : Exchange} {doc : Document} {keys : KeySet} {f : Failure}

theorem keysOf_eq_ok_iff (h : e.document? = some doc) :
    keysOf e = .ok keys ↔ ofDocument doc = .ok keys := by
  unfold keysOf ofDocument
  rw [h, Option.bind_some]
  cases valuesOf doc with
  | error fault => simp [Except.toOption]
  | ok values => rfl

theorem keySource_of_keysOf (h : keysOf e = .error f) : ∃ why, f = .keySource why := by
  unfold keysOf at h
  split at h
  · cases h
    exact ⟨_, rfl⟩
  · exact keySource_of_ofValues h

/-- **Both sources read the same documents.**  A text that comes as the body of a successful answer
gives the same keys as a fixed document of that text, and fails exactly if that fails; both failures
are failures of the source. -/
theorem same_documents (net : Network) (url text : String) (r : Response)
    (answered : (net.get url).answer = some r) (success : 200 ≤ r.status ∧ r.status < 300)
    (body : r.body = Text.Utf8.octets text) :
    ((fixed text).fetch net).result = KeySet.ofString text ∧
      (∀ keys, ((http url).fetch net).result = .ok keys ↔
        ((fixed text).fetch net).result = .ok keys) ∧
      ∀ f, ((http url).fetch net).result = .error f ∨ ((fixed text).fetch net).result = .error f →
        ∃ why, f = .keySource why := by
  have brought : (net.get url).document? = some (.ofString text) := by
    rw [Exchange.document?_eq answered (Response.isError_eq_false success), body,
      Document.ofOctets_octets]
  refine ⟨rfl, fun keys => keysOf_eq_ok_iff brought, ?_⟩
  rintro f (fetched | read)
  · exact keySource_of_keysOf fetched
  · exact keySource_of_ofDocument read

/-- A document in the form of a list, with a value that cannot serve and a name beyond ASCII. -/
def sampleList : String := "[[\x7b\"kty\":\"oct\",\"kid\":\"clé\",\"k\":\"AQAB\"\x7d,7]]"

/-- A network that answers every request with the document. -/
def sampleNetwork : Network :=
  fun _ : String => Reply.answered { body := Text.Utf8.octets sampleList }

/-- The document gives its one key over the network as well. -/
theorem same_documents_sampleList :
    ∃ keys, ((http "http://keys").fetch sampleNetwork).result = .ok keys ∧
      keys.keyIds = ["clé"] := by
  have read : ((KeySet.ofString sampleList).toOption.map KeySet.keyIds) = some ["clé"] := by
    decide +kernel
  obtain ⟨keys, made, named⟩ := Option.map_eq_some_iff.1 read
  have agree := same_documents sampleNetwork "http://keys" sampleList
    { body := Text.Utf8.octets sampleList } (by decide +kernel) (by decide) rfl
  exact ⟨keys, (agree.2.1 keys).2 (eq_ok_of_toOption made), named⟩

end KeySource

end BearerAuth
