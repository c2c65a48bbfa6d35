import BearerAuth.Proofs.Request.Failures

/-!
# The grammar of credentials

An `Authorization` value has to spell a token: the word `Bearer`, blanks, and the token, with blanks
around them or not.

* `Credential.Spells` is the grammar, `Credential.spells_iff_bears` compares it with the words of
  the value;
* `Credential.bearerToken_of_not_spells` : what all other values fail with;
* `Verifier.fails_of_verifyToken` : no token fails with a credential;
* `Verifier.bearer_grammar` : the grammar is what is accepted, and what is accepted is verified as
  the token that it spells.

The proof: the words of a value are its parts between blanks, so that the value has the two words of
a credential exactly if it is spelled like one.  A value without words is blank.
-/

namespace BearerAuth

open KeyCache

variable {m : Simulation} {since : Instant} {events : List Event} {keys : KeySet}
  {as : List Action} {f : Failure}

namespace Credential

variable {authorization token : String}

/-- A value spells a token: it consists of the word `Bearer` and the token, with blanks between them
and perhaps around them. -/
def Spells (authorization token : String) : Prop :=
  ∃ before between after : String,
    authorization = before ++ scheme ++ between ++ token ++ after ∧
      Text.Blank before.toList ∧ Text.Blank between.toList ∧ between ≠ "" ∧
      Text.IsWord token.toList ∧ Text.Blank after.toList

theorem isWord_scheme : Text.IsWord scheme.toList := by decide

/-- What a value spells are its words. -/
theorem spells_iff_bears : Spells authorization token ↔ Bears authorization token := by
  unfold Bears
  rw [Text.words_eq_pair_iff]
  constructor
  · rintro ⟨before, between, after, rfl, blank, blank', some, word, last⟩
    refine ⟨before.toList, between.toList, after.toList, ?_, blank, isWord_scheme, blank', ?_, word,
      last⟩
    · simp
    · simpa using some
  · rintro ⟨before, between, after, spelled, blank, -, blank', some, word, last⟩
    refine ⟨.ofList before, .ofList between, .ofList after, ?_, ?_, ?_, ?_, word, ?_⟩
    · rw [← String.toList_inj]
      simpa using spelled
    · simpa using blank
    · simpa using blank'
    · rw [ne_eq, ← String.toList_inj]
      simpa using some
    · simpa using last

theorem Spells.unique {token' : String} (h : Spells authorization token)
    (h' : Spells authorization token') : token = token' := by
  have words : Bears authorization token := spells_iff_bears.1 h
  have words' : Bears authorization token' := spells_iff_bears.1 h'
  have same := words.symm.trans words'
  simp only [List.cons.injEq, and_true, true_and] at same
  exact String.toList_inj.1 same

/-- **Other values fail**: a blank one as if there were none, and any other for what it is. -/
theorem bearerToken_of_not_spells (other : ∀ token, ¬ Spells authorization token) (hint : String) :
    ∃ fault, bearerToken authorization hint = .error (.credential fault hint) ∧
      (fault = .missing ∨ fault = .notBearer) ∧
      (fault = .missing ↔ Text.Blank authorization.toList) := by
  by_cases blank : Text.isAllBlank authorization.toList
  · refine ⟨.missing, ?_, .inl rfl, iff_of_true rfl (Text.isAllBlank_iff.1 blank)⟩
    rw [bearerToken, token?, if_pos blank]
    rfl
  · refine ⟨.notBearer, ?_, .inr rfl,
      iff_of_false (by simp) fun all => blank (Text.isAllBlank_iff.2 all)⟩
    rw [bearerToken, token?, if_neg blank]
    split
    · rename_i first second words
      split
      · -- these are the two words of a credential
        rename_i bearer
        refine absurd (spells_iff_bears.2 ?_) (other (String.ofList second))
        rw [Bears, words, bearer, String.toList_ofList]
      · rfl
    · rfl

end Credential

namespace Verifier

variable {v : Verifier} {now : Int} {audience authorization token : String}

/-- **No token fails with a credential**, whatever the lookup of its key finds. -/
theorem fails_of_verifyToken
    (run : Reaches m.policy (.load m.policy since events keys) as m.state)
    (h : (v.verifyToken now audience m token).2 = .error f) : f.OfToken := by
  rcases request_cases token with ⟨r, asked⟩ | ⟨f', logged, asked⟩
  · rw [verifyToken, Logged.against_ok (r := r) (by rw [asked]; rfl) (by rw [asked]; rfl)] at h
    rcases Simulation.lookup_cases run r.kid with ⟨kid, missed⟩ | ⟨key, found⟩
    · rw [missed] at h
      cases h
      exact .rejected _
    · rw [found] at h
      exact (ofToken_conclude h).1
  · rw [verifyToken, Logged.against_error (f := f') (by rw [asked]; rfl)] at h
    cases h
    exact (ofToken_request asked).1

theorem verify_of_spells (h : Credential.Spells authorization token) :
    v.verify now audience m authorization = v.verifyToken now audience m token := by
  have taken : Credential.bearerToken authorization v.hint = .ok token :=
    Credential.bearerToken_eq_ok_iff.2 (Credential.spells_iff_bears.1 h)
  rw [verify, requestOf, taken, verifyToken]

theorem verify_of_not_spells (other : ∀ token, ¬ Credential.Spells authorization token) :
    ∃ fault, (v.verify now audience m authorization).2 = .error (.credential fault v.hint) := by
  obtain ⟨fault, refused, -⟩ := Credential.bearerToken_of_not_spells other v.hint
  refine ⟨fault, ?_⟩
  rw [verify, requestOf, refused]
  exact Logged.against_error rfl

/-- **The grammar of credentials.**  A value is accepted exactly if it spells a token, and that
token is taken, of which there is only one.  Other values fail as credentials, with the hint, and as
missing ones exactly if they are blank.  So a value is verified as some token exactly if it spells
one, and then as that. -/
theorem bearer_grammar (v : Verifier) (now : Int) (audience authorization : String)
    (run : Reaches m.policy (.load m.policy since events keys) as m.state) :
    (∀ hint token, Credential.bearerToken authorization hint = .ok token ↔
      Credential.Spells authorization token) ∧
    (∀ token token', Credential.Spells authorization token →
      Credential.Spells authorization token' → token = token') ∧
    (∀ hint, (∀ token, ¬ Credential.Spells authorization token) →
      ∃ fault, Credential.bearerToken authorization hint = .error (.credential fault hint) ∧
        (fault = .missing ∨ fault = .notBearer) ∧
        (fault = .missing ↔ Text.Blank authorization.toList)) ∧
    (∀ token, Credential.Spells authorization token →
      v.verify now audience m authorization = v.verifyToken now audience m token) ∧
    ((∃ token, v.verify now audience m authorization = v.verifyToken now audience m token) ↔
      ∃ token, Credential.Spells authorization token) := by
  refine ⟨fun hint token => ?_, fun _ _ h h' => h.unique h', fun hint other => ?_,
    fun _ => verify_of_spells, ?_, fun ⟨token, spells⟩ => ⟨token, verify_of_spells spells⟩⟩
  · rw [Credential.bearerToken_eq_ok_iff, Credential.spells_iff_bears]
  · exact Credential.bearerToken_of_not_spells other hint
  · rintro ⟨token, same⟩
    by_contra other
    obtain ⟨fault, refused⟩ : ∃ fault, (v.verify now audience m authorization).2 =
        .error (.credential fault v.hint) :=
      verify_of_not_spells fun token spells => other ⟨token, spells⟩
    rw [same] at refused
    cases fails_of_verifyToken run refused

/-- Blanks of several kinds stand around the word and the token. -/
theorem bearer_grammar_blanks :
    Credential.Spells "\u00a0Bearer\t\u2003zyx\n" "zyx" ∧
      Credential.bearerToken "\u00a0Bearer\t\u2003zyx\n" "" = .ok "zyx" ∧
      ∀ v now audience, verify v now audience Authenticator.emptyCache
          "\u00a0Bearer\t\u2003zyx\n" =
        verifyToken v now audience Authenticator.emptyCache "zyx" := by
  have run : Reaches Authenticator.emptyCache.policy
      (.load Authenticator.emptyCache.policy 0 [] .empty) [] Authenticator.emptyCache.state :=
    .refl _
  have spells : Credential.Spells "\u00a0Bearer\t\u2003zyx\n" "zyx" :=
    ⟨"\u00a0", "\t\u2003", "\n", by decide, by decide, by decide, by decide, by decide, by decide⟩
  refine ⟨spells, ((bearer_grammar {} 0 "" _ run).1 _ _).2 spells, fun v now audience => ?_⟩
  exact (bearer_grammar v now audience _ run).2.2.2.1 _ spells

end Verifier

end BearerAuth
