import BearerAuth.Proofs.KeyCache.Resolutions
import BearerAuth.Proofs.Request.Approaches

/-!
# What requests fail with

A request fails for what is wrong with it, never for what goes wrong in the service: the failures
of fetches stay in the cache.

* `Failure.OfToken` lists what a token can fail with, and `Failure.OfRequest` what a request can;
* `Verifier.ofToken_conclude` : a token is judged with such failures, if the lookup has found a key;
* `Authenticator.failure_of_request` : so are all requests, and a key that cannot be found always
  leads to the same rejection.

The proof: the stages before the lookup and after it have only such failures of their own.  The
lookup has no other failure than that the key is unknown, and that is made a rejection.
-/

namespace BearerAuth

open KeyCache

/-- What a token can fail with. -/
inductive Failure.OfToken : Failure → Prop where
  /-- It cannot be taken apart. -/
  | malformedToken (fault : TokenFault) : OfToken (.malformedToken fault)
  /-- It is rejected. -/
  | rejected (why : Rejection) : OfToken (.rejected why)

/-- What a request can fail with. -/
inductive Failure.OfRequest : Failure → Prop where
  /-- It has no usable credential. -/
  | credential (fault : CredentialFault) (hint : String) : OfRequest (.credential fault hint)
  /-- Its token cannot be taken apart. -/
  | malformedToken (fault : TokenFault) : OfRequest (.malformedToken fault)
  /-- Its token is rejected. -/
  | rejected (why : Rejection) : OfRequest (.rejected why)

theorem Failure.OfToken.ofRequest {f : Failure} (h : f.OfToken) : f.OfRequest := by
  cases h with
  | malformedToken fault => exact .malformedToken fault
  | rejected why => exact .rejected why

theorem Failure.OfRequest.isAuthentication {f : Failure} (h : f.OfRequest) :
    f.isAuthentication = true := by
  cases h <;> rfl

theorem Failure.isSome_reason?_iff {f : Failure} :
    f.reason?.isSome = true ↔ ∃ why, f = .rejected why := by
  cases f <;> simp [reason?]

variable {r : Request} {m : Simulation} {now : Int} {audience : String} {f : Failure}

/-! ### Stages -/

theorem Finding.rejection_ne_unknownKey (finding : Finding) : finding.rejection ≠ .unknownKey := by
  cases finding with
  | missingClaim name =>
    simp only [rejection]
    split
    · nofun
    · split <;> nofun
  | _ => nofun

namespace Verifier

variable {v : Verifier}

theorem ofToken_request {token : String} {logged : List Event}
    (h : request token = .fail f logged) : f.OfToken ∧ f ≠ .rejected .unknownKey := by
  unfold request at h
  split at h
  · cases h
    exact ⟨.malformedToken _, nofun⟩
  · split at h
    · cases h
      exact ⟨.malformedToken _, nofun⟩
    · split at h <;> cases h
      exact ⟨.rejected _, nofun⟩

theorem ofRequest_requestOf {authorization : String} {logged : List Event}
    (h : v.requestOf authorization = .fail f logged) :
    f.OfRequest ∧ f ≠ .rejected .unknownKey := by
  unfold requestOf at h
  split at h
  · rename_i f' refused
    cases h
    unfold Credential.bearerToken at refused
    cases taken : Credential.token? authorization with
    | error fault =>
      rw [taken] at refused
      cases refused
      exact ⟨.credential fault v.hint, nofun⟩
    | ok token =>
      rw [taken] at refused
      cases refused
  · exact (ofToken_request h).imp_left (·.ofRequest)

theorem ofToken_verdict {s : SignedToken} {key : KeyMaterial}
    (h : (v.verdict now audience s key).result = .error f) :
    f.OfToken ∧ f ≠ .rejected .unknownKey := by
  unfold verdict at h
  split at h
  · cases h
    exact ⟨.rejected _, nofun⟩
  split at h
  · cases h
    exact ⟨.malformedToken _, nofun⟩
  · rename_i finding _
    cases h
    refine ⟨.rejected _, fun same => finding.rejection_ne_unknownKey ?_⟩
    exact Failure.rejected.inj same
  · split at h
    · cases h
      exact ⟨.rejected _, nofun⟩
    split at h <;> cases h
    exact ⟨.rejected _, nofun⟩

/-- **A token whose key is found fails for what is wrong with it**, and not because its key is
unknown. -/
theorem ofToken_conclude {key : VerificationKey}
    (h : (v.conclude now audience r (.ok key)).result = .error f) :
    f.OfToken ∧ f ≠ .rejected .unknownKey := by
  unfold conclude at h
  dsimp only at h
  split at h
  · exact ofToken_verdict h
  · cases h
    exact ⟨.rejected _, nofun⟩

end Verifier

namespace Authenticator

variable {a : Authenticator} {x : Approach}

theorem ofRequest_asked {logged : List Event} (h : a.asked x = .fail f logged) :
    f.OfRequest ∧ f ≠ .rejected .unknownKey := by
  cases x with
  | head lines =>
    simp only [asked, request] at h
    split at h
    · cases h
      exact ⟨.credential _ _, by simp⟩
    · exact Verifier.ofRequest_requestOf h
  | value authorization | credential authorization => exact Verifier.ofRequest_requestOf h
  | token token => exact (Verifier.ofToken_request h).imp_left (·.ofRequest)

/-- A request is refused before the lookup, or rejected because the lookup finds no key, or judged
with the key that is found. -/
inductive Outcome (a : Authenticator) (now : Int) (m : Simulation) (x : Approach) : Prop where
  /-- It is refused before the lookup. -/
  | refused (f : Failure) (worthless : ∀ r, ¬ x.Asks r) (fails : (a.treat now m x).2 = some f)
    (about : f.OfRequest ∧ f ≠ .rejected .unknownKey)
  /-- The lookup finds no key. -/
  | unknown (r : Request) (asks : x.Asks r) (why : Failure)
    (missed : (m.lookup r.kid).2 = .error why)
    (fails : (a.treat now m x).2 = some (.rejected .unknownKey))
  /-- The lookup finds a key. -/
  | judged (r : Request) (asks : x.Asks r) (key : VerificationKey)
    (found : (m.lookup r.kid).2 = .ok key)
    (about : ∀ f, (a.treat now m x).2 = some f → f.OfRequest ∧ f ≠ .rejected .unknownKey)

/-! ### The statement -/

variable {since : Instant} {events : List Event} {keys : KeySet} {as : List Action}

theorem outcome (a : Authenticator) (now : Int) (x : Approach)
    (run : Reaches m.policy (.load m.policy since events keys) as m.state) : a.Outcome now m x := by
  rcases a.asked_cases x with ⟨r, asked⟩ | ⟨f, logged, asked⟩
  · have asks := asked_eq_ok_iff.1 asked
    have treated : (a.treat now m x).2 =
        failureOf (a.verifier.conclude now a.audience r (m.lookup r.kid).2).result := by
      rw [treat_of_asks asks]
    rcases Simulation.lookup_cases run r.kid with ⟨kid, missed⟩ | ⟨key, found⟩
    · rw [missed] at treated
      exact .unknown r asks _ missed treated
    · rw [found] at treated
      refine .judged r asks key found fun f fails => ?_
      rw [treated] at fails
      cases judged : (a.verifier.conclude now a.audience r (.ok key)).result with
      | ok t => rw [judged] at fails; cases fails
      | error f' =>
        rw [judged] at fails
        cases fails
        exact (Verifier.ofToken_conclude judged).imp_left (·.ofRequest)
  · refine .refused f (fun r asks => ?_) ?_ (ofRequest_asked asked)
    · rw [asked_eq_ok_iff.2 asks] at asked
      cases asked
    · rw [treat_of_error (by rw [asked]; rfl)]

theorem asks_unique (a : Authenticator) {r r' : Request} (h : x.Asks r) (h' : x.Asks r') :
    r = r' := by
  have same : a.asked x = .ok r := asked_eq_ok_iff.2 h
  rw [asked_eq_ok_iff.2 h'] at same
  exact (Except.ok.inj (congrArg Logged.result same)).symm

/-- **Requests fail for what is wrong with them.**  In every state of a cache and whatever its
source does, the failure of a request is about its credential, or about a token that cannot be taken
apart or is rejected.  So it is a failure of authentication, and it tells a reason exactly if the
token is rejected.  A request whose key cannot be found is rejected for that, and no other request
is.  The same holds if anything else happens in the cache while the lookup is on its way. -/
theorem failure_of_request (a : Authenticator) (now : Int) (x : Approach)
    (run : Reaches m.policy (.load m.policy since events keys) as m.state) :
    (∀ f, (a.treat now m x).2 = some f →
      f.OfRequest ∧ f.isAuthentication = true ∧
        (f.reason?.isSome = true ↔ ∃ why, f = .rejected why)) ∧
    ((a.treat now m x).2 = some (.rejected .unknownKey) ↔
      ∃ r why, x.Asks r ∧ (m.lookup r.kid).2 = .error why) ∧
    ∀ r, x.Asks r →
      (m.state.owned = true → m.state.keys.get? r.kid = none →
        (∀ brought, m.source.answer.outcome = .keys brought → brought.get? r.kid = none) →
        (a.treat now m x).2 = some (.rejected .unknownKey)) ∧
      ∀ bs u found, Reaches m.policy m.state (.call r.kid :: bs) u →
        u.answer? m.state.nextId = some found →
        (∀ f, (a.verifier.conclude now a.audience r found).result = .error f → f.OfRequest) ∧
        ((∀ key, ¬ Meets m.policy m.state (.call r.kid :: bs) r.kid key) →
          (a.verifier.conclude now a.audience r found).result =
            .error (.rejected .unknownKey)) := by
  refine ⟨fun f fails => ?_, ⟨fun fails => ?_, ?_⟩,
    fun r asks => ⟨fun owned absent never => ?_, ?_⟩⟩
  · have about : f.OfRequest := by
      cases a.outcome now x run with
      | refused f' _ fails' about =>
        cases fails.symm.trans fails'
        exact about.1
      | unknown _ _ _ _ fails' =>
        cases fails.symm.trans fails'
        exact .rejected _
      | judged _ _ _ _ about => exact (about f fails).1
    exact ⟨about, about.isAuthentication, Failure.isSome_reason?_iff⟩
  · cases a.outcome now x run with
    | refused f _ fails' about =>
      cases fails.symm.trans fails'
      exact absurd rfl about.2
    | unknown r asks why missed => exact ⟨r, why, asks, missed⟩
    | judged _ _ _ _ about => exact absurd rfl (about _ fails).2
  · rintro ⟨r, why, asks, missed⟩
    cases a.outcome now x run with
    | refused _ worthless => exact absurd asks (worthless r)
    | unknown _ _ _ _ fails => exact fails
    | judged r' asks' key found =>
      cases asks_unique a asks asks'
      cases missed.symm.trans found
  · rw [treat_of_asks asks, Simulation.lookup_of_absent run owned absent never]
    rfl
  · intro bs u found further answered
    rcases answer_of_call run further answered with rfl | ⟨key, rfl, meets⟩
    · refine ⟨fun f fails => ?_, fun _ => rfl⟩
      cases fails
      exact .rejected _
    · exact ⟨fun f fails => (Verifier.ofToken_conclude fails).1.ofRequest,
        fun never => absurd meets (never key)⟩

/-- In a cache without keys, whose source fails, the key of a token is unknown, and the token is
rejected for that. -/
theorem failure_of_request_emptyCache :
    ∃ r, sampleApproach.Asks r ∧
      (sampleAuthenticator.treat 0 emptyCache sampleApproach).2 = some (.rejected .unknownKey) ∧
      (Failure.rejected .unknownKey).isAuthentication = true := by
  have run : Reaches samplePolicy (.load samplePolicy 0 [] .empty) [] emptyCache.state := .refl _
  obtain ⟨about, -, unknown⟩ :=
    failure_of_request (m := emptyCache) sampleAuthenticator 0 sampleApproach run
  obtain ⟨r, asks, -⟩ := asks_sampleApproach
  have rejected := (unknown r asks).1 rfl rfl nofun
  exact ⟨r, asks, rejected, (about _ rejected).2.1⟩

end Authenticator

end BearerAuth
