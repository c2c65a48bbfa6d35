import BearerAuth.Proofs.KeyCache.RateLimit
import BearerAuth.Proofs.Text.Words
import BearerAuth.Proofs.Token.Unsigned

/-!
# The ways of a request

A request comes as a head, as an `Authorization` value or as a token.  Whichever way it comes, it is
taken apart first, and if that succeeds it is judged by what the lookup of its key finds.

* `Approach` lists the ways, `Approach.Carries` says which token comes by them, and `Approach.Asks`
  that the token is worth a lookup;
* `Authenticator.asked` is what is made of a request before the lookup, and
  `Authenticator.asked_eq_ok_iff` says when a lookup is made;
* `Authenticator.treat` is the whole treatment of a request, `treat_of_error` and `treat_of_asks`
  what it does without a lookup and with one.
-/

namespace BearerAuth

open KeyCache

/-- A way in which a request comes. -/
inductive Approach where
  /-- A head, to be authenticated. -/
  | head (lines : RequestHead)
  /-- An `Authorization` value, to be authenticated. -/
  | value (authorization : String)
  /-- An `Authorization` value, to be verified. -/
  | credential (authorization : String)
  /-- A token, to be verified. -/
  | token (token : String)

/-- An `Authorization` value consists of the word `Bearer` and a token. -/
def Credential.Bears (authorization token : String) : Prop :=
  Text.words authorization.toList = [scheme.toList, token.toList]

namespace Approach

/-- A request carries a token: in its first `Authorization` line, which is text, or in its value. -/
def Carries : Approach → String → Prop
  | head lines, raw => ∃ line authorization,
      lines.find? (RequestHead.isAuthorization ·.1) = some line ∧
        RequestHead.text? line.2 = some authorization ∧ Credential.Bears authorization raw
  | value authorization, raw | credential authorization, raw =>
    Credential.Bears authorization raw
  | token t, raw => t = raw

/-- The token of a request is worth a lookup: its header can be read, and names a key and an
accepted algorithm. -/
def Asks (x : Approach) (r : Request) : Prop :=
  ∃ raw, x.Carries raw ∧ SignedToken.ofString raw = .ok r.token ∧
    r.token.header.kid = some r.kid ∧ r.token.header.alg ∈ Algorithm.accepted

end Approach

variable {a : Authenticator} {x : Approach} {r : Request} {m : Simulation} {now : Int}

/-! ### Before the lookup -/

theorem mapError_eq_ok_iff {α β γ : Type} {read : Except α γ} {why : α → β} {value : γ} :
    read.mapError why = .ok value ↔ read = .ok value := by
  cases read with
  | error fault =>
    change Except.error (why fault) = Except.ok value ↔ _
    simp only [reduceCtorEq]
  | ok found =>
    change Except.ok found = Except.ok value ↔ _
    simp only [Except.ok.injEq]

theorem Credential.bearerToken_eq_ok_iff {authorization hint token : String} :
    bearerToken authorization hint = .ok token ↔ Bears authorization token := by
  rw [bearerToken, mapError_eq_ok_iff]
  unfold token? Bears
  split
  · rename_i blank
    rw [Text.words_eq_nil_iff.2 (Text.isAllBlank_iff.1 blank)]
    simp
  split
  · rename_i first second words
    rw [words]
    split
    · rename_i bearer
      simp only [Except.ok.injEq, List.cons.injEq, bearer, true_and, and_true]
      constructor
      · rintro rfl
        exact String.toList_ofList.symm
      · rintro rfl
        exact String.ofList_toList
    · rename_i other
      simp [other]
  · rename_i none two
    simp only [false_iff, reduceCtorEq]
    intro words
    exact two _ _ words

theorem RequestHead.authorization?_eq_ok_iff {lines : RequestHead} {v : String} :
    authorization? lines = .ok v ↔
      lines.find? (isAuthorization ·.1) = none ∧ v = "" ∨
        ∃ line, lines.find? (isAuthorization ·.1) = some line ∧ text? line.2 = some v := by
  unfold authorization?
  cases lines.find? (isAuthorization ·.1) with
  | none => simp [eq_comm]
  | some line => cases h : text? line.2 <;> simp [h]

theorem Verifier.requestOf_eq_ok_iff {v : Verifier} {authorization : String} :
    v.requestOf authorization = .ok r ↔
      ∃ token, Credential.Bears authorization token ∧ request token = .ok r := by
  unfold requestOf
  cases h : Credential.bearerToken authorization v.hint with
  | error f =>
    refine ⟨nofun, ?_⟩
    rintro ⟨token, bears, -⟩
    cases h.symm.trans (Credential.bearerToken_eq_ok_iff.2 bears)
  | ok token =>
    have bears := Credential.bearerToken_eq_ok_iff.1 h
    refine ⟨fun asks => ⟨token, bears, asks⟩, ?_⟩
    rintro ⟨token', bears', asks⟩
    cases h.symm.trans (Credential.bearerToken_eq_ok_iff.2 bears')
    exact asks

namespace Authenticator

/-- What is made of a request before the lookup. -/
def asked (a : Authenticator) : Approach → Logged Request
  | .head lines => a.request lines
  | .value authorization | .credential authorization => a.verifier.requestOf authorization
  | .token token => Verifier.request token

theorem request_eq_ok_iff {lines : RequestHead} : a.request lines = .ok r ↔
    ∃ raw, (Approach.head lines).Carries raw ∧ Verifier.request raw = .ok r := by
  have said : a.request lines = .ok r ↔
      ∃ v, RequestHead.authorization? lines = .ok v ∧ a.verifier.requestOf v = .ok r := by
    unfold request
    cases RequestHead.authorization? lines with
    | error fault => exact ⟨nofun, nofun⟩
    | ok v => simp
  rw [said]
  simp only [RequestHead.authorization?_eq_ok_iff, Verifier.requestOf_eq_ok_iff]
  constructor
  · rintro ⟨v, ⟨-, rfl⟩ | ⟨line, first, text⟩, raw, bears, asks⟩
    · -- that there is no line is the same as that it is empty
      cases bears
    · exact ⟨raw, ⟨line, v, first, text, bears⟩, asks⟩
  · rintro ⟨raw, ⟨line, v, first, text, bears⟩, asks⟩
    exact ⟨v, .inr ⟨line, first, text⟩, raw, bears, asks⟩

/-- **A lookup is made exactly for a token that is worth one.** -/
theorem asked_eq_ok_iff : a.asked x = .ok r ↔ x.Asks r := by
  have worth : x.Asks r ↔ ∃ token, x.Carries token ∧ Verifier.request token = .ok r := by
    simp only [Approach.Asks, Verifier.request_eq_ok_iff]
  rw [worth]
  cases x with
  | head lines => exact request_eq_ok_iff
  | value authorization | credential authorization => exact Verifier.requestOf_eq_ok_iff
  | token token =>
    constructor
    · exact fun asks => ⟨token, rfl, asks⟩
    · rintro ⟨_, rfl, asks⟩
      exact asks

/-- Either a lookup is made, or the request is refused without one. -/
theorem asked_cases (a : Authenticator) (x : Approach) :
    (∃ r, a.asked x = .ok r) ∨ ∃ f events, a.asked x = .fail f events := by
  have value (authorization : String) : (∃ r, a.verifier.requestOf authorization = .ok r) ∨
      ∃ f events, a.verifier.requestOf authorization = .fail f events := by
    unfold Verifier.requestOf
    split
    · exact .inr ⟨_, _, rfl⟩
    · exact Verifier.request_cases _
  cases x with
  | head lines =>
    simp only [asked, request]
    split
    · exact .inr ⟨_, _, rfl⟩
    · rename_i authorization _
      exact value authorization
  | value authorization | credential authorization => exact value authorization
  | token token => exact Verifier.request_cases token

/-! ### The whole treatment -/

/-- The failure that a request ends with, if it does. -/
def failureOf {α : Type} : Except Failure α → Option Failure
  | .ok _ => none
  | .error f => some f

/-- Treats a request: the cache afterwards, and the failure if there is one. -/
def treat (a : Authenticator) (now : Int) (m : Simulation) :
    Approach → Simulation × Option Failure
  | .head lines => (a.authenticate now m lines).map id failureOf
  | .value authorization => (a.authenticateValue now m authorization).map id failureOf
  | .credential authorization => (a.verifier.verify now a.audience m authorization).map id failureOf
  | .token token => (a.verifier.verifyToken now a.audience m token).map id failureOf

theorem act_note (m : Simulation) (events : List Event) :
    m.act (.note events) = { m with state := m.state.note events } := rfl

theorem treat_of_error {f : Failure} (h : (a.asked x).result = .error f) :
    a.treat now m x = ({ m with state := m.state.note (a.asked x).events }, some f) := by
  have refused {α : Type} (conclude : Request → Except Failure VerificationKey → Logged α) :
      ((a.asked x).against m conclude).map id failureOf =
        ({ m with state := m.state.note (a.asked x).events }, some f) := by
    simp only [Logged.against, h]
    rfl
  cases x <;> exact refused _

theorem andThen_ok {α β : Type} (l : Logged α) (f : α → β) :
    (l.andThen fun t => .ok (f t)) = ⟨l.result.map f, l.events⟩ := by
  obtain ⟨result, events⟩ := l
  cases result with
  | error f => rfl
  | ok t => exact congrArg (Logged.mk (.ok (f t))) (List.append_nil events)

/-- That a user is made of a token matters neither to the log nor to failures. -/
theorem andThen_told {α β : Type} (l : Logged α) (f : α → β) :
    (l.andThen fun t => .ok (f t)).events = l.events ∧
      failureOf (l.andThen fun t => .ok (f t)).result = failureOf l.result := by
  rw [andThen_ok]
  cases l.result <;> exact ⟨rfl, rfl⟩

theorem treat_of_asks (h : x.Asks r) :
    a.treat now m x =
      ((m.lookup r.kid).1.act (.note
          (a.verifier.conclude now a.audience r (m.lookup r.kid).2).events),
        failureOf (a.verifier.conclude now a.audience r (m.lookup r.kid).2).result) := by
  have asked : a.asked x = .ok r := asked_eq_ok_iff.2 h
  have judged {α : Type} (conclude : Request → Except Failure VerificationKey → Logged α) :
      (Logged.ok r).against m conclude =
        ((m.lookup r.kid).1.act (.note (conclude r (m.lookup r.kid).2).events),
          (conclude r (m.lookup r.kid).2).result) :=
    Logged.against_ok_eq m r.token r.kid conclude
  generalize m.lookup r.kid = looked at judged ⊢
  obtain ⟨events, failure⟩ :=
    andThen_told (a.verifier.conclude now a.audience r looked.2) a.userOf
  cases x with
  | head lines =>
    rw [treat, authenticate, show a.request lines = .ok r from asked, judged, Prod.map, conclude,
      events, failure, id]
  | value authorization =>
    rw [treat, authenticateValue, show a.verifier.requestOf authorization = .ok r from asked,
      judged, Prod.map, conclude, events, failure, id]
  | credential authorization =>
    rw [treat, Verifier.verify, show a.verifier.requestOf authorization = .ok r from asked, judged,
      Prod.map, id]
  | token token =>
    rw [treat, Verifier.verifyToken, show Verifier.request token = .ok r from asked, judged,
      Prod.map, id]

/-! ### A sample -/

/-- An authenticator without an issuer. -/
def sampleAuthenticator : Authenticator := ⟨{}, .standard, "x"⟩

/-- A cache without keys, whose source can change but fails. -/
def emptyCache : Simulation where
  policy := samplePolicy
  source := ⟨⟨2⟩, ⟨[], .failed (.keySource "down")⟩⟩
  state := .load samplePolicy 0 [] .empty

/-- A token with a header, and nothing else. -/
def sampleApproach : Approach := .token (Verifier.sampleToken "" "")

theorem asks_sampleApproach : ∃ r, sampleApproach.Asks r ∧ r.kid = "a" := by
  have read : ((SignedToken.ofString (Verifier.sampleToken "" "")).toOption.any fun t =>
      t.header.kid == some "a" && Algorithm.accepted.contains t.header.alg) = true := by
    decide +kernel
  obtain ⟨t, taken, worth⟩ := (Option.any_eq_true _ _).1 read
  simp only [Bool.and_eq_true, beq_iff_eq, List.contains_iff_mem] at worth
  exact ⟨⟨t, "a"⟩, ⟨_, rfl, Json.eq_ok_of_toOption taken, worth.1, worth.2⟩, rfl⟩

end Authenticator

end BearerAuth
