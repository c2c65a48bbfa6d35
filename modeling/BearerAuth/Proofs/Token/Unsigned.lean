import BearerAuth.Proofs.Token.Acceptance

/-!
# Payloads that nobody has signed

Whoever sends a token with a payload of his own learns nothing about how the payload is judged: as
long as the signature does not fit, two tokens that differ in their payloads are answered alike, and
leave the cache alike.

* `compact` puts a token together, and `Verifier.Unsigned` says that its signature does not fit;
* `Verifier.refusal` is what is found without a look at the payload;
* `Verifier.Concerns` lists what a failure can be about, and the payload is not among it;
* `Verifier.payload_without_influence` : the statement about two tokens.

The proof: before the lookup only the header is read, and the lookup is for the key that it names.
After it everything but the audience that is expected waits for the signature to fit.
-/

namespace BearerAuth

open Json KeyCache

/-- A token of three segments. -/
def compact (header payload signature : List Char) : String :=
  String.ofList (header ++ '.' :: (payload ++ '.' :: signature))

/-- The same taken apart, with its header read. -/
def SignedToken.ofSegments (headerText payloadText signatureText : List Char) (header : Header) :
    SignedToken where
  raw := compact headerText payloadText signatureText
  headerText := headerText
  payloadText := payloadText
  signatureText := signatureText
  header := header

theorem SignedToken.ofString_compact {header payload signature : List Char}
    (plain : '.' ∉ payload) (plain' : '.' ∉ signature) :
    SignedToken.ofString (compact header payload signature) =
      (readHeader header).map (ofSegments header payload signature) := by
  have cut : segments? (compact header payload signature).toList =
      some (header, payload, signature) :=
    segments?_eq_some_iff.2 ⟨String.toList_ofList, plain, plain'⟩
  simp only [SignedToken.ofString, cut]
  cases readHeader header <;> rfl

theorem Logged.against_ok_eq {α : Type} (m : Simulation) (token : SignedToken) (kid : String)
    (conclude : Request → Except Failure VerificationKey → Logged α) :
    (Logged.ok ⟨token, kid⟩).against m conclude =
      ((m.lookup kid).1.act (.note (conclude ⟨token, kid⟩ (m.lookup kid).2).events),
        (conclude ⟨token, kid⟩ (m.lookup kid).2).result) := by
  simp only [against, Logged.ok, act_note_nil]

namespace Verifier

variable {v : Verifier} {now : Int} {audience : String} {s s' : SignedToken} {m : Simulation}
  {header payload payload' signature : List Char} {a : Algorithm} {k : KeyMaterial}
  {leeway : Nat}

/-! ### Signatures that do not fit -/

theorem fits_iff {message : List UInt8} : Fits a k message signature ↔
    ((Text.Base64Url.decode? signature).any fun octets =>
      (Signature.checker? a k).any fun check => check message octets) = true := by
  simp only [Fits, Option.any_eq_true]
  grind

instance (message : List UInt8) : Decidable (Fits a k message signature) :=
  decidable_of_iff' _ fits_iff

/-- What is found under a key whose check the signature does not pass. -/
def refusal (a : Algorithm) (k : KeyMaterial) (signature : List Char) : TokenFault ⊕ Finding :=
  match Signature.checker? a k, Text.Base64Url.decode? signature with
  | none, _ => .inr .other
  | some _, none => .inl .base64
  | some _, some _ => .inr .invalidSignature

/-- The check of a signature finds a segment ill-formed only if that is the signature. -/
theorem eq_base64_of_refusal {fault : TokenFault} (h : refusal a k signature = .inl fault) :
    Text.Base64Url.decode? signature = none ∧ fault = .base64 := by
  unfold refusal at h
  split at h <;> cases h
  rename_i undecoded
  exact ⟨undecoded, rfl⟩

/-- The payload is not read unless the signature fits. -/
theorem open?_of_not_fits (h : ¬ Fits s.header.alg k s.message s.signatureText) :
    open? s k now leeway audience = .error (refusal s.header.alg k s.signatureText) := by
  unfold open? refusal SignedToken.signature?
  cases makes : Signature.checker? s.header.alg k with
  | none => rfl
  | some check =>
    cases decoded : Text.Base64Url.decode? s.signatureText with
    | none => rfl
    | some octets =>
      have unfit : ¬ check s.message octets = true := fun fits =>
        h ⟨octets, check, decoded, makes, fits⟩
      simp only [if_neg unfit]

theorem verdict_of_not_fits (h : ¬ Fits s.header.alg k s.message s.signatureText) :
    v.verdict now audience s k =
      if audience.isEmpty then .reject .audience
      else
        match refusal s.header.alg k s.signatureText with
        | .inl f => .fail (.malformedToken f) [.payloadUnreadable]
        | .inr finding => .reject finding.rejection := by
  unfold verdict
  rw [open?_of_not_fits h]
  cases refusal s.header.alg k s.signatureText <;> rfl

/-! ### Two tokens -/

/-- The tokens differ at most in their payloads. -/
structure Twins (s s' : SignedToken) : Prop where
  /-- Their headers are the same. -/
  header : s'.header = s.header
  /-- So are their signatures. -/
  signature : s'.signatureText = s.signatureText

variable {kid : String} {found : Except Failure VerificationKey}

/-- Where none of their signatures fits, twins are judged alike. -/
theorem conclude_of_twins (twins : Twins s s')
    (unfit : ∀ key, found = .ok key → ¬ Fits s.header.alg key.material s.message s.signatureText)
    (unfit' : ∀ key, found = .ok key →
      ¬ Fits s'.header.alg key.material s'.message s'.signatureText) :
    v.conclude now audience ⟨s', kid⟩ found = v.conclude now audience ⟨s, kid⟩ found := by
  cases found with
  | error f => cases f <;> rfl
  | ok key =>
    simp only [conclude, verdict_of_not_fits (unfit key rfl), verdict_of_not_fits (unfit' key rfl),
      twins.header, twins.signature]

/-! ### What a failure is about -/

/-- What a failure can be about while the payload is not read. -/
inductive Concerns (m : Simulation) (header signature : List Char) : Failure → Prop where
  /-- The header cannot be read. -/
  | header (fault : TokenFault) (unread : SignedToken.readHeader header = .error fault) :
    Concerns m header signature (.malformedToken fault)
  /-- The header names no key. -/
  | unnamed (h : Header) (read : SignedToken.readHeader header = .ok h) (unnamed : h.kid = none) :
    Concerns m header signature (.malformedToken .missingKeyId)
  /-- The cache has failed. -/
  | cache (kid : String) (f : Failure) (failed : (m.lookup kid).2 = .error f) :
    Concerns m header signature f
  /-- The signature is not base64. -/
  | signature (undecoded : Text.Base64Url.decode? signature = none) :
    Concerns m header signature (.malformedToken .base64)
  /-- The token is rejected, and it is not told why. -/
  | rejected (why : Rejection) : Concerns m header signature (.rejected why)

theorem concerns_verdict (unfit : ¬ Fits s.header.alg k s.message s.signatureText) :
    ∃ f, (v.verdict now audience s k).result = .error f ∧
      Concerns m header s.signatureText f := by
  rw [verdict_of_not_fits unfit]
  split
  · exact ⟨_, rfl, .rejected _⟩
  · split
    · rename_i fault found
      obtain ⟨undecoded, rfl⟩ := eq_base64_of_refusal found
      exact ⟨_, rfl, .signature undecoded⟩
    · exact ⟨_, rfl, .rejected _⟩

theorem concerns_conclude (failed : ∀ f, found = .error f → Concerns m header s.signatureText f)
    (unfit : ∀ key, found = .ok key →
      ¬ Fits s.header.alg key.material s.message s.signatureText) :
    ∃ f, (v.conclude now audience ⟨s, kid⟩ found).result = .error f ∧
      Concerns m header s.signatureText f := by
  unfold conclude
  split
  · exact ⟨_, rfl, .rejected _⟩
  · exact ⟨_, rfl, failed _ rfl⟩
  · rename_i key
    dsimp only
    split
    · exact concerns_verdict (unfit key rfl)
    · exact ⟨_, rfl, .rejected _⟩

/-! ### The statement -/

theorem request_compact (m : Simulation) (header : List Char) (plain : '.' ∉ signature) :
    (∃ f events, Concerns m header signature f ∧ ∀ payload, '.' ∉ payload →
      request (compact header payload signature) = .fail f events) ∨
    ∃ h kid, SignedToken.readHeader header = .ok h ∧ h.kid = some kid ∧ ∀ payload, '.' ∉ payload →
      request (compact header payload signature) =
        .ok ⟨.ofSegments header payload signature h, kid⟩ := by
  have cut (payload : List Char) (plain' : '.' ∉ payload) :
      SignedToken.ofString (compact header payload signature) = _ :=
    SignedToken.ofString_compact plain' plain
  cases read : SignedToken.readHeader header with
  | error fault =>
    refine .inl ⟨.malformedToken fault, [], .header fault read, fun payload plain' => ?_⟩
    simp only [request, cut payload plain', read, Except.map]
  | ok h =>
    rw [read] at cut
    cases named : h.kid with
    | none =>
      refine .inl ⟨.malformedToken .missingKeyId, [], .unnamed h read named,
        fun payload plain' => ?_⟩
      simp only [request, cut payload plain', Except.map, SignedToken.ofSegments, named]
    | some kid =>
      by_cases accepted : Algorithm.accepted.contains h.alg = true
      · refine .inr ⟨h, kid, rfl, named, fun payload plain' => ?_⟩
        simp only [request, cut payload plain', Except.map, SignedToken.ofSegments, named,
          if_pos accepted]
      · refine .inl ⟨.rejected .algorithm, [.algorithmRefused h.alg], .rejected _,
          fun payload plain' => ?_⟩
        simp only [request, cut payload plain', Except.map, SignedToken.ofSegments, named,
          if_neg accepted]

/-- Under no key that the cache has for the header is the third segment a signature of the first
two. -/
def Unsigned (m : Simulation) (header payload signature : List Char) : Prop :=
  ∀ h kid key, SignedToken.readHeader header = .ok h → h.kid = some kid →
    (m.lookup kid).2 = .ok key →
      ¬ Fits h.alg key.material (Text.Utf8.octets (String.ofList (header ++ '.' :: payload)))
        signature

/-- **A payload that nobody has signed has no influence.**  Two tokens with the same header and
signature, which does not fit either of them, are refused with the same failure and have the same
effect on the cache, whatever their payloads are.  The failure is about the header, the cache or the
signature, or it does not tell what it is about. -/
theorem payload_without_influence (v : Verifier) (now : Int) (audience : String) (m : Simulation)
    (plain : '.' ∉ payload) (plain' : '.' ∉ payload') (plainSignature : '.' ∉ signature)
    (unsigned : Unsigned m header payload signature)
    (unsigned' : Unsigned m header payload' signature) :
    v.verifyToken now audience m (compact header payload' signature) =
        v.verifyToken now audience m (compact header payload signature) ∧
      ∃ f, (v.verifyToken now audience m (compact header payload signature)).2 = .error f ∧
        Concerns m header signature f := by
  unfold verifyToken
  rcases request_compact m header plainSignature with
    ⟨f, events, concerns, refused⟩ | ⟨h, kid, read, named, asked⟩
  · rw [refused payload plain, refused payload' plain']
    exact ⟨rfl, f, Logged.against_error rfl, concerns⟩
  · -- the same key is looked up, and under it neither signature fits
    have unfit key (found : (m.lookup kid).2 = .ok key) := unsigned h kid key read named found
    have unfit' key (found : (m.lookup kid).2 = .ok key) := unsigned' h kid key read named found
    have twins : Twins (.ofSegments header payload signature h)
      (.ofSegments header payload' signature h) := ⟨rfl, rfl⟩
    rw [asked payload plain, asked payload' plain']
    refine ⟨?_, ?_⟩
    · rw [Logged.against_ok_eq, Logged.against_ok_eq, conclude_of_twins twins unfit unfit']
    · rw [Logged.against_ok rfl rfl]
      exact concerns_conclude (fun f failed => .cache kid f failed) unfit

/-- A signature of three octets, encoded. -/
def shortSignature : String := "AAAA"

/-- The payload of claims and one that is not even base64 make no difference. -/
theorem payload_without_influence_short :
    verifyToken {} 1700000000 "x" sampleCache
        (compact sampleHeader.toList ['!'] shortSignature.toList) =
      verifyToken {} 1700000000 "x" sampleCache
        (compact sampleHeader.toList plainPayload.toList shortSignature.toList) ∧
      ∃ f, (verifyToken {} 1700000000 "x" sampleCache
          (compact sampleHeader.toList plainPayload.toList shortSignature.toList)).2 = .error f ∧
        Concerns sampleCache sampleHeader.toList shortSignature.toList f := by
  have header_read : (SignedToken.readHeader sampleHeader.toList).toOption =
      some (sampleParsed "" "").header := by decide +kernel
  have found : (sampleCache.lookup "a").2.toOption = some sampleKey := by decide +kernel
  have unsigned (payload : List Char) (unfit : ¬ Fits .rs256 sampleKey.material
        (Text.Utf8.octets (String.ofList (sampleHeader.toList ++ '.' :: payload)))
        shortSignature.toList) :
      Unsigned sampleCache sampleHeader.toList payload shortSignature.toList := by
    intro h kid key read named looked
    rw [eq_ok_of_toOption header_read] at read
    cases read
    cases named
    rw [eq_ok_of_toOption found] at looked
    cases looked
    exact unfit
  exact payload_without_influence {} 1700000000 "x" sampleCache (by decide +kernel)
    (by decide +kernel) (by decide +kernel) (unsigned _ (by decide +kernel))
    (unsigned _ (by decide +kernel))

end Verifier

end BearerAuth
