import BearerAuth.Proofs.Token.Acceptance

/-!
# The verdict on a signed token

Once the header, the key and the signature of a token are in order, its payload decides what is
answered.  Expiry is weighed twice, before and after audience and issuer, and in two kinds of
numbers; which of several objections to the same claims is told depends on their order.

* `Claims.objection?` is the first objection to claims, in the order in which they are weighed;
* `Expiry.isPast`, `Expiry.isOver` are the two checks of expiry in words of 64 bits, and
  `Expiry.isPast_ofNat`, `Expiry.isOver_ofInt` say that no sum in them overflows;
* `Verifier.verdict_eq` : a signed token with a plain payload gets its first objection;
* `Verifier.verdict_of_signed` : this as an answer to a token, with both checks in words.

The proof: the second reading of the payload finds expiry and audience where the first one does, so
its findings are conditions on the claims of the first.  What these leave open, the issuer and an
expiry at this very second, is settled by the checks after it.
-/

namespace BearerAuth

open Json KeyCache

/-! ### Objections -/

/-- The first objection to claims in the order in which they are weighed; `hasAudience` says that
the payload has a member for the audience. -/
def Claims.objection? (c : Claims) (hasAudience : Bool) (issuer : Option String) (now : Int)
    (leeway : Nat) (audience : String) : Option Rejection :=
  if hasAudience = false then some .audience
  else if c.exp + leeway < now then some .expired
  else if audience ∉ c.aud then some .audience
  else if issuer ≠ none ∧ c.iss ≠ issuer then some .issuer
  else if c.exp + leeway = now then some .expired
  else none

/-! ### Expiry in words -/

namespace Expiry

/-- The sum of two words with sign; one that does not fit is the nearest that does. -/
def saturatingAdd (a b : Int64) : Int64 := Int64.ofIntClamp (a.toInt + b.toInt)

/-- A word without sign as one with sign, the largest if it does not fit. -/
def signed (n : UInt64) : Int64 := Int64.ofIntClamp n.toNat

/-- The check of the second reading, in words without sign. -/
def isPast (exp now leeway : UInt64) : Bool := exp < now - leeway

/-- The check after both readings, in words with sign. -/
def isOver (exp now : Int64) (leeway : UInt64) : Bool := saturatingAdd exp (signed leeway) ≤ now

theorem toInt_ofIntClamp (n : Int) : (Int64.ofIntClamp n).toInt =
    max Int64.minValue.toInt (min n Int64.maxValue.toInt) := by
  have order : Int64.minValue.toInt ≤ Int64.maxValue.toInt := by decide
  unfold Int64.ofIntClamp
  split
  · split
    · rw [Int64.toInt_ofIntLE]
      omega
    · omega
  · omega

theorem toInt_ofInt {n : Int} (h : IsInt64 n) : (Int64.ofInt n).toInt = n := by
  obtain ⟨lower, upper⟩ := h
  rw [Int64.toInt_minValue] at lower
  rw [Int64.toInt_maxValue] at upper
  exact Int64.toInt_ofInt_of_le lower (by omega)

theorem toNat_ofNat {n : Nat} (h : (n : Int) ≤ Int64.maxValue.toInt) :
    (UInt64.ofNat n).toNat = n := by
  have room : Int64.maxValue.toInt < UInt64.size := by decide
  exact UInt64.toNat_ofNat_of_lt' (by omega)

/-- **The check in words without sign is exact**, as the leeway is not greater than the time. -/
theorem isPast_ofNat {exp now : Int} {leeway : Nat} (natural : 0 ≤ exp) (fits : IsInt64 exp)
    (late : (leeway : Int) ≤ now) (clock : now ≤ Int64.maxValue.toInt) :
    isPast (.ofNat exp.toNat) (.ofNat now.toNat) (.ofNat leeway) =
      decide (exp + leeway < now) := by
  have ofExp := toNat_ofNat (n := exp.toNat) (by have := fits.2; omega)
  have ofNow := toNat_ofNat (n := now.toNat) (by omega)
  have ofLeeway := toNat_ofNat (n := leeway) (by omega)
  have le : UInt64.ofNat leeway ≤ UInt64.ofNat now.toNat := by
    rw [UInt64.le_iff_toNat_le, ofNow, ofLeeway]
    omega
  refine decide_eq_decide.2 ?_
  rw [UInt64.lt_iff_toNat_lt, UInt64.toNat_sub_of_le _ _ le, ofExp, ofNow, ofLeeway]
  omega

/-- **The check in words with sign is exact**: a sum that does not fit lies beyond every time
before the last. -/
theorem isOver_ofInt {exp now : Int} {leeway : Nat} (fits : IsInt64 exp)
    (late : (leeway : Int) ≤ now) (clock : now < Int64.maxValue.toInt) :
    isOver (.ofInt exp) (.ofInt now) (.ofNat leeway) = decide (exp + leeway ≤ now) := by
  have low : Int64.minValue.toInt ≤ 0 := by decide
  have ofLeeway := toNat_ofNat (n := leeway) (by omega)
  have sum : (saturatingAdd (.ofInt exp) (signed (.ofNat leeway))).toInt =
      min (exp + leeway) Int64.maxValue.toInt := by
    rw [saturatingAdd, toInt_ofIntClamp, signed, toInt_ofIntClamp, ofLeeway, toInt_ofInt fits]
    obtain ⟨lower, -⟩ := fits
    omega
  refine decide_eq_decide.2 ?_
  rw [Int64.le_iff_toInt_le, sum, toInt_ofInt ⟨by omega, by omega⟩]
  omega

end Expiry

namespace Verifier

variable {v : Verifier} {now : Int} {audience token : String} {m : Simulation} {s : SignedToken}
  {key : VerificationKey} {doc : Document} {members : List (RawString × Node)} {claims : Claims}

/-! ### The verdict -/

/-- What is answered for a token, given the first objection to its claims. -/
def answer (s : SignedToken) (claims : Claims) : Option Rejection → Except Failure ParsedToken
  | some why => .error (.rejected why)
  | none => .ok { raw := s.raw, header := s.header, claims, valid := true }

/-- The header, the key and the signature of a token are in order; `s` is the token taken apart. -/
structure Signed (m : Simulation) (token : String) (s : SignedToken) (key : VerificationKey) :
    Prop where
  /-- The token is taken apart, and its header is read. -/
  taken : SignedToken.ofString token = .ok s
  /-- The algorithm is accepted. -/
  accepted : s.header.alg ∈ Algorithm.accepted
  /-- The key that the header names is found. -/
  found : ∃ kid, s.header.kid = some kid ∧ (m.lookup kid).2 = .ok key
  /-- The key is not published for another algorithm. -/
  published : key.algorithm = none ∨ key.algorithm = some s.header.alg
  /-- Under the key, the third segment is a signature of the first two. -/
  fits : Fits s.header.alg key.material s.message s.signatureText

/-- A token whose header, key and signature are in order is judged under its key. -/
theorem Signed.verifyToken_eq (h : Signed m token s key) :
    (v.verifyToken now audience m token).2 = (v.verdict now audience s key.material).result := by
  obtain ⟨kid, named, found⟩ := h.found
  have hr : request token = .ok ⟨s, kid⟩ := request_eq_ok_iff.2 ⟨h.taken, named, h.accepted⟩
  exact verifyToken_eq_verdict hr found h.published

/-- The objections that the second reading leaves to the checks after it. -/
def remaining? (v : Verifier) (now : Int) (claims : Claims) : Option Rejection :=
  if v.issuer ≠ none ∧ claims.iss ≠ v.issuer then some .issuer
  else if claims.exp + v.leeway.secs ≤ now then some .expired
  else none

/-- The findings of the second reading are the objections up to the audience. -/
theorem objection?_eq {close : Option Fault} (late : (v.leeway.secs : Int) ≤ now)
    (root : doc.root = .object members close) (read : Claims.ofDocument doc = .ok claims)
    (told : 0 ≤ claims.exp ∨ TimeClaims.member? members "aud" ≠ none) :
    claims.objection? (TimeClaims.member? members "aud").isSome v.issuer now v.leeway.secs audience =
      (((TimeClaims.ofMembers members).finding? now v.leeway.secs audience).map
        Finding.rejection).or (v.remaining? now claims) := by
  have exp := TimeClaims.exp_ofMembers root read
  unfold Claims.objection? TimeClaims.finding? remaining?
  rcases TimeClaims.aud_ofMembers root read with ⟨missing, aud, -⟩ | ⟨node, there, aud⟩
  · -- without an audience the expiry is not negative, and is found
    have natural : 0 ≤ claims.exp := told.resolve_right (· missing)
    simp [exp, aud, missing, natural, Finding.rejection]
  · by_cases natural : 0 ≤ claims.exp
    · have whole : (claims.exp.toNat : Int) = claims.exp := Int.toNat_of_nonneg natural
      simp only [exp, aud, there, natural, if_true, whole, Option.isSome_some, Bool.true_eq_false,
        if_false]
      by_cases past : claims.exp + v.leeway.secs < now
      · simp [past, Finding.rejection]
      · have due : claims.exp + v.leeway.secs = now ↔ claims.exp + v.leeway.secs ≤ now := by omega
        by_cases named : audience ∈ claims.aud
        · simp [past, named, due]
        · simp [past, named, Finding.rejection]
    · -- a negative expiry is past, and the second reading does not find it
      have past : claims.exp + v.leeway.secs < now := by omega
      simp [exp, aud, there, natural, past, Finding.rejection]

/-- **A signed token with a plain payload gets the first objection to its claims**, unless the
second reading of the payload gets stuck. -/
theorem verdict_eq (late : (v.leeway.secs : Int) ≤ now) (expected : audience ≠ "")
    (fits : Fits s.header.alg key.material s.message s.signatureText)
    (payload : s.payload? = some doc) (plain : Plain doc members)
    (read : Claims.ofDocument doc = .ok claims)
    (told : 0 ≤ claims.exp ∨ TimeClaims.member? members "aud" ≠ none) :
    (v.verdict now audience s key.material).result =
      if TimeClaims.isStuck members then .error (.malformedToken .json)
      else answer s claims (claims.objection? (TimeClaims.member? members "aud").isSome v.issuer now
        v.leeway.secs audience) := by
  obtain ⟨close, root⟩ := root_of_members? plain.object
  have opened : open? s key.material now v.leeway.secs audience = _ :=
    (open?_of_fits fits).trans (readClaims_eq payload plain read)
  rw [objection?_eq late root read told, verdict, if_neg (by simpa using expected), opened]
  cases TimeClaims.isStuck members with
  | true => rfl
  | false =>
    simp only [Bool.false_eq_true, if_false]
    cases (TimeClaims.ofMembers members).finding? now v.leeway.secs audience with
    | some finding => rfl
    | none =>
      have foreign : (v.issuer.isSome && claims.iss != v.issuer) = true ↔
          v.issuer ≠ none ∧ claims.iss ≠ v.issuer := by
        rw [Bool.and_eq_true, Option.isSome_iff_ne_none, bne_iff_ne]
      simp only [Option.elim_none, Option.map_none, Option.none_or, foreign, remaining?]
      split
      · rfl
      · split <;> rfl

/-- **The verdict on a signed token.**  A token whose header, key and signature are in order and
whose payload is plain gets the first objection to its claims, or is accepted if there is none;
unless the second reading of the payload gets stuck, for which it is refused as ill-formed.  A
negative expiry together with a missing audience is left out.

Expiry is weighed exactly, though in words of 64 bits: for whatever expiry claims can state and at
every time but the last that a word can tell, both checks decide as sums without bound would. -/
theorem verdict_of_signed (v : Verifier) (now : Int) (audience token : String) (m : Simulation)
    (s : SignedToken) (key : VerificationKey) (doc : Document) (members : List (RawString × Node))
    (claims : Claims) (late : (v.leeway.secs : Int) ≤ now) (expected : audience ≠ "")
    (signed : Signed m token s key) (payload : s.payload? = some doc) (plain : Plain doc members)
    (read : Claims.ofDocument doc = .ok claims)
    (told : 0 ≤ claims.exp ∨ TimeClaims.member? members "aud" ≠ none) :
    ((v.verifyToken now audience m token).2 =
        (v.verdict now audience s key.material).result ∧
      (v.verdict now audience s key.material).result =
        if TimeClaims.isStuck members then .error (.malformedToken .json)
        else answer s claims (claims.objection? (TimeClaims.member? members "aud").isSome v.issuer
          now v.leeway.secs audience)) ∧
    (now < Int64.maxValue.toInt →
      (0 ≤ claims.exp →
        Expiry.isPast (.ofNat claims.exp.toNat) (.ofNat now.toNat) (.ofNat v.leeway.secs) =
          decide (claims.exp + v.leeway.secs < now)) ∧
      Expiry.isOver (.ofInt claims.exp) (.ofInt now) (.ofNat v.leeway.secs) =
        decide (claims.exp + v.leeway.secs ≤ now)) := by
  refine ⟨⟨signed.verifyToken_eq, verdict_eq late expected signed.fits payload plain read told⟩, ?_⟩
  intro clock
  have fits := (Claims.inRange_of_ofDocument read).exp
  exact ⟨fun natural => Expiry.isPast_ofNat natural fits late (by omega),
    Expiry.isOver_ofInt fits late clock⟩

/-! ### Two tokens -/

theorem Passes.signed {t : ParsedToken} {header payload signature : List Char}
    (h : v.Passes now audience m token t header payload signature) :
    ∃ key, Signed m token ⟨token, header, payload, signature, t.header⟩ key := by
  obtain ⟨kid, key, named, found, published, -, fits⟩ := h.key
  have cut := SignedToken.segments?_eq_some_iff.2 ⟨h.segments, h.payload_plain, h.signature_plain⟩
  exact ⟨key, SignedToken.ofString_eq_ok_iff.2 ⟨cut, h.header_read, rfl⟩, h.accepted,
    ⟨kid, named, found⟩, published, fits⟩

/-- A token for the expected audience that expires at this very second is rejected as expired. -/
theorem verdict_of_signed_now :
    (verifyToken {} 1700000001 "x" sampleCache (sampleToken plainPayload plainSignature)).2 =
      .error (.rejected .expired) := by
  obtain ⟨bytes, members, decoded, plain, walked⟩ :=
    exists_plain plainPayload.toList false (by decide +kernel)
  obtain ⟨bytes', decoded', read⟩ := passes_plain.claims_read
  obtain rfl : bytes = bytes' := Option.some.inj (decoded.symm.trans decoded')
  obtain ⟨key, signed⟩ := passes_plain.signed
  have payload := congrArg (Option.map Document.ofOctets) decoded
  obtain ⟨close, root⟩ := root_of_members? plain.object
  have told := (TimeClaims.aud_ofMembers root read).resolve_left fun missing => nomatch missing.2.2
  obtain ⟨node, there, -⟩ := told
  obtain ⟨⟨same, verdict⟩, -⟩ := verdict_of_signed {} 1700000001 "x" _ sampleCache _ key _ members _
    (by decide) (by decide) signed payload plain read (.inl (by decide))
  rw [same, verdict, walked, there]
  rfl

/-- Not every signed token with a plain payload gets the first objection to its claims, though its
key is found in a cache that has been reached: one that expires at this very second is refused as
ill-formed if it has a list as `nbf`. -/
theorem not_verdict_of_stuck :
    ¬ ∀ (v : Verifier) (now : Int) (audience token : String) (m : Simulation) (s : SignedToken)
        (key : VerificationKey) (doc : Document) (members : List (RawString × Node))
        (claims : Claims),
      (v.leeway.secs : Int) ≤ now → audience ≠ "" →
      (∃ since events keys as,
        Reaches m.policy (.load m.policy since events keys) as m.state) →
      Signed m token s key → s.payload? = some doc → Plain doc members →
      Claims.ofDocument doc = .ok claims →
      (0 ≤ claims.exp ∨ TimeClaims.member? members "aud" ≠ none) →
        (v.verdict now audience s key.material).result =
          answer s claims (claims.objection? (TimeClaims.member? members "aud").isSome v.issuer now
            v.leeway.secs audience) := by
  intro always
  obtain ⟨bytes, members, decoded, plain, stuck⟩ :=
    exists_plain stuckPayload.toList true (by decide +kernel)
  obtain ⟨bytes', decoded', read⟩ := passes_stuck.claims_read
  obtain rfl : bytes = bytes' := Option.some.inj (decoded.symm.trans decoded')
  obtain ⟨key, signed⟩ := passes_stuck.signed
  have payload := congrArg (Option.map Document.ofOctets) decoded
  have natural : (0 : Int) ≤ 1700000001 := by decide
  have first := always {} 1700000001 "x" _ sampleCache _ key _ members _ (by decide) (by decide)
    ⟨0, [], _, [], .refl _⟩ signed payload plain read (.inl natural)
  rw [verdict_eq (by decide) (by decide) signed.fits payload plain read (.inl natural), stuck,
    if_pos rfl] at first
  -- an objection is a rejection, and so is no objection not a malformed token
  revert first
  cases Claims.objection? _ _ _ _ _ _ <;> nofun

end Verifier

end BearerAuth
