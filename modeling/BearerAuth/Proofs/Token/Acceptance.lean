import BearerAuth.Authenticator
import BearerAuth.Proofs.Token.Readings

/-!
# Which tokens are accepted

A token is accepted exactly if it passes every check: it is signed by an accepted algorithm with the
key that it names, and its claims are for the audience, from the issuer and not expired.  There is
one exception.  The payload is read a second time for expiry and audience, and that reading gets
stuck in some values of the member `nbf`, which no check looks at.

* `Verifier.Passes` are the checks;
* `Verifier.request_eq_ok_iff` : which tokens ask for a key;
* `Verifier.passes_of_verifyToken`, `Verifier.verifyToken_of_passes` : the two directions;
* `Verifier.acceptance` : who is accepted passes, and who passes with a plain payload is accepted
  unless the second reading gets stuck.

The proof: a verification is a row of stages, and each of them passes on a token exactly if its
check is met.  What the second reading of the payload checks follows from the claims of the first,
since both find expiry and audience in the same members and read them alike.
-/

namespace BearerAuth

open Json KeyCache

/-! ### Around the lookup -/

theorem act_note_nil (m : Simulation) : m.act (.note []) = m := by
  simp [Simulation.act, step, State.note]

section

variable {α : Type} {q : Logged Request} {m : Simulation} {r : Request}
  {conclude : Request → Except Failure VerificationKey → Logged α}

theorem Logged.against_error {f : Failure} (h : q.result = .error f) :
    (q.against m conclude).2 = .error f := by
  simp only [against, h]

theorem Logged.against_ok (h : q.result = .ok r) (silent : q.events = []) :
    (q.against m conclude).2 = (conclude r (m.lookup r.kid).2).result := by
  simp only [against, h, silent, act_note_nil]

end

/-! ### Stages -/

/-- A token is taken apart at its last two points, and its header is read. -/
theorem SignedToken.ofString_eq_ok_iff {s : String} {t : SignedToken} :
    SignedToken.ofString s = .ok t ↔
      segments? s.toList = some (t.headerText, t.payloadText, t.signatureText) ∧
        readHeader t.headerText = .ok t.header ∧ t.raw = s := by
  unfold SignedToken.ofString
  cases cut : segments? s.toList with
  | none => simp
  | some parts =>
    obtain ⟨header, payload, signature⟩ := parts
    cases read : readHeader header with
    | error f =>
      simp only [read, reduceCtorEq, false_iff, Option.some.injEq, Prod.mk.injEq]
      rintro ⟨⟨rfl, -, -⟩, found, -⟩
      rw [read] at found
      cases found
    | ok h =>
      simp only [read, Except.ok.injEq, Option.some.injEq, Prod.mk.injEq]
      constructor
      · rintro rfl
        exact ⟨⟨rfl, rfl, rfl⟩, read, rfl⟩
      · rintro ⟨⟨rfl, rfl, rfl⟩, found, rfl⟩
        rw [read] at found
        cases found
        rfl

namespace Verifier

variable {v : Verifier} {now : Int} {audience token : String} {t : ParsedToken} {s : SignedToken}
  {r : Request} {key : KeyMaterial} {leeway : Nat} {claims : Claims} {m : Simulation}

theorem request_cases (token : String) :
    (∃ r, request token = .ok r) ∨ ∃ f events, request token = .fail f events := by
  unfold request
  split
  · exact .inr ⟨_, _, rfl⟩
  · split
    · exact .inr ⟨_, _, rfl⟩
    · split
      · exact .inl ⟨_, rfl⟩
      · exact .inr ⟨_, _, rfl⟩

theorem request_eq_ok_iff : request token = .ok r ↔
    SignedToken.ofString token = .ok r.token ∧ r.token.header.kid = some r.kid ∧
      r.token.header.alg ∈ Algorithm.accepted := by
  obtain ⟨s, kid⟩ := r
  unfold request
  cases SignedToken.ofString token with
  | error f => simp [Logged.ok, Logged.fail]
  | ok s' =>
    simp only [Except.ok.injEq]
    constructor
    · intro h
      split at h
      · cases h
      · rename_i named
        split at h <;> cases h
        rename_i accepted
        exact ⟨rfl, named, by simpa using accepted⟩
    · rintro ⟨rfl, named, accepted⟩
      simp only [named, List.contains_iff_mem, accepted, if_true]

/-! ### The payload -/

section

variable {doc : Document} {members : List (RawString × Node)} {close : Option Fault}

/-- In a payload that is no object, expiry and audience are not found. -/
theorem finding?_ne_none {c : TimeClaims} (h : TimeClaims.ofNode doc.root = .ok c)
    (other : ∀ members close, doc.root ≠ .object members close) :
    c.finding? now leeway audience ≠ none := by
  intro silent
  obtain ⟨exp, aud, found, -⟩ := TimeClaims.finding?_eq_none_iff.1 silent
  -- a list has fields of its own, and expiry and audience are not among them
  unfold TimeClaims.ofNode at h
  split at h
  · rename_i root
    exact other _ _ root
  · split at h
    · split at h <;> cases h
      cases found
    · cases h
  · cases h

theorem readClaims_eq_ok (h : readClaims s now leeway audience = .ok claims) :
    ∃ doc, s.payload? = some doc ∧ Claims.ofDocument doc = .ok claims ∧ audience ∈ claims.aud := by
  unfold readClaims at h
  cases payload : s.payload? with
  | none => rw [payload] at h; cases h
  | some doc =>
    simp only [payload] at h
    refine ⟨doc, rfl, ?_⟩
    cases read : Claims.ofDocument doc with
    | error f => rw [read] at h; cases h
    | ok claims' =>
      simp only [read] at h
      cases again : TimeClaims.ofNode doc.root with
      | error f => rw [again] at h; cases h
      | ok c =>
        simp only [again] at h
        cases silent : c.finding? now leeway audience with
        | some finding => rw [silent] at h; cases h
        | none =>
          rw [silent] at h
          cases h
          refine ⟨rfl, ?_⟩
          by_cases object : ∃ members close, doc.root = .object members close
          · obtain ⟨members, close, root⟩ := object
            rw [root, TimeClaims.ofNode_object] at again
            cases walked : TimeClaims.checkMembers false members with
            | error f => rw [walked] at again; cases again
            | ok =>
              rw [walked] at again
              cases again
              exact ((TimeClaims.finding?_ofMembers root read).1 silent).2.2
          · exact absurd silent (finding?_ne_none again fun members close root =>
              object ⟨members, close, root⟩)

/-- The members of a payload that is an object. -/
def members? (payload : Document) : Option (List (RawString × Node)) :=
  match payload.root with
  | .object members _ => some members
  | _ => none

/-- The payload is an object in which no name is repeated. -/
structure Plain (payload : Document) (members : List (RawString × Node)) : Prop where
  /-- It is an object with these members. -/
  object : members? payload = some members
  /-- No name is repeated. -/
  once : (members.map fun m => m.1.read.toOption).Nodup

theorem root_of_members? (h : members? doc = some members) :
    ∃ close, doc.root = .object members close := by
  unfold members? at h
  split at h
  · rename_i close root
    cases h
    exact ⟨close, root⟩
  · cases h

/-- A plain payload that is read as claims is read a second time, unless that reading gets stuck,
and judged by what it yields. -/
theorem readClaims_eq (payload : s.payload? = some doc) (plain : Plain doc members)
    (read : Claims.ofDocument doc = .ok claims) :
    readClaims s now leeway audience =
      if TimeClaims.isStuck members then .error (.inl .json)
      else ((TimeClaims.ofMembers members).finding? now leeway audience).elim (.ok claims)
        fun finding => .error (.inr finding) := by
  obtain ⟨close, root⟩ := root_of_members? plain.object
  simp only [readClaims, payload, read, root, TimeClaims.ofNode_object,
    TimeClaims.checkMembers_eq plain.once]
  cases TimeClaims.isStuck members with
  | true => rfl
  | false =>
    simp only [Bool.false_eq_true, if_false, Except.map]
    cases (TimeClaims.ofMembers members).finding? now leeway audience <;> rfl

/-- A plain payload whose claims are for the audience and not expired is read, unless the second
reading gets stuck. -/
theorem readClaims_of_plain (payload : s.payload? = some doc) (plain : Plain doc members)
    (read : Claims.ofDocument doc = .ok claims) (natural : 0 ≤ claims.exp)
    (early : now ≤ claims.exp + leeway) (named : audience ∈ claims.aud) :
    readClaims s now leeway audience =
      if TimeClaims.isStuck members then .error (.inl .json) else .ok claims := by
  obtain ⟨close, root⟩ := root_of_members? plain.object
  rw [readClaims_eq payload plain read,
    (TimeClaims.finding?_ofMembers root read).2 ⟨natural, early, named⟩, Option.elim_none]

end

/-! ### The signature -/

/-- The checker of an algorithm and a key finds that a signature fits. -/
def Fits (a : Algorithm) (k : KeyMaterial) (message : List UInt8) (signature : List Char) : Prop :=
  ∃ octets check, Text.Base64Url.decode? signature = some octets ∧
    Signature.checker? a k = some check ∧ check message octets = true

theorem open?_of_fits (h : Fits s.header.alg key s.message s.signatureText) :
    open? s key now leeway audience = readClaims s now leeway audience := by
  obtain ⟨octets, check, decoded, makes, fits⟩ := h
  simp only [open?, makes, SignedToken.signature?, decoded, fits, if_true]

theorem open?_eq_ok_iff : open? s key now leeway audience = .ok claims ↔
    Fits s.header.alg key s.message s.signatureText ∧
      readClaims s now leeway audience = .ok claims := by
  constructor
  · intro h
    have fits : Fits s.header.alg key s.message s.signatureText := by
      unfold open? at h
      split at h
      · cases h
      · rename_i check makes
        split at h
        · cases h
        · rename_i octets decoded
          split at h
          · rename_i fits
            exact ⟨octets, check, decoded, makes, fits⟩
          · cases h
    exact ⟨fits, open?_of_fits fits ▸ h⟩
  · rintro ⟨fits, h⟩
    rw [open?_of_fits fits, h]

theorem issued_iff (iss : Option String) : (v.issuer.isSome && iss != v.issuer) = false ↔
    ∀ expected, v.issuer = some expected → iss = some expected := by
  cases v.issuer <;> simp

theorem verdict_eq_ok_iff : (v.verdict now audience s key).result = .ok t ↔
    audience ≠ "" ∧ open? s key now v.leeway.secs audience = .ok t.claims ∧
      (∀ iss, v.issuer = some iss → t.claims.iss = some iss) ∧
      now < t.claims.exp + v.leeway.secs ∧ t.raw = s.raw ∧ t.header = s.header ∧
      t.valid = true := by
  obtain ⟨raw, header, claims, valid⟩ := t
  unfold verdict
  by_cases named : audience = ""
  · simp [named, Logged.reject, Logged.fail]
  rw [if_neg (by simpa using named)]
  cases opened : open? s key now v.leeway.secs audience with
  | error f => cases f <;> simp [Logged.reject, Logged.fail]
  | ok claims' =>
    simp only [Except.ok.injEq]
    constructor
    · intro h
      split at h
      · cases h
      · rename_i issued
        split at h
        · cases h
        · rename_i early
          cases h
          exact ⟨named, rfl, (issued_iff _).1 (by simpa using issued), by omega, rfl, rfl, rfl⟩
    · rintro ⟨-, rfl, issued, early, rfl, rfl, rfl⟩
      rw [if_neg (by rw [(issued_iff _).2 issued]; exact Bool.false_ne_true), if_neg (by omega)]
      rfl

theorem verdict_of_malformed {f : TokenFault} (named : audience ≠ "")
    (h : open? s key now v.leeway.secs audience = .error (.inl f)) :
    (v.verdict now audience s key).result = .error (.malformedToken f) := by
  simp only [verdict, h]
  rw [if_neg (by simpa using named)]
  rfl

theorem permits_iff {key : VerificationKey} {a : Algorithm} :
    key.permits a = true ↔ key.algorithm = none ∨ key.algorithm = some a := by
  simp [VerificationKey.permits]

theorem conclude_of_permits {key : VerificationKey}
    (h : key.algorithm = none ∨ key.algorithm = some r.token.header.alg) :
    v.conclude now audience r (.ok key) = v.verdict now audience r.token key.material := by
  simp only [conclude, permits_iff.2 h, if_true]

theorem conclude_eq_ok_iff {found : Except Failure VerificationKey} :
    (v.conclude now audience r found).result = .ok t ↔
      ∃ key, found = .ok key ∧
        (key.algorithm = none ∨ key.algorithm = some r.token.header.alg) ∧
        (v.verdict now audience r.token key.material).result = .ok t := by
  cases found with
  | error f => cases f <;> simp [conclude, Logged.fail]
  | ok key =>
    simp only [Except.ok.injEq, exists_eq_left']
    by_cases permitted : key.algorithm = none ∨ key.algorithm = some r.token.header.alg
    · rw [conclude_of_permits permitted]
      exact ⟨fun h => ⟨permitted, h⟩, And.right⟩
    · have refused : key.permits r.token.header.alg = false := by
        rw [Bool.eq_false_iff]
        exact permitted ∘ permits_iff.1
      simp [conclude, refused, permitted, Logged.fail]

/-- A token that asks for a key which is found, and not published for another algorithm, is judged
under it. -/
theorem verifyToken_eq_verdict {key : VerificationKey} (hr : request token = .ok r)
    (found : (m.lookup r.kid).2 = .ok key)
    (published : key.algorithm = none ∨ key.algorithm = some r.token.header.alg) :
    (v.verifyToken now audience m token).2 =
      (v.verdict now audience r.token key.material).result := by
  rw [verifyToken, Logged.against_ok (by rw [hr]; rfl) (by rw [hr]; rfl), found,
    conclude_of_permits published]

/-! ### The whole -/

/-- What makes a token of three segments pass as `t` : all checks, and what `t` tells of it. -/
structure Passes (v : Verifier) (now : Int) (audience : String) (m : Simulation) (token : String)
    (t : ParsedToken) (header payload signature : List Char) : Prop where
  /-- The segments stand around two points. -/
  segments : token.toList = header ++ '.' :: (payload ++ '.' :: signature)
  /-- There is no point in the second segment. -/
  payload_plain : '.' ∉ payload
  /-- There is none in the third. -/
  signature_plain : '.' ∉ signature
  /-- The first segment is the header. -/
  header_read : SignedToken.readHeader header = .ok t.header
  /-- Its algorithm is accepted. -/
  accepted : t.header.alg ∈ Algorithm.accepted
  /-- It names a key that is found, that is not published for another algorithm and that is of the
  algorithm's family; and under this key the third segment is a signature of the first two. -/
  key : ∃ kid key, t.header.kid = some kid ∧ (m.lookup kid).2 = .ok key ∧
    (key.algorithm = none ∨ key.algorithm = some t.header.alg) ∧
    key.material.family = t.header.alg.family ∧
    Fits t.header.alg key.material (Text.Utf8.octets (String.ofList (header ++ '.' :: payload)))
      signature
  /-- Some audience is expected. -/
  expected : audience ≠ ""
  /-- The second segment is the claims. -/
  claims_read : ∃ bytes, Text.Base64Url.decode? payload = some bytes ∧
    Claims.ofDocument (.ofOctets bytes) = .ok t.claims
  /-- They are for the audience. -/
  audience : audience ∈ t.claims.aud
  /-- They are from the issuer, if one is expected. -/
  issuer : ∀ iss, v.issuer = some iss → t.claims.iss = some iss
  /-- They have not expired. -/
  early : now < t.claims.exp + v.leeway.secs
  /-- It is this token. -/
  raw : t.raw = token
  /-- It is told to be valid. -/
  valid : t.valid = true

theorem passes_of_verifyToken (h : (v.verifyToken now audience m token).2 = .ok t) :
    ∃ header payload signature, v.Passes now audience m token t header payload signature := by
  rcases request_cases token with ⟨r, hr⟩ | ⟨f, events, hr⟩
  · rw [verifyToken, Logged.against_ok (by rw [hr]; rfl) (by rw [hr]; rfl)] at h
    -- one stage after the other, in the order in which they are passed
    obtain ⟨taken, named, accepted⟩ := request_eq_ok_iff.1 hr
    obtain ⟨cut, header_read, raw⟩ := SignedToken.ofString_eq_ok_iff.1 taken
    obtain ⟨segments, payload_plain, signature_plain⟩ := SignedToken.segments?_eq_some_iff.1 cut
    obtain ⟨key, found, published, judged⟩ := conclude_eq_ok_iff.1 h
    obtain ⟨expected, opened, issuer, early, raw', header, valid⟩ := verdict_eq_ok_iff.1 judged
    obtain ⟨fits, read⟩ := open?_eq_ok_iff.1 opened
    obtain ⟨doc, payload, claims, audience⟩ := readClaims_eq_ok read
    obtain ⟨bytes, decoded, rfl⟩ := Option.map_eq_some_iff.1 payload
    have family : key.material.family = r.token.header.alg.family := by
      obtain ⟨_, check, -, makes, -⟩ := fits
      exact Signature.family_of_checker? makes
    rw [← header] at header_read accepted named published family fits
    exact ⟨_, _, _, segments, payload_plain, signature_plain, header_read, accepted,
      ⟨r.kid, key, named, found, published, family, fits⟩, expected, ⟨bytes, decoded, claims⟩,
      audience, issuer, early, raw'.trans raw, valid⟩
  · rw [verifyToken, Logged.against_error (f := f) (by rw [hr]; rfl)] at h
    cases h

theorem verifyToken_of_passes {header payload signature : List Char} {bytes : List UInt8}
    {members : List (RawString × Node)}
    (passes : v.Passes now audience m token t header payload signature)
    (decoded : Text.Base64Url.decode? payload = some bytes)
    (plain : Plain (.ofOctets bytes) members) (late : (v.leeway.secs : Int) ≤ now) :
    (v.verifyToken now audience m token).2 =
      if TimeClaims.isStuck members then .error (.malformedToken .json) else .ok t := by
  obtain ⟨kid, key, named, found, published, -, fits⟩ := passes.key
  obtain ⟨bytes', decoded', claims⟩ := passes.claims_read
  -- there is one payload
  rw [decoded] at decoded'
  cases decoded'
  -- the token taken apart, and the request for its key
  let s : SignedToken := ⟨token, header, payload, signature, t.header⟩
  have cut : SignedToken.ofString token = .ok s :=
    SignedToken.ofString_eq_ok_iff.2
      ⟨SignedToken.segments?_eq_some_iff.2
        ⟨passes.segments, passes.payload_plain, passes.signature_plain⟩, passes.header_read, rfl⟩
  have hr : request token = .ok ⟨s, kid⟩ := request_eq_ok_iff.2 ⟨cut, named, passes.accepted⟩
  have judged : (v.verifyToken now audience m token).2 =
      (v.verdict now audience s key.material).result :=
    verifyToken_eq_verdict hr found published
  have payload_read : s.payload? = some (.ofOctets bytes) := by
    simp only [SignedToken.payload?, s, decoded, Option.map_some]
  have early := passes.early
  have read : readClaims s now v.leeway.secs audience =
      if TimeClaims.isStuck members then .error (.inl .json) else .ok t.claims :=
    readClaims_of_plain payload_read plain claims (by omega) (by omega) passes.audience
  rw [judged]
  split
  · rename_i stuck
    rw [if_pos stuck] at read
    refine verdict_of_malformed passes.expected ?_
    rw [open?_of_fits fits, read]
  · rename_i walked
    rw [if_neg walked] at read
    refine verdict_eq_ok_iff.2 ⟨passes.expected, ?_, passes.issuer, early, passes.raw, rfl,
      passes.valid⟩
    rw [open?_of_fits fits, read]

/-- **Which tokens are accepted.**  Who is accepted passes every check.  Who passes with a plain
payload is accepted, unless the second reading of the payload gets stuck, for which the token is
refused as ill-formed. -/
theorem acceptance (v : Verifier) (now : Int) (audience token : String) (m : Simulation)
    (late : (v.leeway.secs : Int) ≤ now) :
    (∀ t, (v.verifyToken now audience m token).2 = .ok t →
        ∃ header payload signature, v.Passes now audience m token t header payload signature) ∧
      ∀ t header payload signature bytes members,
        v.Passes now audience m token t header payload signature →
        Text.Base64Url.decode? payload = some bytes → Plain (.ofOctets bytes) members →
          (v.verifyToken now audience m token).2 =
            if TimeClaims.isStuck members then .error (.malformedToken .json) else .ok t :=
  ⟨fun _ h => passes_of_verifyToken h,
    fun _ _ _ _ _ _ passes decoded plain => verifyToken_of_passes passes decoded plain late⟩

/-! ### Two tokens -/

/-- A key of 512 bits with exponent 3. -/
def sampleKey : VerificationKey where
  material := .rsa ((Text.Base64Url.decode? <| String.toList
    "wUYtF-lrzgfEcdQ-cPnM26uQuuI-U8kJ3RT14qnlGcKLTWIfyKpYesvge9MKJ1XDetk7darcVwSNlFgBTqStow").getD []) [3]
  algorithm := none

/-- A source that never changes. -/
def fixedPolicy : Policy := ⟨"keys", false, ⟨.zero, .zero, .zero⟩, false⟩

/-- A cache that has just loaded the key. -/
def sampleCache : Simulation where
  policy := fixedPolicy
  source := ⟨.zero, ⟨[], .crashed⟩⟩
  state := .load fixedPolicy 0 [] ⟨[("a", sampleKey)]⟩

/-- The header that names the key, encoded. -/
def sampleHeader : String := "eyJhbGciOiJSUzI1NiIsImtpZCI6ImEifQ"

/-- A token with this header. -/
def sampleToken (payload signature : String) : String :=
  sampleHeader ++ "." ++ payload ++ "." ++ signature

/-- What the token is read as. -/
def sampleParsed (payload signature : String) : ParsedToken where
  raw := sampleToken payload signature
  header :=
    ⟨none, .rs256, none, none, none, some "a", none, none, none, none, none, none, none, none, none,
      []⟩
  claims := ⟨none, none, ["x"], 1700000001, none, []⟩
  valid := true

theorem passes_sampleToken {payload signature : String}
    (plain : '.' ∉ payload.toList ∧ '.' ∉ signature.toList)
    (fits : ((Text.Base64Url.decode? signature.toList).any fun octets =>
      (Signature.checker? .rs256 sampleKey.material).any fun check =>
        check (Text.Utf8.octets (String.ofList (sampleHeader.toList ++ '.' :: payload.toList)))
          octets) = true)
    (claims : ((Text.Base64Url.decode? payload.toList).bind fun bytes =>
      (Claims.ofDocument (.ofOctets bytes)).toOption) =
        some (sampleParsed payload signature).claims) :
    Passes {} 1700000000 "x" sampleCache (sampleToken payload signature)
      (sampleParsed payload signature) sampleHeader.toList payload.toList signature.toList where
  segments := by simp [sampleToken, String.toList_append]
  payload_plain := plain.1
  signature_plain := plain.2
  header_read := by
    have read : (SignedToken.readHeader sampleHeader.toList).toOption =
        some (sampleParsed "" "").header := by decide +kernel
    exact eq_ok_of_toOption read
  accepted := show Algorithm.rs256 ∈ Algorithm.accepted by decide
  key := by
    have found : (sampleCache.lookup "a").2.toOption = some sampleKey := by decide +kernel
    obtain ⟨octets, decoded, fits⟩ := (Option.any_eq_true _ _).1 fits
    obtain ⟨check, makes, fits⟩ := (Option.any_eq_true _ _).1 fits
    exact ⟨"a", sampleKey, rfl, eq_ok_of_toOption found, .inl rfl, rfl, octets, check, decoded,
      makes, fits⟩
  expected := by decide
  claims_read := by
    obtain ⟨bytes, decoded, read⟩ := Option.bind_eq_some_iff.1 claims
    exact ⟨bytes, decoded, eq_ok_of_toOption read⟩
  audience := List.mem_singleton_self _
  issuer := nofun
  early := show (1700000000 : Int) < 1700000001 + Duration.zero.secs by decide
  raw := rfl
  valid := rfl

theorem exists_plain (payload : List Char) (stuck : Bool)
    (h : (((Text.Base64Url.decode? payload).bind fun bytes => members? (.ofOctets bytes)).any
      fun members => decide (members.map fun m => m.1.read.toOption).Nodup &&
        TimeClaims.isStuck members == stuck) = true) :
    ∃ bytes members, Text.Base64Url.decode? payload = some bytes ∧
      Plain (.ofOctets bytes) members ∧ TimeClaims.isStuck members = stuck := by
  obtain ⟨members, object, found⟩ := (Option.any_eq_true _ _).1 h
  obtain ⟨bytes, decoded, object⟩ := Option.bind_eq_some_iff.1 object
  simp only [Bool.and_eq_true, decide_eq_true_eq, beq_iff_eq] at found
  exact ⟨bytes, members, decoded, ⟨object, found.1⟩, found.2⟩

/-- The claims `aud` and `exp`, encoded. -/
def plainPayload : String := "eyJhdWQiOiJ4IiwiZXhwIjoxNzAwMDAwMDAxfQ"

/-- The signature of the token with these claims. -/
def plainSignature : String :=
  "WgHsgogcN9GVkJMrdloERFpimJpRoBDuCWfdiPm71IFBmvyrz-vVnz-y2uJ775hJAC7UxSLrKFarSvUBquiI9w"

theorem passes_plain : Passes {} 1700000000 "x" sampleCache (sampleToken plainPayload plainSignature)
    (sampleParsed plainPayload plainSignature) sampleHeader.toList plainPayload.toList
    plainSignature.toList :=
  passes_sampleToken (by decide +kernel) (by decide +kernel) (by decide +kernel)

/-- A token with the claims `aud` and `exp` is accepted. -/
theorem acceptance_plain :
    (verifyToken {} 1700000000 "x" sampleCache (sampleToken plainPayload plainSignature)).2 =
      .ok (sampleParsed plainPayload plainSignature) := by
  obtain ⟨bytes, members, decoded, plain, walked⟩ :=
    exists_plain plainPayload.toList false (by decide +kernel)
  rw [(acceptance _ _ _ _ _ (by decide)).2 _ _ _ _ _ _ passes_plain decoded plain, walked]
  rfl

/-- The claims `aud` and `exp` and a list as `nbf`, encoded. -/
def stuckPayload : String := "eyJhdWQiOiJ4IiwiZXhwIjoxNzAwMDAwMDAxLCJuYmYiOlsxXX0"

/-- The signature of the token with these claims. -/
def stuckSignature : String :=
  "lq8u4btULiCKjqOrxk-m0XMWjSC4Wo5piM_ZLN4iGQHbAr4XioMX0H0uEhF5Wf8DptDHL6fQqvw-vQ6kP_NbTg"

theorem passes_stuck : Passes {} 1700000000 "x" sampleCache (sampleToken stuckPayload stuckSignature)
    (sampleParsed stuckPayload stuckSignature) sampleHeader.toList stuckPayload.toList
    stuckSignature.toList :=
  passes_sampleToken (by decide +kernel) (by decide +kernel) (by decide +kernel)

/-- Not every token that passes with a plain payload is accepted, though its key is found in a cache
that has been reached: with a list as `nbf` it is refused. -/
theorem not_accepted_of_passes :
    ¬ ∀ (v : Verifier) (now : Int) (audience token : String) (m : Simulation) (t : ParsedToken)
        (header payload signature : List Char) (bytes : List UInt8)
        (members : List (RawString × Node)),
      (v.leeway.secs : Int) ≤ now →
      (∃ since events keys as,
        Reaches m.policy (.load m.policy since events keys) as m.state) →
      v.Passes now audience m token t header payload signature →
      Text.Base64Url.decode? payload = some bytes → Plain (.ofOctets bytes) members →
        (v.verifyToken now audience m token).2 = .ok t := by
  intro always
  obtain ⟨bytes, members, decoded, plain, stuck⟩ :=
    exists_plain stuckPayload.toList true (by decide +kernel)
  have early : (({} : Verifier).leeway.secs : Int) ≤ 1700000000 := by decide
  have accepted := always _ _ _ _ _ _ _ _ _ _ _ early ⟨0, [], _, [], .refl _⟩ passes_stuck decoded
    plain
  rw [verifyToken_of_passes passes_stuck decoded plain early, if_pos stuck] at accepted
  cases accepted

end Verifier

end BearerAuth
