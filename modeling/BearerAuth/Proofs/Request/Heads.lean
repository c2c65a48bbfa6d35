import BearerAuth.Proofs.Request.Credentials
import Mathlib.Data.List.Forall2

/-!
# What of a head is looked at

The answer to a request depends on the value of its first `Authorization` line, and on nothing else
in its head.  It is that of the verification of this value, with the user in place of the token.

* `RequestHead.Named` says that a line has this name in any letters, and `RequestHead.First` what
  the value of the first such line is;
* `RequestHead.Presents` says which value a head presents;
* `Authenticator.authenticate_of_presents`, `Authenticator.authenticate_of_first` : the value is
  authenticated, and the first line decides;
* `Authenticator.authenticateValue_eq` : an authentication is a verification, and then a translation
  of what was verified;
* `Authenticator.answer_of_head` : both together.

The proof: the head is looked at in one place, which finds the first line.  After the lookup the
user is made of the token without a failure or an event of its own.
-/

namespace BearerAuth

open KeyCache

/-! ### Lines -/

theorem toLower_eq_iff {c l : Char} (small : 'a' ≤ l ∧ l ≤ 'z') :
    c.toLower = l ↔ c = l ∨ c = l.toUpper := by
  have range : 97 ≤ l.toNat ∧ l.toNat ≤ 122 := small
  have upper : l.toUpper.toNat = l.toNat - 32 := by
    delta Char.toUpper
    rw [dif_pos (show 'a'.val ≤ l.val ∧ l.val ≤ 'z'.val from small)]
    change (l.val + 4294967264).toNat = _
    rw [UInt32.toNat_add]
    change (l.toNat + 4294967264) % 2 ^ 32 = _
    omega
  simp only [← Char.toNat_inj, upper]
  by_cases capital : c.val ≥ 'A'.val ∧ c.val ≤ 'Z'.val
  · have range' : 65 ≤ c.toNat ∧ c.toNat ≤ 90 := capital
    have lower : c.toLower.toNat = c.toNat + 32 := by
      delta Char.toLower
      rw [dif_pos capital]
      change (c.val + 32).toNat = _
      rw [UInt32.toNat_add]
      change (c.toNat + 32) % 2 ^ 32 = _
      omega
    omega
  · have range' : ¬ (65 ≤ c.toNat ∧ c.toNat ≤ 90) := capital
    have lower : c.toLower = c := by
      delta Char.toLower
      rw [dif_neg capital]
    rw [lower]
    omega

theorem map_toLower_eq_iff {cs ls : List Char} (small : ∀ l ∈ ls, 'a' ≤ l ∧ l ≤ 'z') :
    cs.map Char.toLower = ls ↔ List.Forall₂ (fun c l => c = l ∨ c = l.toUpper) cs ls := by
  induction ls generalizing cs with
  | nil => simp
  | cons l ls ih =>
    cases cs with
    | nil => simp
    | cons c cs =>
      rw [List.map_cons, List.cons.injEq, List.forall₂_cons,
        toLower_eq_iff (small l (List.mem_cons_self ..)),
        ih fun k hk => small k (List.mem_cons_of_mem _ hk)]

namespace RequestHead

/-- The name is `Authorization`, in any letters. -/
def Named (name : String) : Prop :=
  List.Forall₂ (fun c l => c = l ∨ c = l.toUpper) name.toList "authorization".toList

theorem isAuthorization_iff {name : String} : isAuthorization name = true ↔ Named name := by
  have small : "authorization".toList.all (fun l => 'a' ≤ l && l ≤ 'z') = true := rfl
  rw [isAuthorization, beq_iff_eq, authorizationName]
  refine map_toLower_eq_iff fun l hl => ?_
  simpa using List.all_eq_true.1 small l hl

/-- The value of the first line of a head that is named `Authorization`, if there is one. -/
inductive First : RequestHead → Option (List UInt8) → Prop where
  /-- There is none. -/
  | missing {head : RequestHead} (others : ∀ line ∈ head, ¬ Named line.1) : First head none
  /-- The lines before it have other names, and those after it do not matter. -/
  | found {before after : RequestHead} {name : String} (value : List UInt8)
    (others : ∀ line ∈ before, ¬ Named line.1) (named : Named name) :
    First (before ++ (name, value) :: after) (some value)

theorem First.leading {after : RequestHead} {name : String} (value : List UInt8)
    (named : Named name) : First ((name, value) :: after) (some value) :=
  show First ([] ++ (name, value) :: after) _ from .found value nofun named

theorem First.behind {line : String × List UInt8} {head : RequestHead}
    {first : Option (List UInt8)} (other : ¬ Named line.1) (h : head.First first) :
    First (line :: head) first := by
  cases h with
  | missing others => exact .missing (List.forall_mem_cons.2 ⟨other, others⟩)
  | @found before after name value others named =>
    rw [← List.cons_append]
    exact .found value (List.forall_mem_cons.2 ⟨other, others⟩) named

/-- **The first line is what the search finds.** -/
theorem First.find?_eq {head : RequestHead} {value : Option (List UInt8)} (h : head.First value) :
    (head.find? (isAuthorization ·.1)).map (·.2) = value := by
  cases h with
  | missing others =>
    have missed : head.find? (isAuthorization ·.1) = none := by
      refine List.find?_eq_none.2 fun line hl => ?_
      rw [isAuthorization_iff]
      exact others line hl
    rw [missed, Option.map_none]
  | @found before after name value others named =>
    have missed : before.find? (isAuthorization ·.1) = none := by
      refine List.find?_eq_none.2 fun line hl => ?_
      rw [isAuthorization_iff]
      exact others line hl
    have found : ((name, value) :: after).find? (isAuthorization ·.1) = some (name, value) :=
      List.find?_cons_of_pos (isAuthorization_iff.2 named)
    rw [List.find?_append, missed, Option.none_or, found, Option.map_some]

/-- The characters that some octets are. -/
def characters (value : List UInt8) : String :=
  String.ofList (value.map fun b => Char.ofNat b.toNat)

/-- A head presents an `Authorization` value: that of the first line, of octets that are printable
or tabs, or the empty one if there is no such line. -/
inductive Presents (head : RequestHead) : String → Prop where
  /-- There is no line. -/
  | nothing (missing : head.First none) : Presents head ""
  /-- The first line is text. -/
  | line {value : List UInt8} (first : head.First (some value))
    (text : ∀ b ∈ value, (0x20 ≤ b ∧ b ≤ 0x7e) ∨ b = 0x09) : Presents head (characters value)

theorem isText_iff {b : UInt8} : isText b = true ↔ (0x20 ≤ b ∧ b ≤ 0x7e) ∨ b = 0x09 := by
  simp [isText]

/-- The text of the value of the first line; that there is none is the same as that it is empty. -/
def readFirst : Option (List UInt8) → Except CredentialFault String
  | none => .ok ""
  | some value => if value.all isText then .ok (characters value) else .error .notText

theorem First.authorization?_eq {head : RequestHead} {first : Option (List UInt8)}
    (h : head.First first) : head.authorization? = readFirst first := by
  have found := h.find?_eq
  unfold authorization?
  cases line : head.find? (isAuthorization ·.1) with
  | none =>
    rw [line] at found
    cases found
    rfl
  | some line' =>
    rw [line] at found
    cases found
    unfold readFirst text?
    cases octets : line'.2.all isText <;> simp [octets, characters]

theorem Presents.authorization?_eq {head : RequestHead} {authorization : String}
    (h : head.Presents authorization) : head.authorization? = .ok authorization := by
  cases h with
  | nothing missing => exact missing.authorization?_eq
  | line first text =>
    rw [first.authorization?_eq]
    exact if_pos (List.all_eq_true.2 fun b hb => isText_iff.2 (text b hb))

theorem First.authorization?_eq_error {head : RequestHead} {value : List UInt8}
    (h : head.First (some value)) (other : ∃ b ∈ value, ¬ (0x20 ≤ b ∧ b ≤ 0x7e) ∧ b ≠ 0x09) :
    head.authorization? = .error .notText := by
  obtain ⟨b, mem, unprintable, noTab⟩ := other
  rw [h.authorization?_eq]
  refine if_neg fun all => ?_
  exact (isText_iff.1 (List.all_eq_true.1 all b mem)).elim unprintable noTab

end RequestHead

namespace Authenticator

variable (a : Authenticator) (now : Int) (m : Simulation) {head head' : RequestHead}
  {first : Option (List UInt8)}

/-! ### Before the lookup -/

theorem authenticate_of_presents {authorization : String} (h : head.Presents authorization) :
    a.authenticate now m head = a.authenticateValue now m authorization := by
  rw [authenticate, request, h.authorization?_eq]
  rfl

theorem authenticate_of_error {fault : CredentialFault} (h : head.authorization? = .error fault) :
    a.authenticate now m head = (m, .error (.credential fault a.verifier.hint)) := by
  rw [authenticate, request, h]
  exact congrArg (·, _) (act_note_nil m)

/-- The first line decides. -/
theorem authenticate_of_first (h : head.First first) (h' : head'.First first) :
    a.authenticate now m head = a.authenticate now m head' := by
  rw [authenticate, authenticate, request, request, h.authorization?_eq, h'.authorization?_eq]

/-! ### After the lookup -/

/-- It makes no difference whether a result is translated where it is judged or later. -/
theorem against_andThen {α β : Type} (q : Logged Request) (f : α → β)
    (judge : Request → Except Failure VerificationKey → Logged α) :
    (q.against m fun r found => (judge r found).andThen fun t => .ok (f t)) =
      (q.against m judge).map id (Except.map f) := by
  unfold Logged.against
  cases q.result with
  | error why => rfl
  | ok r =>
    dsimp only
    generalize Simulation.lookup _ r.kid = looked
    obtain ⟨n, found⟩ := looked
    simp only [andThen_ok]
    rfl

/-- **An authentication is a verification**, and then a translation of what was verified. -/
theorem authenticateValue_eq (authorization : String) : a.authenticateValue now m authorization =
    (a.verifier.verify now a.audience m authorization).map id (Except.map a.userOf) :=
  against_andThen m (a.verifier.requestOf authorization) a.userOf
    (a.verifier.conclude now a.audience)

/-- **What of a head is looked at.**  Heads whose first `Authorization` lines have the same value,
or which have none, get the same answer and have the same effect on the cache.  No line is as good
as an empty one.  A first line with an octet that is neither printable nor a tab is refused and
leaves the cache alone, whatever lines follow.  In all other cases a user is authenticated exactly
if the value is verified, and is the one of the token, with the roles of the token that have an
entry, translated one by one; if it is not verified, the failure is the same. -/
theorem answer_of_head :
    (∀ head head' first, RequestHead.First head first → RequestHead.First head' first →
      a.authenticate now m head = a.authenticate now m head') ∧
    (∀ head name, RequestHead.First head none → RequestHead.Named name →
      a.authenticate now m head = a.authenticate now m [(name, [])]) ∧
    (∀ head value, RequestHead.First head (some value) →
      (∃ b ∈ value, ¬ (0x20 ≤ b ∧ b ≤ 0x7e) ∧ b ≠ 0x09) →
      a.authenticate now m head = (m, .error (.credential .notText a.verifier.hint))) ∧
    ∀ head authorization, RequestHead.Presents head authorization → ∀ n,
      (∀ u, a.authenticate now m head = (n, .ok u) ↔
        ∃ p, a.verifier.verify now a.audience m authorization = (n, .ok p) ∧
          u.subject = p.claims.sub ∧ u.roles = p.claims.realmRoles.filterMap a.roles.get?) ∧
      ∀ f, a.authenticate now m head = (n, .error f) ↔
        a.verifier.verify now a.audience m authorization = (n, .error f) := by
  refine ⟨fun head head' first => authenticate_of_first a now m, fun head name missing named => ?_,
    fun head value first other =>
      authenticate_of_error a now m (first.authorization?_eq_error other),
    fun head authorization presents n => ?_⟩
  · have presents : RequestHead.Presents [(name, [])] "" := .line (.leading [] named) nofun
    rw [authenticate_of_presents a now m (.nothing missing),
      authenticate_of_presents a now m presents]
  · rw [authenticate_of_presents a now m presents, authenticateValue_eq]
    obtain ⟨n', verified⟩ := a.verifier.verify now a.audience m authorization
    cases verified with
    | error f => exact ⟨fun u => by simp [Except.map], fun f => by simp [Except.map]⟩
    | ok p =>
      refine ⟨fun u => ?_, fun f => by simp [Except.map]⟩
      obtain ⟨roles, subject⟩ := u
      simp only [Prod.map, id, Except.map, userOf, RoleTable.translate, Prod.mk.injEq,
        Except.ok.injEq, User.mk.injEq]
      constructor
      · rintro ⟨rfl, rfl, rfl⟩
        exact ⟨p, ⟨rfl, rfl⟩, rfl, rfl⟩
      · rintro ⟨_, ⟨rfl, rfl⟩, rfl, rfl⟩
        exact ⟨rfl, rfl, rfl⟩

/-- An authenticator with one entry in its table. -/
def rolesAuthenticator : Authenticator := ⟨{}, .ofPairs [("r", "admin")], "x"⟩

/-- The claims `aud` and `exp` and the roles `r` and `s`, encoded. -/
def rolesPayload : String :=
  "eyJhdWQiOiJ4IiwiZXhwIjoxNzAwMDAwMDAxLCJyZWFsbV9hY2Nlc3MiOnsicm9sZXMiOlsiciIsInMiXX19"

/-- The signature of the token with these claims. -/
def rolesSignature : String :=
  "QPfEQRjFd9mLTmwh9IKRVMyd1ES4d9OqcDz89tRKNJTG_FJQTyKTm88hPgc_iVgM35fJ_N5yuEAk7YwQpmAfQQ"

/-- The token with these roles. -/
def rolesToken : String := Verifier.sampleToken rolesPayload rolesSignature

/-- The value that bears it. -/
def rolesValue : List UInt8 := Text.Utf8.octets ("Bearer " ++ rolesToken)

theorem verify_rolesValue : ∃ n p,
    rolesAuthenticator.verifier.verify 1700000000 "x" Verifier.sampleCache
      (RequestHead.characters rolesValue) = (n, .ok p) ∧
    p.claims.sub = none ∧
    p.claims.realmRoles.filterMap rolesAuthenticator.roles.get? = ["admin"] := by
  have spells : Credential.Spells (RequestHead.characters rolesValue) rolesToken :=
    ⟨"", " ", "", by decide +kernel, by decide, by decide, by decide, by decide +kernel, by decide⟩
  have read : ((Verifier.verifyToken {} 1700000000 "x" Verifier.sampleCache
      rolesToken).2.toOption.map fun p =>
        (p.claims.sub, p.claims.realmRoles.filterMap rolesAuthenticator.roles.get?)) =
          some (none, ["admin"]) := by decide +kernel
  rw [Verifier.verify_of_spells spells, show rolesAuthenticator.verifier = {} from rfl]
  generalize Verifier.verifyToken {} 1700000000 "x" Verifier.sampleCache rolesToken = verified at *
  obtain ⟨p, answer, claimed⟩ := Option.map_eq_some_iff.1 read
  obtain ⟨subject, roles⟩ := Prod.mk.inj claimed
  exact ⟨_, p, Prod.ext rfl (Json.eq_ok_of_toOption answer), subject, roles⟩

/-- A head with two lines, the second of which does not matter; one without a line; a first line
that is not text; and a head with a token that is verified, one of whose roles has an entry. -/
theorem answer_of_head_rolesValue :
    (sampleAuthenticator.authenticate 0 emptyCache
        [("Host", []), ("AUTHORIZATION", [0x78]), ("Authorization", [0xff])] =
      sampleAuthenticator.authenticate 0 emptyCache [("authorization", [0x78])]) ∧
    (sampleAuthenticator.authenticate 0 emptyCache [("Host", [0x78])] =
        sampleAuthenticator.authenticate 0 emptyCache [("Authorization", [])] ∧
      (sampleAuthenticator.authenticate 0 emptyCache [("Host", [0x78])]).2 =
        .error (.credential .missing "")) ∧
    sampleAuthenticator.authenticate 0 emptyCache
        [("Authorization", [0x78, 0xff]), ("Authorization", [0x78])] =
      (emptyCache, .error (.credential .notText "")) ∧
    (rolesAuthenticator.authenticate 1700000000 Verifier.sampleCache
        [("Authorization", rolesValue), ("Authorization", [0xff])]).2 = .ok ⟨["admin"], none⟩ := by
  have named (name : String) (letters : RequestHead.isAuthorization name = true) :=
    RequestHead.isAuthorization_iff.1 letters
  have host : ¬ RequestHead.Named "Host" := fun h =>
    absurd (RequestHead.isAuthorization_iff.2 h) (by decide)
  have lineless (value : List UInt8) : RequestHead.First [("Host", value)] none :=
    .behind host (.missing nofun)
  obtain ⟨agree, missing, refused, judged⟩ := answer_of_head sampleAuthenticator 0 emptyCache
  refine ⟨agree _ _ (some [0x78]) ?_ ?_, ⟨missing _ _ (lineless _) (named _ (by decide)), ?_⟩,
    refused _ [0x78, 0xff] ?_ (by decide), ?_⟩
  · exact .behind host (.leading _ (named _ (by decide)))
  · exact .leading _ (named _ (by decide))
  · obtain ⟨n, failed⟩ : ∃ n, sampleAuthenticator.verifier.verify 0 "x" emptyCache "" =
        (n, .error (.credential .missing "")) :=
      ⟨_, Prod.ext rfl (by decide +kernel)⟩
    rw [((judged _ _ (.nothing (lineless _)) n).2 _).2 failed]
  · exact .leading _ (named _ (by decide))
  · obtain ⟨n, p, verified, subject, roles⟩ := verify_rolesValue
    obtain ⟨-, -, -, judged⟩ := answer_of_head rolesAuthenticator 1700000000 Verifier.sampleCache
    have presents : RequestHead.Presents
        [("Authorization", rolesValue), ("Authorization", [0xff])]
        (RequestHead.characters rolesValue) :=
      .line (.leading _ (named _ (by decide))) (by decide +kernel)
    rw [((judged _ _ presents n).1 ⟨["admin"], none⟩).2 ⟨p, verified, subject.symm, roles.symm⟩]

end Authenticator

end BearerAuth
