import BearerAuth.Proofs.Json.Reading
import BearerAuth.SignedToken
import BearerAuth.Claims
import BearerAuth.TimeClaims

/-!
# How tokens are read

A token is cut at its last two points, and its payload is read twice: once for the claims, once more
for expiry and audience.

* `SignedToken.segments?_eq_some_iff` : the three segments of a text;
* `Claims.inRange_of_ofDocument` : the instants of claims fit in 64 bits;
* `Claims.ofDocument_object` : where the claims of an object find expiry and audience;
* `TimeClaims.checkMembers_eq` : the second reading gets stuck at most in `nbf`;
* `TimeClaims.finding?_ofMembers` : both readings of an object agree on expiry and audience.
-/

namespace BearerAuth

open Json

/-! ### Segments -/

namespace SignedToken

theorem eq_of_dropWhile {text front : List Char} {c : Char}
    (h : text.dropWhile (· != '.') = c :: front) :
    text = text.takeWhile (· != '.') ++ '.' :: front := by
  have point : c = '.' := by
    have := List.head?_dropWhile_not (· != '.') text
    rw [h] at this
    simpa using this
  subst point
  rw [← h, List.takeWhile_append_dropWhile]

theorem splitLast?_eq_some_iff {text front tail : List Char} :
    splitLast? text = some (front, tail) ↔ text = front ++ '.' :: tail ∧ '.' ∉ tail := by
  constructor
  · intro h
    unfold splitLast? at h
    split at h
    · rename_i c rest found
      cases h
      have whole := congrArg List.reverse (eq_of_dropWhile found)
      refine ⟨by simpa using whole, fun point => ?_⟩
      have := List.all_eq_true.1 List.all_takeWhile _ (List.mem_reverse.1 point)
      simp at this
    · cases h
  · rintro ⟨rfl, plain⟩
    have before : ∀ c ∈ tail.reverse, (c != '.') = true := by
      intro c hc
      refine bne_iff_ne.2 ?_
      rintro rfl
      exact plain (List.mem_reverse.1 hc)
    simp [splitLast?, List.takeWhile_append_of_pos before, List.dropWhile_append_of_pos before]

theorem segments?_eq_some_iff {text header payload signature : List Char} :
    segments? text = some (header, payload, signature) ↔
      text = header ++ '.' :: (payload ++ '.' :: signature) ∧ '.' ∉ payload ∧ '.' ∉ signature := by
  simp only [segments?, Option.bind_eq_bind, Option.pure_def, Option.bind_eq_some_iff,
    Option.some.injEq, Prod.exists, Prod.mk.injEq, splitLast?_eq_some_iff]
  constructor
  · rintro ⟨front, tail, ⟨rfl, plain⟩, h, p, ⟨rfl, plain'⟩, rfl, rfl, rfl⟩
    exact ⟨by simp, plain', plain⟩
  · rintro ⟨rfl, plain', plain⟩
    exact ⟨header ++ '.' :: payload, signature, ⟨by simp, plain⟩, header, payload, ⟨rfl, plain'⟩,
      rfl, rfl, rfl⟩

end SignedToken

/-! ### The first reading -/

namespace Claims

theorem name_eq_iff {name s : String} {f : Field}
    (plain : name ≠ "realm_access" ∧ name ≠ "realmAccess")
    (h : Record.field? fields s = some f) : f.name = name ↔ s = name := by
  obtain ⟨first, second⟩ := plain
  have mem := List.mem_of_find?_eq_some h
  have cond := List.find?_some h
  simp only [fields, List.mem_cons, List.not_mem_nil, or_false] at mem
  rcases mem with rfl | rfl | rfl | rfl | rfl | rfl <;> simp at cond <;> grind

theorem lookup_of_object {room : Nat} {members : List (RawString × Node)} {close : Option Fault}
    {given : Given} {name : String} (plain : name = "exp" ∨ name = "aud")
    (h : Record.members fields (room + 1) (.object members close) = .ok given) :
    given.lookup name = TimeClaims.member? members name := by
  simp only [Record.members, Record.objectMembers, Reader.enter] at h
  obtain ⟨out, read, left⟩ := bind_eq_ok h
  -- the end of the object is read, and changes nothing
  have same : out = given := by
    unfold Reader.leave at left
    split at left <;> cases left
    rfl
  subst same
  have known : ∃ f, Record.field? fields name = some f := by
    rcases plain with rfl | rfl <;> exact ⟨_, rfl⟩
  have other : name ≠ "realm_access" ∧ name ≠ "realmAccess" := by
    rcases plain with rfl | rfl <;> decide
  rw [Record.lookup_ofMembers known (fun s f => name_eq_iff other) read]
  rfl

variable {doc : Document} {members : List (RawString × Node)} {close : Option Fault}
  {claims : Claims}

theorem exists_given (h : ofDocument doc = .ok claims) :
    ∃ given, Record.members fields maxDepth doc.root = .ok given ∧
      ofGiven (maxDepth - 1) given = .ok claims := by
  obtain ⟨c, h, whole⟩ := bind_eq_ok h
  have same : c = claims := by
    split at whole <;> cases whole
    rfl
  rw [same] at h
  exact bind_eq_ok h

/-- The instants of claims fit in 64 bits with sign. -/
structure InRange (c : Claims) : Prop where
  /-- The expiry does. -/
  exp : IsInt64 c.exp
  /-- The instant of issue does, if it is stated. -/
  iat : ∀ n, c.iat = some n → IsInt64 n

/-- The instants of claims that are read fit in 64 bits. -/
theorem inRange_of_ofDocument (h : ofDocument doc = .ok claims) : claims.InRange := by
  obtain ⟨given, -, h⟩ := exists_given h
  obtain ⟨iss, -, h⟩ := bind_eq_ok h
  obtain ⟨sub, -, h⟩ := bind_eq_ok h
  obtain ⟨aud, -, h⟩ := bind_eq_ok h
  obtain ⟨exp, readExp, h⟩ := bind_eq_ok h
  obtain ⟨iat, readIat, h⟩ := bind_eq_ok h
  obtain ⟨roles, -, h⟩ := bind_eq_ok h
  cases h
  constructor
  · unfold Given.get at readExp
    split at readExp
    · exact Reader.isInt64_of_integer readExp
    · cases readExp
  · rintro n rfl
    unfold Given.getD at readIat
    split at readIat
    · exact Reader.isInt64_of_optional readIat
    · cases readIat

theorem ofDocument_object (root : doc.root = .object members close)
    (h : ofDocument doc = .ok claims) :
    (∃ node, TimeClaims.member? members "exp" = some node ∧
        Reader.integer (maxDepth - 1) node = .ok claims.exp) ∧
      ((TimeClaims.member? members "aud" = none ∧ claims.aud = []) ∨
        ∃ node, TimeClaims.member? members "aud" = some node ∧
          Reader.oneOrMany (maxDepth - 1) node = .ok claims.aud) := by
  obtain ⟨given, opened, h⟩ := exists_given h
  rw [root] at opened
  have exp := lookup_of_object (.inl rfl) opened
  have aud := lookup_of_object (.inr rfl) opened
  obtain ⟨iss, -, h⟩ := bind_eq_ok h
  obtain ⟨sub, -, h⟩ := bind_eq_ok h
  obtain ⟨aud', readAud, h⟩ := bind_eq_ok h
  obtain ⟨exp', readExp, h⟩ := bind_eq_ok h
  obtain ⟨iat, -, h⟩ := bind_eq_ok h
  obtain ⟨roles, -, h⟩ := bind_eq_ok h
  cases h
  constructor
  · unfold Given.get at readExp
    rw [exp] at readExp
    cases found : TimeClaims.member? members "exp" with
    | none => rw [found] at readExp; cases readExp
    | some node => rw [found] at readExp; exact ⟨node, rfl, readExp⟩
  · unfold Given.getD at readAud
    rw [aud] at readAud
    cases found : TimeClaims.member? members "aud" with
    | none => rw [found] at readAud; cases readAud; exact .inl ⟨rfl, rfl⟩
    | some node => rw [found] at readAud; exact .inr ⟨node, rfl, readAud⟩

end Claims

/-! ### The second reading -/

namespace TimeClaims

/-- Where a whole number is read, the second reading finds it as well, unless it is negative. -/
theorem expiry?_of_integer {room : Nat} {node : Node} {n : Int}
    (h : Reader.integer room node = .ok n) :
    expiry? node = if 0 ≤ n then some n.toNat else none := by
  unfold Reader.integer at h
  split at h
  · rename_i numeral
    split at h
    · rename_i k found
      split at h
      · cases h
        simp [expiry?, seconds, found]
      · cases h
    · rename_i k found
      cases h
      obtain ⟨positive, -⟩ := Numeral.bounds_of_negative found
      simp [expiry?, seconds, found, Nat.ne_of_gt positive]
    · cases h
    · cases h
  · cases h

theorem audience?_of_oneOrMany {room : Nat} (deep : room ≤ maxDepth) {node : Node}
    {aud : List String} (h : Reader.oneOrMany room node = .ok aud) : audience? node = some aud := by
  rw [audience?, Reader.oneOrMany_mono deep h]

theorem checkMembers_of_none {seen : Bool} {members : List (RawString × Node)}
    (h : ∀ m ∈ members, m.1.read.toOption ≠ some "nbf") : checkMembers seen members = .ok () := by
  induction members with
  | nil => rfl
  | cons m rest ih =>
    obtain ⟨name, node⟩ := m
    rw [checkMembers, if_neg (h _ (List.mem_cons_self ..))]
    exact ih fun m hm => h m (List.mem_cons_of_mem _ hm)

/-- The reading stops in the middle of the value. -/
def Tolerated.isStuck {α : Type} : Tolerated α → Bool
  | stuck => true
  | _ => false

/-- The second reading stops in the middle of the member `nbf`, such as in a list that is not
empty. -/
def isStuck (members : List (RawString × Node)) : Bool :=
  (member? members "nbf").any fun node => (seconds node).isStuck

/-- An object without repeated names is walked over, unless the reading gets stuck in `nbf`. -/
theorem checkMembers_eq {members : List (RawString × Node)}
    (once : (members.map fun m => m.1.read.toOption).Nodup) :
    checkMembers false members = if isStuck members then .error .malformed else .ok () := by
  induction members with
  | nil => rfl
  | cons m rest ih =>
    obtain ⟨name, node⟩ := m
    obtain ⟨fresh, once⟩ := List.nodup_cons.1 once
    by_cases named : name.read.toOption = some "nbf"
    · -- nothing after this member can fail
      have others : ∀ m ∈ rest, m.1.read.toOption ≠ some "nbf" := by
        intro m hm same
        exact fresh (List.mem_map.2 ⟨m, hm, same.trans named.symm⟩)
      have here : member? ((name, node) :: rest) "nbf" = some node := by simp [member?, named]
      rw [isStuck, here, checkMembers, if_pos named]
      cases read : seconds node with
      | stuck => simp [read, Tolerated.isStuck]
      | fits | passed => simp [read, Tolerated.isStuck, checkMembers_of_none others]
    · have there : member? ((name, node) :: rest) "nbf" = member? rest "nbf" := by
        simp [member?, named]
      rw [isStuck, there, checkMembers, if_neg named]
      exact ih once

variable {doc : Document} {members : List (RawString × Node)} {close : Option Fault}
  {claims : Claims}

/-- What the second reading of an object yields, if it does not get stuck. -/
def ofMembers (members : List (RawString × Node)) : TimeClaims :=
  ⟨(member? members "exp").bind expiry?, (member? members "aud").bind audience?⟩

theorem ofNode_object : ofNode (.object members close) =
    (checkMembers false members).map fun _ => ofMembers members := by
  simp only [ofNode, ofMembers]
  cases checkMembers false members <;> rfl

theorem finding?_eq_none_iff {c : TimeClaims} {now : Int} {leeway : Nat} {audience : String} :
    c.finding? now leeway audience = none ↔
      ∃ exp aud, c.exp = some exp ∧ c.aud = some aud ∧ now ≤ exp + leeway ∧ audience ∈ aud := by
  unfold finding?
  cases c.exp with
  | none => simp
  | some exp =>
    cases c.aud with
    | none => simp
    | some aud =>
      by_cases late : (exp : Int) + leeway < now
      · simp only [if_pos late, reduceCtorEq, Option.some.injEq, false_iff]
        rintro ⟨_, _, rfl, rfl, early, -⟩
        omega
      · have early : now ≤ exp + leeway := by omega
        simp [late, early]

/-- The second reading finds the expiry of the first, unless it is negative. -/
theorem exp_ofMembers (root : doc.root = .object members close)
    (h : Claims.ofDocument doc = .ok claims) :
    (ofMembers members).exp = if 0 ≤ claims.exp then some claims.exp.toNat else none := by
  obtain ⟨⟨node, found, read⟩, -⟩ := Claims.ofDocument_object root h
  simp only [ofMembers, found, Option.bind_some, expiry?_of_integer read]

theorem aud_ofMembers (root : doc.root = .object members close)
    (h : Claims.ofDocument doc = .ok claims) :
    (member? members "aud" = none ∧ (ofMembers members).aud = none ∧ claims.aud = []) ∨
      ∃ node, member? members "aud" = some node ∧ (ofMembers members).aud = some claims.aud := by
  obtain ⟨-, ⟨missing, none⟩ | ⟨node, found, read⟩⟩ := Claims.ofDocument_object root h
  · exact .inl ⟨missing, by simp only [ofMembers, missing, Option.bind_none], none⟩
  · refine .inr ⟨node, found, ?_⟩
    simp only [ofMembers, found, Option.bind_some]
    exact audience?_of_oneOrMany (by decide) read

/-- **Both readings of an object agree.**  The second one has nothing to find against it exactly if
the claims of the first have not expired, with an expiry that is not negative, and name the
audience. -/
theorem finding?_ofMembers (root : doc.root = .object members close)
    (h : Claims.ofDocument doc = .ok claims) {now : Int} {leeway : Nat} {audience : String} :
    (ofMembers members).finding? now leeway audience = none ↔
      0 ≤ claims.exp ∧ now ≤ claims.exp + leeway ∧ audience ∈ claims.aud := by
  rw [finding?_eq_none_iff, exp_ofMembers root h]
  rcases aud_ofMembers root h with ⟨-, missing, none⟩ | ⟨node, -, aud⟩
  · simp [missing, none]
  · rw [aud]
    by_cases natural : 0 ≤ claims.exp
    · have whole : (claims.exp.toNat : Int) = claims.exp := Int.toNat_of_nonneg natural
      simp only [natural, if_true, Option.some.injEq, exists_and_left, exists_eq_left', whole,
        true_and]
    · simp [natural]

end TimeClaims

end BearerAuth
