import BearerAuth.Failure
import BearerAuth.Json.Value

/-!
# The second reading of a payload

Expiry and audience are judged on a reading of their own, in which a value that does not fit counts
as missing: expiry is a natural number of seconds, and the audience a string or a list of strings.
The record has the fields `exp`, `nbf`, `sub`, `iss` and `aud` in this order.  Where a value that
does not fit is left in the middle, the document is ill-formed at that place.

* `TimeClaims.ofNode` reads the root of a payload that has been read as claims before;
* `TimeClaims.finding?` judges what was read.
-/

namespace BearerAuth

open Json

/-- What the second reading yields. -/
structure TimeClaims where
  /-- The expiry, if it fits. -/
  exp : Option Nat
  /-- The audience, if it fits. -/
  aud : Option (List String)
  deriving DecidableEq, Repr

namespace TimeClaims

/-- What becomes of a value that is read tolerantly. -/
inductive Tolerated (α : Type) where
  /-- It fits. -/
  | fits (a : α)
  /-- It does not, but is passed. -/
  | passed
  /-- It does not, and the reading stops in the middle of it. -/
  | stuck

/-- How the reading of a string that has no fault but halves of surrogate pairs and stray octets
ends: it is passed if its closing quote is reached, which a lone first half at its end also takes.
-/
def tolerateUnits : List StringUnit → Tolerated Unit
  | [] => .fits ()
  | .char _ :: rest => tolerateUnits rest
  | .stray :: rest =>
    match tolerateUnits rest with
    | .stuck => .stuck
    | _ => .passed
  | .code n :: rest =>
    if isTrailing n then .stuck
    else if isLeading n then
      match rest with
      | .code m :: rest => if isTrailing m then tolerateUnits rest else .stuck
      | [] => .passed
      | _ => .stuck
    else tolerateUnits rest

/-- How the reading of a number that is out of range ends: digits of the exponent after the one that
takes it out of range are not reached. -/
def tolerateNumeral (n : Numeral) : Tolerated Unit :=
  match n.exponent with
  | some (_, digits) =>
    if maxExponent < ofDigits digits.dropLast then .stuck else .passed
  | none => .passed

/-- The whole number nearest to a binary fraction, a half away from zero, if it is below
`2 ^ 64`. -/
def nearest? (x : Number.Binary64) : Option Nat :=
  let (num, den) := x.toQuotient
  if num < Nat.pow 2 64 * den then some (min ((2 * num + den) / (2 * den)) (Nat.pow 2 64 - 1))
  else none

/-- Reads a number of seconds. -/
def seconds : Node → Tolerated Nat
  | .number n =>
    match n.value? with
    | some (.natural n) => .fits n
    | some (.negative _) => .passed
    | some (.real negative x) =>
      if negative && !x.isZero then .passed
      else
        match nearest? x with
        | some n => .fits n
        | none => .passed
    | none =>
      match tolerateNumeral n with
      | .stuck => .stuck
      | _ => .passed
  | .null | .bool _ | .list [] none | .object [] none => .passed
  | .string s =>
    match tolerateUnits s.units with
    | .stuck => .stuck
    | _ => .passed
  | _ => .stuck

/-- Passes over a string that may be missing. -/
def plainText : Node → Tolerated Unit
  | .list _ _ | .object _ _ => .stuck
  | _ => .passed

/-- The audience, from a node that has been read as one before. -/
def audience? (node : Node) : Option (List String) :=
  match Reader.oneOrMany maxDepth node with
  | .ok aud => some aud
  | .error _ => none

/-- The expiry of a node. -/
def expiry? (node : Node) : Option Nat :=
  match seconds node with
  | .fits n => some n
  | _ => none

/-- Walks over the members of an object: `nbf` must not be given twice, and must not be left in the
middle. -/
def checkMembers (seen : Bool) : List (RawString × Node) → Except Fault Unit
  | [] => .ok ()
  | (name, node) :: rest =>
    if name.read.toOption = some "nbf" then
      if seen then .error .mismatch
      else
        match seconds node with
        | .stuck => .error .malformed
        | _ => checkMembers true rest
    else checkMembers seen rest

/-- The node of a name. -/
def member? (members : List (RawString × Node)) (name : String) : Option Node :=
  (members.find? fun m => m.1.read.toOption = some name).map (·.2)

/-- Reads the root of a payload.  A payload in the form of a list has the fields of claims at other
places, so that neither expiry nor audience is found in it. -/
def ofNode : Node → Except Fault TimeClaims
  | .object members _ => do
    checkMembers false members
    pure ⟨(member? members "exp").bind expiry?, (member? members "aud").bind audience?⟩
  | .list items _ =>
    match items with
    | _ :: _ :: third :: _ :: rest =>
      match plainText third, rest with
      | .stuck, _ => .error .malformed
      | _, [] => .error .mismatch
      | _, [_] => .ok ⟨none, none⟩
      | _, _ => .error .malformed
    | _ => .error .mismatch
  | _ => .error .mismatch

/-- The first finding against what was read: expiry and audience have to be there, the expiry must
not lie more than `leeway` seconds before `now`, and the audience has to be the expected one. -/
def finding? (c : TimeClaims) (now : Int) (leeway : Nat) (audience : String) : Option Finding :=
  match c.exp, c.aud with
  | none, _ => some (.missingClaim "exp")
  | _, none => some (.missingClaim "aud")
  | some exp, some aud =>
    if (exp : Int) + leeway < now then some .expiredSignature
    else if aud.contains audience then none
    else some .invalidAudience

end TimeClaims

end BearerAuth
