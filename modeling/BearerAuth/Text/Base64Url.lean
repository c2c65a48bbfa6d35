/-!
# Base64 with the URL alphabet

The strict form: no padding, no character outside the alphabet, and the bits of the last digit that
belong to no octet are zero, so that each sequence of octets has one written form.

* `encode` writes octets;
* `decode?` reads exactly what `encode` writes.
-/

namespace BearerAuth.Text.Base64Url

/-- The value of a digit. -/
def value? (c : Char) : Option Nat :=
  let n := c.toNat
  if 65 ≤ n && n ≤ 90 then some (n - 65)
  else if 97 ≤ n && n ≤ 122 then some (n - 71)
  else if 48 ≤ n && n ≤ 57 then some (n + 4)
  else if n == 45 then some 62
  else if n == 95 then some 63
  else none

/-- The digit of a value below 64. -/
def digit (v : Nat) : Char :=
  if v < 26 then Char.ofNat (v + 65)
  else if v < 52 then Char.ofNat (v + 71)
  else if v < 62 then Char.ofNat (v - 4)
  else if v == 62 then '-' else '_'

/-- Writes octets, three to four digits. -/
def encode : List UInt8 → List Char
  | [] => []
  | [a] => [digit (a.toNat / 4), digit (a.toNat % 4 * 16)]
  | [a, b] =>
    [digit (a.toNat / 4), digit (a.toNat % 4 * 16 + b.toNat / 16), digit (b.toNat % 16 * 4)]
  | a :: b :: c :: rest =>
    digit (a.toNat / 4) :: digit (a.toNat % 4 * 16 + b.toNat / 16) ::
      digit (b.toNat % 16 * 4 + c.toNat / 64) :: digit (c.toNat % 64) :: encode rest

/-- Reads digit values, four to three octets. -/
def octets? : List Nat → Option (List UInt8)
  | [] => some []
  | [_] => none
  | [u, v] => if v % 16 == 0 then some [UInt8.ofNat (u * 4 + v / 16)] else none
  | [u, v, w] =>
    if w % 4 == 0 then some [UInt8.ofNat (u * 4 + v / 16), UInt8.ofNat (v % 16 * 16 + w / 4)]
    else none
  | u :: v :: w :: x :: rest =>
    (octets? rest).map fun bytes =>
      UInt8.ofNat (u * 4 + v / 16) :: UInt8.ofNat (v % 16 * 16 + w / 4) ::
        UInt8.ofNat (w % 4 * 64 + x) :: bytes

/-- Reads a text; `none` if it is not the written form of any octets. -/
def decode? (text : List Char) : Option (List UInt8) := (text.mapM value?).bind octets?

@[simp] theorem decode?_nil : decode? [] = some [] := rfl

end BearerAuth.Text.Base64Url
