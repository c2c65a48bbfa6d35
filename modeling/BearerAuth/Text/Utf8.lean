/-!
# UTF-8 text as it arrives

Octets from outside may hold sequences that are no character.  `decode` reads them as a list of
optional characters: `some c` for each well-formed sequence, `none` for each octet that belongs to
none.  A reader can thus walk over a document and object only where it has to read a character.

* `octets` is the encoding of a text;
* `decode` is its reading, octet by octet.
-/

namespace BearerAuth.Text.Utf8

/-- A text that may contain octets outside any character. -/
abbrev Loose := List (Option Char)

/-- The octets of a text. -/
def octets (s : String) : List UInt8 := s.toUTF8.data.toList

/-- A continuation octet. -/
def isTail (b : UInt8) : Bool := 0x80 ≤ b && b ≤ 0xBF

/-- The payload of a continuation octet. -/
def tailBits (b : UInt8) : Nat := b.toNat % 64

/-- A two-octet character: the lead octet is at least `C2`, so no shorter form exists. -/
def two? (a b : UInt8) : Option Char :=
  if 0xC2 ≤ a && a ≤ 0xDF && isTail b then
    some (Char.ofNat (a.toNat % 32 * 64 + tailBits b))
  else none

/-- A three-octet character, neither overlong nor a surrogate. -/
def three? (a b c : UInt8) : Option Char :=
  if 0xE0 ≤ a && a ≤ 0xEF && isTail b && isTail c
      && !(a == 0xE0 && b < 0xA0) && !(a == 0xED && 0x9F < b) then
    some (Char.ofNat (a.toNat % 16 * 4096 + tailBits b * 64 + tailBits c))
  else none

/-- A four-octet character, neither overlong nor above `10FFFF`. -/
def four? (a b c d : UInt8) : Option Char :=
  if 0xF0 ≤ a && a ≤ 0xF4 && isTail b && isTail c && isTail d
      && !(a == 0xF0 && b < 0x90) && !(a == 0xF4 && 0x8F < b) then
    some (Char.ofNat (a.toNat % 8 * 262144 + tailBits b * 4096 + tailBits c * 64 + tailBits d))
  else none

/-- The character at the head of some octets, with the number of octets it takes after the first. -/
def head? (a : UInt8) (rest : List UInt8) : Option (Char × Nat) :=
  if a < 0x80 then some (Char.ofNat a.toNat, 0) else
  match rest with
  | [] => none
  | [b] => (two? a b).map (·, 1)
  | [b, c] => (two? a b).map (·, 1) <|> (three? a b c).map (·, 2)
  | b :: c :: d :: _ =>
    (two? a b).map (·, 1) <|> (three? a b c).map (·, 2) <|> (four? a b c d).map (·, 3)

/-- Reads octets; the `skip` leading ones belong to a character already read. -/
def decodeFrom (skip : Nat) : List UInt8 → Loose
  | [] => []
  | a :: rest =>
    match skip with
    | k + 1 => decodeFrom k rest
    | 0 =>
      match head? a rest with
      | some (c, k) => some c :: decodeFrom k rest
      | none => none :: decodeFrom 0 rest

/-- Reads octets as a text with gaps. -/
def decode (bytes : List UInt8) : Loose := decodeFrom 0 bytes

/-- A text without gaps. -/
def loose (s : String) : Loose := s.toList.map some

/-- The number of octets a reading covers: a gap is one octet. -/
def size (text : Loose) : Nat := text.foldl (fun n c => n + (c.map Char.utf8Size).getD 1) 0

@[simp] theorem decode_nil : decode [] = [] := rfl

end BearerAuth.Text.Utf8
