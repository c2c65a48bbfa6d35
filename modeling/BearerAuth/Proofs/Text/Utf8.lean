import BearerAuth.Text.Utf8

/-!
# Reading what was encoded

A text has no gaps: reading its octets gives its characters, each for the one to four octets that it
takes.

* `decodeFrom_encode` : a character in front of any octets is read as itself;
* `decode_octets` : a text is read as itself.

The proof: the lead octet tells how many octets a character takes, and its payload together with
those of the octets after it is the number of the character, digit by digit in base 64.
-/

namespace BearerAuth.Text.Utf8

variable {a b c d : UInt8} {rest : List UInt8} {ch : Char} {n : Nat}

/-! ### Characters by their octets -/

theorem isTail_iff : isTail b = true ↔ 0x80 ≤ b.toNat ∧ b.toNat ≤ 0xBF := by
  simp [isTail, UInt8.le_iff_toNat_le]

theorem two?_eq_some (lead : 0xC2 ≤ a.toNat ∧ a.toNat ≤ 0xDF) (tail : isTail b = true) :
    two? a b = some (Char.ofNat (a.toNat % 32 * 64 + tailBits b)) := by
  refine if_pos ?_
  simpa [UInt8.le_iff_toNat_le, tail] using lead

theorem two?_eq_none (lead : 0xDF < a.toNat) : two? a b = none := by
  refine if_neg ?_
  simp [UInt8.le_iff_toNat_le]
  omega

theorem three?_eq_some (lead : 0xE0 ≤ a.toNat ∧ a.toNat ≤ 0xEF)
    (tails : isTail b = true ∧ isTail c = true) (long : a.toNat = 0xE0 → 0xA0 ≤ b.toNat)
    (whole : a.toNat = 0xED → b.toNat ≤ 0x9F) :
    three? a b c = some (Char.ofNat (a.toNat % 16 * 4096 + tailBits b * 64 + tailBits c)) := by
  refine if_pos ?_
  simp [UInt8.le_iff_toNat_le, UInt8.lt_iff_toNat_lt, ← UInt8.toNat_inj, tails]
  omega

theorem three?_eq_none (lead : 0xEF < a.toNat) : three? a b c = none := by
  refine if_neg ?_
  simp [UInt8.le_iff_toNat_le]
  omega

theorem four?_eq_some (lead : 0xF0 ≤ a.toNat ∧ a.toNat ≤ 0xF4)
    (tails : isTail b = true ∧ isTail c = true ∧ isTail d = true)
    (long : a.toNat = 0xF0 → 0x90 ≤ b.toNat) (small : a.toNat = 0xF4 → b.toNat ≤ 0x8F) :
    four? a b c d = some (Char.ofNat
      (a.toNat % 8 * 262144 + tailBits b * 4096 + tailBits c * 64 + tailBits d)) := by
  refine if_pos ?_
  simp [UInt8.le_iff_toNat_le, UInt8.lt_iff_toNat_lt, ← UInt8.toNat_inj, tails]
  omega

/-! ### The character at the head -/

theorem head?_one (h : a.toNat < 0x80) : head? a rest = some (Char.ofNat a.toNat, 0) :=
  if_pos (UInt8.lt_iff_toNat_lt.2 h)

theorem not_ascii (h : 0x80 ≤ a.toNat) : ¬ a < 0x80 := by
  rw [UInt8.lt_iff_toNat_lt]
  exact Nat.not_lt.2 h

theorem head?_two (h : 0x80 ≤ a.toNat) (two : two? a b = some ch) :
    head? a (b :: rest) = some (ch, 1) := by
  rcases rest with _ | ⟨c, _ | ⟨d, rest⟩⟩ <;> simp [head?, not_ascii h, two]

theorem head?_three (h : 0x80 ≤ a.toNat) (two : two? a b = none) (three : three? a b c = some ch) :
    head? a (b :: c :: rest) = some (ch, 2) := by
  rcases rest with _ | ⟨d, rest⟩ <;> simp [head?, not_ascii h, two, three]

theorem head?_four (h : 0x80 ≤ a.toNat) (two : two? a b = none) (three : three? a b c = none)
    (four : four? a b c d = some ch) : head? a (b :: c :: d :: rest) = some (ch, 3) := by
  simp [head?, not_ascii h, two, three, four]

/-! ### Texts -/

theorem toNat_ofNat (h : n < 256) : (UInt8.ofNat n).toNat = n := by
  simp [Nat.mod_eq_of_lt h]

theorem isTail_ofNat (n : Nat) : isTail (.ofNat (n % 64 + 128)) = true := by
  rw [isTail_iff, toNat_ofNat (by omega)]
  omega

theorem tailBits_ofNat (n : Nat) : tailBits (.ofNat (n % 64 + 128)) = n % 64 := by
  rw [tailBits, toNat_ofNat (by omega)]
  omega

theorem head?_encode (ch : Char) : ∃ lead tail, String.utf8EncodeChar ch = lead :: tail ∧
    ∀ rest, head? lead (tail ++ rest) = some (ch, tail.length) := by
  -- halves of surrogate pairs are no characters, and there is none above `10FFFF`
  have valid : ch.toNat < 0xD800 ∨ 0xDFFF < ch.toNat ∧ ch.toNat < 0x110000 := ch.valid
  have same : Char.ofNat ch.toNat = ch := Char.ofNat_toNat ch
  have number : ch.val.toNat = ch.toNat := rfl
  simp only [String.utf8EncodeChar, number]
  generalize ch.toNat = n at valid same
  split
  · rename_i one
    have lead := toNat_ofNat (n := n) (by omega)
    refine ⟨_, _, rfl, fun rest => ?_⟩
    rw [head?_one (by omega), lead, same]
    rfl
  split
  · rename_i two
    have lead := toNat_ofNat (n := n / 64 % 32 + 192) (by omega)
    refine ⟨_, _, rfl, fun rest => head?_two (by omega) ?_⟩
    rw [two?_eq_some (by omega) (isTail_ofNat n), lead, tailBits_ofNat, ← same]
    congr 2
    omega
  split
  · rename_i three
    have lead := toNat_ofNat (n := n / 4096 % 16 + 224) (by omega)
    have second := toNat_ofNat (n := n / 64 % 64 + 128) (by omega)
    refine ⟨_, _, rfl, fun rest => head?_three (by omega) (two?_eq_none (by omega)) ?_⟩
    rw [three?_eq_some (by omega) ⟨isTail_ofNat _, isTail_ofNat n⟩ (by omega) (by omega), lead,
      tailBits_ofNat, tailBits_ofNat, ← same]
    congr 2
    omega
  · have lead := toNat_ofNat (n := n / 262144 % 8 + 240) (by omega)
    have second := toNat_ofNat (n := n / 4096 % 64 + 128) (by omega)
    refine ⟨_, _, rfl, fun rest =>
      head?_four (by omega) (two?_eq_none (by omega)) (three?_eq_none (by omega)) ?_⟩
    rw [four?_eq_some (by omega) ⟨isTail_ofNat _, isTail_ofNat _, isTail_ofNat n⟩ (by omega)
      (by omega), lead, tailBits_ofNat, tailBits_ofNat, tailBits_ofNat, ← same]
    congr 2
    omega

/-- Octets of a character already read leave no trace. -/
theorem decodeFrom_length (tail rest : List UInt8) :
    decodeFrom tail.length (tail ++ rest) = decodeFrom 0 rest := by
  induction tail with
  | nil => rfl
  | cons b tail ih => exact ih

theorem decodeFrom_encode (ch : Char) (rest : List UInt8) :
    decodeFrom 0 (String.utf8EncodeChar ch ++ rest) = some ch :: decodeFrom 0 rest := by
  obtain ⟨lead, tail, octets, head⟩ := head?_encode ch
  rw [octets, List.cons_append, decodeFrom, head rest]
  exact congrArg _ (decodeFrom_length tail rest)

theorem octets_eq (s : String) : octets s = s.toList.flatMap String.utf8EncodeChar := by
  have bytes : s.toByteArray = (s.toList.flatMap String.utf8EncodeChar).toByteArray :=
    String.utf8Encode_toList.symm
  unfold octets String.toUTF8
  rw [bytes, List.data_toByteArray]

/-- **A text is read as itself.** -/
theorem decode_octets (s : String) : decode (octets s) = loose s := by
  rw [octets_eq, decode, loose]
  induction s.toList with
  | nil => rfl
  | cons ch rest ih => rw [List.flatMap_cons, decodeFrom_encode, ih, List.map_cons]

end BearerAuth.Text.Utf8
