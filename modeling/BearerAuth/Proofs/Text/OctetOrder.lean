import BearerAuth.Proofs.Text.Utf8
import Mathlib.Data.String.Basic

/-!
# The order of octets

Texts are ordered by their characters, and their encodings by their octets.  Both orders are the
same, also where a character takes more octets than the one it is compared with.

* `encode_eq` : the octets of a character are the digits in base 64 of one number;
* `encode_append_lt` : the lesser character goes first, whatever comes after both;
* `octets_lt_octets_iff` : the order of octets is the order of texts.

The proof: numbers with as many digits are ordered by their first different digits.  Of characters
that take different numbers of octets the lead octets decide, since these grow with the number of
octets that they announce.
-/

namespace BearerAuth.Text.Utf8

variable {k m n : Nat} {c d : Char} {s t : String}

/-! ### Numbers by their digits -/

/-- The last `k` digits of a number in base 64 as continuation octets, and the rest of the number as
the lead octet in front of them. -/
def numeral : Nat → Nat → List UInt8
  | 0, n => [.ofNat n]
  | k + 1, n => numeral k (n / 64) ++ [.ofNat (n % 64 + 128)]

/-- The rest of a number without its last `k` digits in base 64. -/
def lead : Nat → Nat → Nat
  | 0, n => n
  | k + 1, n => lead k (n / 64)

theorem exists_numeral (k n : Nat) : ∃ tail, numeral k n = .ofNat (lead k n) :: tail := by
  induction k generalizing n with
  | zero => exact ⟨[], rfl⟩
  | succ k ih =>
    obtain ⟨tail, digits⟩ := ih (n / 64)
    exact ⟨tail ++ [.ofNat (n % 64 + 128)], by rw [numeral, digits, List.cons_append, lead]⟩

theorem cons_lt_cons_of_lt (less : m < n) (fits : n < 256) (rest rest' : List UInt8) :
    UInt8.ofNat m :: rest < UInt8.ofNat n :: rest' := by
  refine List.cons_lt_cons_iff.2 (.inl ?_)
  rw [UInt8.lt_iff_toNat_lt, toNat_ofNat (less.trans fits), toNat_ofNat fits]
  exact less

/-- Numbers with as many digits are ordered by them, whatever comes after the digits. -/
theorem numeral_append_lt (less : m < n) (fits : lead k n < 256) (rest rest' : List UInt8) :
    numeral k m ++ rest < numeral k n ++ rest' := by
  induction k generalizing m n rest rest' with
  | zero => exact cons_lt_cons_of_lt less fits rest rest'
  | succ k ih =>
    rw [numeral, numeral, List.append_assoc, List.append_assoc]
    by_cases same : m / 64 = n / 64
    · -- the last digits are the first to differ
      rw [same]
      exact List.append_left_lt (cons_lt_cons_of_lt (by omega) (by omega) rest rest')
    · exact ih (by omega) fits _ _

/-! ### Characters -/

/-- The number of octets after the lead octet of a character. -/
def tailCount (n : Nat) : Nat :=
  if n ≤ 0x7F then 0 else if n ≤ 0x7FF then 1 else if n ≤ 0xFFFF then 2 else 3

/-- What marks the lead octet in front of some octets, in its place among the digits. -/
def mark : Nat → Nat
  | 0 => 0
  | 1 => 0xC0 * 64
  | 2 => 0xE0 * 64 * 64
  | _ => 0xF0 * 64 * 64 * 64

/-- The number whose digits are the octets of a character. -/
def marked (n : Nat) : Nat := n + mark (tailCount n)

theorem toNat_lt (c : Char) : c.toNat < 0x110000 := by
  rcases c.valid with below | ⟨-, below⟩
  · exact below.trans (by decide)
  · exact below

/-- The octets of a character are the digits of its number, with a mark in front. -/
theorem encode_eq (c : Char) :
    String.utf8EncodeChar c = numeral (tailCount c.toNat) (marked c.toNat) := by
  have small := toNat_lt c
  have number : c.val.toNat = c.toNat := rfl
  simp only [String.utf8EncodeChar, number, marked, tailCount]
  generalize c.toNat = n at small
  split
  · rfl
  split
  · have front : (n + 0xC0 * 64) / 64 = n / 64 % 32 + 192 := by omega
    have last : (n + 0xC0 * 64) % 64 = n % 64 := by omega
    simp only [numeral, mark, front, last, List.cons_append, List.nil_append]
  split
  · have front : (n + 0xE0 * 64 * 64) / 64 / 64 = n / 4096 % 16 + 224 := by omega
    have next : (n + 0xE0 * 64 * 64) / 64 % 64 = n / 64 % 64 := by omega
    have last : (n + 0xE0 * 64 * 64) % 64 = n % 64 := by omega
    simp only [numeral, mark, front, next, last, List.cons_append, List.nil_append]
  · have front : (n + 0xF0 * 64 * 64 * 64) / 64 / 64 / 64 = n / 262144 % 8 + 240 := by omega
    have second : (n + 0xF0 * 64 * 64 * 64) / 64 / 64 % 64 = n / 4096 % 64 := by omega
    have third : (n + 0xF0 * 64 * 64 * 64) / 64 % 64 = n / 64 % 64 := by omega
    have last : (n + 0xF0 * 64 * 64 * 64) % 64 = n % 64 := by omega
    simp only [numeral, mark, front, second, third, last, List.cons_append, List.nil_append]

theorem lead_marked_lt (small : n < 0x110000) : lead (tailCount n) (marked n) < 256 := by
  unfold marked tailCount
  split_ifs <;> simp only [lead, mark] <;> omega

theorem tailCount_mono (less : m < n) : tailCount m ≤ tailCount n := by
  unfold tailCount
  split_ifs <;> omega

/-- The lead octet grows with the number of octets that it announces. -/
theorem lead_marked_lt_lead (fewer : tailCount m < tailCount n) :
    lead (tailCount m) (marked m) < lead (tailCount n) (marked n) := by
  unfold marked tailCount at *
  split_ifs at * <;> simp only [lead, mark] <;> omega

/-- **The lesser character goes first**, whatever comes after both. -/
theorem encode_append_lt (less : c < d) (rest rest' : List UInt8) :
    String.utf8EncodeChar c ++ rest < String.utf8EncodeChar d ++ rest' := by
  have number : c.toNat < d.toNat := less
  have fits := lead_marked_lt (toNat_lt d)
  rw [encode_eq, encode_eq]
  rcases (tailCount_mono number).lt_or_eq with fewer | same
  · -- where the numbers of octets differ, the lead octets do
    obtain ⟨tail, first⟩ := exists_numeral (tailCount c.toNat) (marked c.toNat)
    obtain ⟨tail', second⟩ := exists_numeral (tailCount d.toNat) (marked d.toNat)
    rw [first, second]
    exact cons_lt_cons_of_lt (lead_marked_lt_lead fewer) fits _ _
  · rw [same]
    refine numeral_append_lt ?_ fits rest rest'
    rw [marked, marked, same]
    exact Nat.add_lt_add_right number _

/-! ### Texts -/

theorem flatMap_encode_lt {text text' : List Char} (less : text < text') :
    text.flatMap String.utf8EncodeChar < text'.flatMap String.utf8EncodeChar := by
  induction text generalizing text' with
  | nil =>
    cases text' with
    | nil => exact absurd less (List.lt_irrefl _)
    | cons d text' =>
      obtain ⟨tail, digits⟩ := exists_numeral (tailCount d.toNat) (marked d.toNat)
      rw [List.flatMap_cons, encode_eq, digits]
      exact List.nil_lt_cons _ _
  | cons c text ih =>
    cases text' with
    | nil => exact absurd less (List.not_lt_nil _)
    | cons d text' =>
      rw [List.flatMap_cons, List.flatMap_cons]
      rcases List.cons_lt_cons_iff.1 less with first | ⟨rfl, behind⟩
      · exact encode_append_lt first _ _
      · exact List.append_left_lt (ih behind)

/-- **The order of octets is the order of texts.** -/
theorem octets_lt_octets_iff : octets s < octets t ↔ s < t := by
  have mono {s t : String} (less : s < t) : octets s < octets t := by
    rw [octets_eq, octets_eq]
    exact flatMap_encode_lt (String.lt_iff_toList_lt.1 less)
  refine ⟨fun less => ?_, mono⟩
  rcases lt_trichotomy s t with first | rfl | second
  · exact first
  · exact absurd less (List.lt_irrefl _)
  · exact absurd (mono second) (List.lt_asymm less)

end BearerAuth.Text.Utf8
