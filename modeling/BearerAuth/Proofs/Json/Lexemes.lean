import BearerAuth.Json.Printer
import BearerAuth.Proofs.Json.Reading

/-!
# Written strings and numbers are read back

What the printer writes for a string or a whole number is cut into a single token, and the token is
read as what was written.

* `RawString.written`, `Numeral.written` are the tokens of a string and of a whole number;
* `tokens_quoted`, `tokens_integer` : the text is cut into them;
* `RawString.read_written`, `Numeral.value?_written` : they are read as what was written.

The proof: an induction on the characters of a string, with a case for each kind of escape; a number
ends where no digit follows, and no more of its digits come to a larger number than all of them.
-/

namespace BearerAuth.Json

open Printer Text.Utf8

/-! ### Strings -/

/-- The part of a string as which a character is written: a control character that has no letter is
escaped by its number. -/
def StringUnit.written (c : Char) : StringUnit :=
  if c.toNat < 0x20 ∧ c ∉ ['\x08', '\x0c', '\n', '\x0d', '\t'] then .code c.toNat else .char c

/-- The token of a string. -/
def RawString.written (s : String) : RawString := ⟨s.toList.map .written, none⟩

theorem hexValue?_hexDigit : ∀ n < 16, hexValue? (hexDigit n) = some n := by decide

theorem scanString_letter {c letter : Char} (rest : Loose) (stands : escaped? letter = some c) :
    scanString (some '\\' :: some letter :: rest) = RawString.cons (.char c) (scanString rest) := by
  unfold escaped? at stands
  split at stands <;> cases stands <;> simp [scanString, escaped?]

theorem scanString_escape (c : Char) (rest : Loose) :
    scanString ((escape c).map some ++ rest) = RawString.cons (.written c) (scanString rest) := by
  by_cases letter : c ∈ ['"', '\\', '\x08', '\x0c', '\n', '\x0d', '\t']
  · simp only [List.mem_cons, List.not_mem_nil, or_false] at letter
    rcases letter with rfl | rfl | rfl | rfl | rfl | rfl | rfl <;>
      exact scanString_letter rest rfl
  · simp only [List.mem_cons, List.not_mem_nil, or_false, not_or] at letter
    obtain ⟨quote, backslash, b, f, n, r, t⟩ := letter
    by_cases control : c.toNat < 0x20
    · have high := hexValue?_hexDigit (c.toNat / 16) (by omega)
      have low := hexValue?_hexDigit (c.toNat % 16) (by omega)
      have number : hexNumber? [some '0', some '0', some (hexDigit (c.toNat / 16)),
          some (hexDigit (c.toNat % 16))] = some c.toNat := by
        have zero : hexValue? '0' = some 0 := rfl
        simp [hexNumber?, high, low, zero]
        omega
      simp [escape, StringUnit.written, quote, backslash, b, f, n, r, t, control, scanString,
        number]
    · have plain : escape c = [c] := by simp [escape, quote, backslash, b, f, n, r, t, control]
      have unit : StringUnit.written c = .char c := by simp [StringUnit.written, control]
      rw [plain, unit, List.map_singleton, List.singleton_append, scanString.eq_def]
      simp [quote, backslash, control]

theorem scanString_quoted (s : String) (rest : Loose) :
    scanString ((s.toList.flatMap escape).map some ++ some '"' :: rest) = (.written s, rest) := by
  unfold RawString.written
  induction s.toList with
  | nil =>
    rw [List.flatMap_nil, List.map_nil, List.nil_append, scanString.eq_def]
    rfl
  | cons c cs ih =>
    rw [List.flatMap_cons, List.map_append, List.append_assoc, scanString_escape, ih]
    rfl

theorem readUnits_written (fault : Option Fault) (c : Char) (rest : List StringUnit) :
    readUnits fault (.written c :: rest) = (readUnits fault rest).map (c :: ·) := by
  unfold StringUnit.written
  split
  · rename_i control
    have leading : isLeading c.toNat = false := by simp [isLeading]; omega
    have trailing : isTrailing c.toNat = false := by simp [isTrailing]; omega
    rw [readUnits.eq_def]
    simp [leading, trailing, Char.ofNat_toNat]
  · rw [readUnits]

/-- **A written string is read back.** -/
theorem RawString.read_written (s : String) : (written s).read = .ok s := by
  have units (cs : List Char) : readUnits none (cs.map .written) = .ok cs := by
    induction cs with
    | nil => rfl
    | cons c cs ih =>
      rw [List.map_cons, readUnits_written, ih]
      rfl
  rw [read, written, units]
  exact congrArg Except.ok String.ofList_toList

/-! ### Whole numbers -/

/-- The token of a whole number. -/
def Numeral.written (n : Int) : Numeral :=
  ⟨decide (n < 0), (Nat.toDigits 10 n.natAbs).map (·.toNat - 48), [], none⟩

/-- A number that comes before ends here. -/
def Stops (rest : Loose) : Prop :=
  ∀ c, rest.head? = some (some c) → c.isDigit = false ∧ c ≠ '.' ∧ c ≠ 'e' ∧ c ≠ 'E'

theorem scanDigits_append {digits : List Char} {rest : Loose}
    (plain : ∀ c ∈ digits, c.isDigit = true)
    (ends : ∀ c, rest.head? = some (some c) → c.isDigit = false) :
    scanDigits (digits.map some ++ rest) = (digits.map (·.toNat - 48), rest) := by
  induction digits with
  | nil =>
    match rest, ends with
    | [], _ | none :: _, _ => rfl
    | some c :: rest, ends => simp [scanDigits, ends c rfl]
  | cons c digits ih =>
    have digit := plain c (List.mem_cons_self ..)
    have others := ih fun d hd => plain d (List.mem_cons_of_mem _ hd)
    simp [scanDigits, digit, others]

/-- Where a number ends, neither a fraction nor an exponent follows. -/
theorem scanTail_of_stops (n : Numeral) {rest : Loose} (stops : Stops rest) :
    scanTail n rest = (.number n, rest) := by
  unfold scanTail
  split
  · exact absurd rfl (stops 'e' rfl).2.2.1
  · exact absurd rfl (stops 'E' rfl).2.2.2
  · rfl

theorem exists_digits (n : Nat) : ∃ d digits,
    (Nat.toDigits 10 n).map (·.toNat - 48) = d :: digits ∧ (d = 0 → n = 0) := by
  induction n using Nat.strongRecOn with
  | ind n ih =>
    by_cases small : n < 10
    · have digit : ∀ n < 10, n.digitChar.toNat - 48 = n := by decide
      exact ⟨n, [], by rw [Nat.toDigits_of_lt_base small]; simp [digit n small], id⟩
    · obtain ⟨d, digits, front, zero⟩ := ih (n / 10) (by omega)
      refine ⟨d, digits ++ [(n % 10).digitChar.toNat - 48], ?_, fun h => ?_⟩
      · rw [Nat.toDigits_of_base_le (by decide) (by omega), List.map_append, front]
        rfl
      · have := zero h
        omega

theorem scanNumber_whole {negative : Bool} {text tail : Loose} {v : Nat} {vs : List Nat}
    (cut : scanDigits text = (v :: vs, tail)) (leading : ∀ d digits, v :: vs ≠ 0 :: d :: digits)
    (ends : tail.head? ≠ some (some '.')) :
    scanNumber negative text = scanTail ⟨negative, v :: vs, [], none⟩ tail := by
  unfold scanNumber
  rw [cut]
  split
  · rename_i same
    cases same
  · rename_i same
    cases same
    exact absurd rfl (leading _ _)
  · rename_i same
    cases same
    exact absurd rfl ends
  · rename_i same
    cases same
    rfl

theorem scanNumber_digits (negative : Bool) (n : Nat) {rest : Loose} (stops : Stops rest) :
    scanNumber negative ((Nat.toDigits 10 n).map some ++ rest) =
      (.number ⟨negative, (Nat.toDigits 10 n).map (·.toNat - 48), [], none⟩, rest) := by
  have cut := scanDigits_append
    (fun c hc => Nat.isDigit_of_mem_toDigits (b := 10) (n := n) (by decide) (by decide) hc)
    fun c hc => (stops c hc).1
  obtain ⟨d, digits, whole, zero⟩ := exists_digits n
  rw [whole] at cut ⊢
  have leading (e : Nat) (others : List Nat) : d :: digits ≠ 0 :: e :: others := by
    rintro same
    cases same
    obtain rfl := zero rfl
    cases whole
  rw [scanNumber_whole cut leading fun point => (stops '.' point).2.1 rfl]
  exact scanTail_of_stops _ stops

theorem le_ofDigitChars (digits : List Char) (n : Nat) : n ≤ Nat.ofDigitChars 10 digits n := by
  rw [Nat.ofDigitChars_eq_ofDigitChars_zero]
  exact Nat.le_add_right_of_le (Nat.le_mul_of_pos_left n (Nat.pow_pos (by decide)))

/-- Digits are taken up as long as the number stays in range. -/
theorem absorb_digits {digits : List Char} {significand : Nat}
    (small : Nat.ofDigitChars 10 digits significand < Nat.pow 2 64) :
    absorb significand (digits.map (·.toNat - 48)) =
      (Nat.ofDigitChars 10 digits significand, []) := by
  induction digits generalizing significand with
  | nil => rfl
  | cons c digits ih =>
    have next : 10 * significand + (c.toNat - '0'.toNat) = significand * 10 + (c.toNat - 48) :=
      congrArg (· + (c.toNat - 48)) (Nat.mul_comm ..)
    rw [Nat.ofDigitChars_cons, next] at small ⊢
    rw [List.map_cons, absorb, if_pos (Nat.lt_of_le_of_lt (le_ofDigitChars ..) small), ih small]

/-- **A whole number is read back**, if it fits in 64 bits. -/
theorem Numeral.value?_written {n : Int} (fits : IsInt64 n) :
    (written n).value? = some (if n < 0 then .negative n.natAbs else .natural n.natAbs) := by
  have twice : Nat.pow 2 64 = 2 * Nat.pow 2 63 := rfl
  rw [isInt64_iff] at fits
  have whole : Nat.ofDigitChars 10 (Nat.toDigits 10 n.natAbs) 0 = n.natAbs :=
    Nat.ofDigitChars_toDigits (by decide) (by decide)
  have taken : absorb 0 ((Nat.toDigits 10 n.natAbs).map (·.toNat - 48)) = (n.natAbs, []) := by
    rw [absorb_digits (by rw [whole]; omega), whole]
  by_cases negative : n < 0
  · have bounds : 0 < n.natAbs ∧ n.natAbs ≤ Nat.pow 2 63 := by omega
    simp [value?, written, taken, negative, bounds]
  · simp [value?, written, taken, negative]

theorem Reader.integer_written (room : Nat) {n : Int} (fits : IsInt64 n) :
    integer room (.number (.written n)) = .ok n := by
  obtain ⟨-, below⟩ := isInt64_iff.1 fits
  simp only [integer, Numeral.value?_written fits]
  by_cases negative : n < 0
  · simp only [negative, if_true]
    exact congrArg Except.ok (by omega)
  · simp only [negative, if_false]
    rw [if_pos (by omega)]
    exact congrArg Except.ok (by omega)

/-! ### Tokens -/

variable {c : Char} {t : Token} {rest tail : Loose}

theorem tokens_cons (plain : isSpace c = false) (scan : scanToken c rest = (t, tail))
    (good : t.isBad = false) : tokens (some c :: rest) = t :: tokens tail := by
  rw [tokens]
  simp [plain, scan, good]

theorem tokens_quoted (s : String) (rest : Loose) :
    tokens ((quoted s).map some ++ rest) = .string (.written s) :: tokens rest := by
  have scan : scanToken '"' ((s.toList.flatMap escape).map some ++ some '"' :: rest) =
      (.string (.written s), rest) := by
    simp only [scanToken, scanString_quoted]
  simpa [quoted] using tokens_cons rfl scan rfl

theorem scanToken_digit (digit : c.isDigit = true) (rest : Loose) :
    isSpace c = false ∧ scanToken c rest = scanNumber false (some c :: rest) := by
  constructor
  · refine Bool.eq_false_iff.2 fun space => ?_
    simp only [isSpace, Bool.or_eq_true, beq_iff_eq] at space
    rcases space with ((rfl | rfl) | rfl) | rfl <;> exact absurd digit (by decide)
  · unfold scanToken
    split <;> first | exact absurd digit (by decide) | simp [digit]

theorem integer_eq (n : Int) : integer n =
    if n < 0 then '-' :: Nat.toDigits 10 n.natAbs else Nat.toDigits 10 n.natAbs := by
  unfold integer
  rw [Int.toString_eq_repr, Int.repr_eq_if]
  by_cases negative : n < 0
  · rw [if_neg (by omega), if_pos negative, show (-n).toNat = n.natAbs by omega,
      String.toList_append, Nat.toList_repr]
    rfl
  · rw [if_pos (by omega), if_neg negative, show n.toNat = n.natAbs by omega, Nat.toList_repr]

theorem tokens_integer (n : Int) (stops : Stops rest) :
    tokens ((integer n).map some ++ rest) = .number (.written n) :: tokens rest := by
  rw [integer_eq]
  split
  · rename_i negative
    have scan := scanNumber_digits true n.natAbs stops
    simpa [Numeral.written, negative] using tokens_cons (c := '-') rfl scan rfl
  · rename_i natural
    have scan := scanNumber_digits false n.natAbs stops
    obtain ⟨c, digits, front⟩ := List.exists_cons_of_ne_nil (Nat.toDigits_ne_nil (n := n.natAbs))
    have digit : c.isDigit = true :=
      Nat.isDigit_of_mem_toDigits (b := 10) (n := n.natAbs) (by decide) (by decide)
        (front ▸ List.mem_cons_self ..)
    obtain ⟨plain, token⟩ := scanToken_digit digit (digits.map some ++ rest)
    rw [front] at scan ⊢
    simpa [Numeral.written, natural, front] using tokens_cons plain (token.trans scan) rfl

end BearerAuth.Json
