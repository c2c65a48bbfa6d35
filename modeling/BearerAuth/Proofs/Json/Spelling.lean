import BearerAuth.Proofs.Json.Lexemes
import Mathlib.Data.List.Induction

/-!
# How strings and numbers are spelled

The grammar of the strings and numbers of a document, as the data that they are spelled from.

* `StringPart` and `NumberText` are the grammar, `StringText.Spells` says what a string stands for;
* `StringText.scanString_raw`, `NumberText.tokens_chars` : they are cut off the text;
* `StringText.read_eq_ok_iff` : a string is read as what it stands for, and refused if it stands for
  nothing.

The proof: a string is cut off by an induction on its parts, with a case for each kind of part.  Of
a number the digits before the point end at the point, those after it at the exponent, and the last
where the number does.
-/

namespace BearerAuth.Json

open Text.Utf8

/-! ### Characters -/

/-- A blank between lexemes. -/
abbrev Space := {c : Char // c ∈ [' ', '\n', '\t', '\x0d']}

/-- A decimal digit. -/
abbrev Digit := {c : Char // c.isDigit = true}

/-- A hexadecimal digit. -/
abbrev HexDigit := {c : Char // c.isDigit = true ∨ ('a' ≤ c ∧ c ≤ 'f') ∨ ('A' ≤ c ∧ c ≤ 'F')}

/-- The value of a hexadecimal digit. -/
def HexDigit.value (h : HexDigit) : Nat :=
  if h.val.isDigit then h.val.toNat - 48
  else if 'a' ≤ h.val ∧ h.val ≤ 'f' then h.val.toNat - 87
  else h.val.toNat - 55

theorem hexValue?_eq (h : HexDigit) : hexValue? h.val = some h.value := by
  obtain ⟨c, hex⟩ := h
  unfold hexValue? HexDigit.value
  by_cases digit : c.isDigit = true
  · simp [digit]
  · by_cases small : 'a' ≤ c ∧ c ≤ 'f'
    · simp [digit, small]
    · have capital : 'A' ≤ c ∧ c ≤ 'F' := (hex.resolve_left digit).resolve_left small
      simp only [Bool.and_eq_true, decide_eq_true_eq, digit, small, capital, and_self, if_true,
        if_false, Bool.false_eq_true]

/-! ### Strings -/

/-- The letters of the escapes that are not by number, and the characters they stand for. -/
def escapes : List (Char × Char) :=
  [('"', '"'), ('\\', '\\'), ('/', '/'), ('b', '\x08'), ('f', '\x0c'), ('n', '\n'), ('r', '\x0d'),
    ('t', '\t')]

/-- The digits of an escape by number. -/
structure Code where
  /-- The first digit. -/
  first : HexDigit
  /-- The second digit. -/
  second : HexDigit
  /-- The third digit. -/
  third : HexDigit
  /-- The last digit. -/
  last : HexDigit

/-- The number that the digits write. -/
def Code.number (k : Code) : Nat :=
  ((k.first.value * 16 + k.second.value) * 16 + k.third.value) * 16 + k.last.value

/-- A part of a string. -/
inductive StringPart where
  /-- A character that stands for itself. -/
  | plain (c : Char) (free : 0x20 ≤ c.toNat ∧ c ≠ '"' ∧ c ≠ '\\')
  /-- A backslash and a letter, with the character that they stand for. -/
  | letter (l c : Char) (stands : (l, c) ∈ escapes)
  /-- A backslash, the letter `u` and digits. -/
  | code (k : Code)

/-- What stands between the quotes of a string. -/
abbrev StringText := List StringPart

namespace StringPart

/-- The characters of a part. -/
def chars : StringPart → List Char
  | .plain c _ => [c]
  | .letter l _ _ => ['\\', l]
  | .code k => ['\\', 'u', k.first.val, k.second.val, k.third.val, k.last.val]

/-- A part as it is read. -/
def unit : StringPart → StringUnit
  | .plain c _ => .char c
  | .letter _ c _ => .char c
  | .code k => .code k.number

variable {p : StringPart} {k l : Code} {rest : StringText} {cs : List Char}

theorem escaped?_of_mem {l c : Char} (stands : (l, c) ∈ escapes) : escaped? l = some c := by
  simp only [escapes, List.mem_cons, Prod.mk.injEq, List.not_mem_nil, or_false] at stands
  rcases stands with ⟨rfl, rfl⟩ | ⟨rfl, rfl⟩ | ⟨rfl, rfl⟩ | ⟨rfl, rfl⟩ | ⟨rfl, rfl⟩ | ⟨rfl, rfl⟩ |
    ⟨rfl, rfl⟩ | ⟨rfl, rfl⟩ <;> rfl

theorem scanString_chars (p : StringPart) (rest : Loose) :
    scanString (p.chars.map some ++ rest) = RawString.cons p.unit (scanString rest) := by
  cases p with
  | plain c free =>
    obtain ⟨control, quote, backslash⟩ := free
    rw [chars, List.map_singleton, List.singleton_append, scanString.eq_def]
    simp [quote, backslash, Nat.not_lt.2 control, unit]
  | letter l c stands => exact scanString_letter rest (escaped?_of_mem stands)
  | code k =>
    have digits : hexNumber? [some k.first.val, some k.second.val, some k.third.val,
        some k.last.val] = some k.number := by
      simp [hexNumber?, hexValue?_eq, Code.number]
    simp [chars, scanString, digits, unit]

end StringPart

namespace StringText

/-- The string as it is read. -/
def raw (text : StringText) : RawString := ⟨text.map StringPart.unit, none⟩

theorem scanString_raw (text : StringText) (rest : Loose) :
    scanString ((text.flatMap StringPart.chars).map some ++ some '"' :: rest) =
      (raw text, rest) := by
  induction text with
  | nil =>
    rw [List.flatMap_nil, List.map_nil, List.nil_append, scanString.eq_def]
    rfl
  | cons p text ih =>
    rw [List.flatMap_cons, List.map_append, List.append_assoc, StringPart.scanString_chars, ih]
    rfl

/-- The characters that a string stands for.  Two numbers can be the halves of one character, and
then stand for it together; a half alone stands for nothing. -/
inductive Spells : StringText → List Char → Prop where
  /-- The empty string. -/
  | nil : Spells [] []
  /-- A character that stands for itself. -/
  | plain {c : Char} {free : 0x20 ≤ c.toNat ∧ c ≠ '"' ∧ c ≠ '\\'} {text : StringText}
    {cs : List Char} (others : Spells text cs) : Spells (.plain c free :: text) (c :: cs)
  /-- An escape by letter. -/
  | letter {l c : Char} {stands : (l, c) ∈ escapes} {text : StringText} {cs : List Char}
    (others : Spells text cs) : Spells (.letter l c stands :: text) (c :: cs)
  /-- An escape by number. -/
  | code {k : Code} {text : StringText} {cs : List Char}
    (whole : ¬ (0xD800 ≤ k.number ∧ k.number ≤ 0xDFFF)) (others : Spells text cs) :
    Spells (.code k :: text) (Char.ofNat k.number :: cs)
  /-- Two escapes for one character. -/
  | pair {k l : Code} {text : StringText} {cs : List Char}
    (first : 0xD800 ≤ k.number ∧ k.number ≤ 0xDBFF)
    (second : 0xDC00 ≤ l.number ∧ l.number ≤ 0xDFFF) (others : Spells text cs) :
    Spells (.code k :: .code l :: text)
      (Char.ofNat (0x10000 + (k.number - 0xD800) * 1024 + (l.number - 0xDC00)) :: cs)

variable {text : StringText} {cs : List Char} {s : String}

theorem readUnits_whole {n : Nat} (whole : ¬ (0xD800 ≤ n ∧ n ≤ 0xDFFF)) (rest : List StringUnit) :
    readUnits none (.code n :: rest) = (readUnits none rest).map (Char.ofNat n :: ·) := by
  have trailing : isTrailing n = false := by simp [isTrailing]; omega
  have leading : isLeading n = false := by simp [isLeading]; omega
  rw [readUnits.eq_def]
  simp [trailing, leading]

theorem readUnits_pair {n m : Nat} (first : 0xD800 ≤ n ∧ n ≤ 0xDBFF)
    (second : 0xDC00 ≤ m ∧ m ≤ 0xDFFF) (rest : List StringUnit) :
    readUnits none (.code n :: .code m :: rest) =
      (readUnits none rest).map (joinPair n m :: ·) := by
  have trailing : isTrailing n = false := by simp [isTrailing]; omega
  have leading : isLeading n = true := by simpa [isLeading] using first
  have trailing' : isTrailing m = true := by simpa [isTrailing] using second
  rw [readUnits.eq_def]
  simp [trailing, leading, trailing']

/-- A half is read only as the first of two. -/
theorem halves_of_readUnits {n : Nat} {rest : List StringUnit}
    (half : 0xD800 ≤ n ∧ n ≤ 0xDFFF) (h : readUnits none (.code n :: rest) = .ok cs) :
    (0xD800 ≤ n ∧ n ≤ 0xDBFF) ∧ ∃ m more, rest = .code m :: more ∧ 0xDC00 ≤ m ∧ m ≤ 0xDFFF := by
  rw [readUnits.eq_def] at h
  dsimp only at h
  split at h
  · cases h
  · rename_i low
    have first : 0xD800 ≤ n ∧ n ≤ 0xDBFF := by
      simp only [isTrailing, Bool.and_eq_true, decide_eq_true_eq] at low
      omega
    rw [if_pos (by simpa [isLeading] using first)] at h
    split at h
    · split at h
      · rename_i second
        exact ⟨first, _, _, rfl, by simpa [isTrailing] using second⟩
      · cases h
    · cases h
    · cases h

theorem Spells.readUnits_eq (h : Spells text cs) :
    readUnits none (text.map StringPart.unit) = .ok cs := by
  induction h with
  | nil => rfl
  | plain _ ih | letter _ ih => rw [List.map_cons, StringPart.unit, readUnits, ih]; rfl
  | code whole _ ih => rw [List.map_cons, StringPart.unit, readUnits_whole whole, ih]; rfl
  | pair first second _ ih =>
    rw [List.map_cons, List.map_cons, StringPart.unit, StringPart.unit,
      readUnits_pair first second, ih]
    rfl

theorem spells_cons {p : StringPart}
    (others : ∀ cs, readUnits none (text.map StringPart.unit) = .ok cs → Spells text cs)
    (whole : ∀ k, p = .code k → ¬ (0xD800 ≤ k.number ∧ k.number ≤ 0xDFFF))
    (h : readUnits none ((p :: text).map StringPart.unit) = .ok cs) : Spells (p :: text) cs := by
  cases p with
  | plain c free =>
    rw [List.map_cons, StringPart.unit, readUnits] at h
    obtain ⟨cs, read, rfl⟩ := map_eq_ok h
    exact .plain (others cs read)
  | letter l c stands =>
    rw [List.map_cons, StringPart.unit, readUnits] at h
    obtain ⟨cs, read, rfl⟩ := map_eq_ok h
    exact .letter (others cs read)
  | code k =>
    rw [List.map_cons, StringPart.unit, readUnits_whole (whole k rfl)] at h
    obtain ⟨cs, read, rfl⟩ := map_eq_ok h
    exact .code (whole k rfl) (others cs read)

theorem spells_of_readUnits (h : readUnits none (text.map StringPart.unit) = .ok cs) :
    Spells text cs := by
  -- a character may take two parts
  induction text using List.twoStepInduction generalizing cs with
  | nil =>
    cases h
    exact .nil
  | singleton p =>
    refine spells_cons (fun cs read => ?_) ?_ h
    · cases read
      exact .nil
    · rintro k rfl half
      obtain ⟨-, m, more, none, -⟩ := halves_of_readUnits half h
      cases none
  | cons_cons p q text ih ih' =>
    by_cases half : ∃ k, p = .code k ∧ 0xD800 ≤ k.number ∧ k.number ≤ 0xDFFF
    · obtain ⟨k, rfl, half⟩ := half
      obtain ⟨first, m, more, next, second⟩ := halves_of_readUnits half h
      cases q with
      | plain | letter => cases next
      | code l =>
        cases next
        rw [List.map_cons, List.map_cons, StringPart.unit, StringPart.unit,
          readUnits_pair first second] at h
        obtain ⟨cs, read, rfl⟩ := map_eq_ok h
        exact .pair first second (ih read)
    · exact spells_cons (fun cs read => ih' q read) (fun k same whole => half ⟨k, same, whole⟩) h

/-- **A string is read as what it stands for**, and refused if it stands for nothing. -/
theorem read_eq_ok_iff : (raw text).read = .ok s ↔ Spells text s.toList := by
  rw [RawString.read, raw]
  constructor
  · intro h
    obtain ⟨cs, read, rfl⟩ := map_eq_ok h
    rw [String.toList_ofList]
    exact spells_of_readUnits read
  · intro h
    rw [h.readUnits_eq]
    exact congrArg Except.ok String.ofList_toList

end StringText

/-! ### Numbers -/

/-- One digit or more. -/
structure Digits where
  /-- The first digit. -/
  first : Digit
  /-- The digits after it. -/
  others : List Digit

namespace Digits

/-- The characters of some digits. -/
def chars (d : Digits) : List Char := (d.first :: d.others).map (·.val)

/-- The values of some digits. -/
def values (d : Digits) : List Nat := d.chars.map (·.toNat - 48)

theorem isDigit_of_mem {d : Digits} {c : Char} (h : c ∈ d.chars) : c.isDigit = true := by
  obtain ⟨digit, -, rfl⟩ := List.mem_map.1 h
  exact digit.property

theorem ne_cons {d : Digits} {c : Char} {rest tail : Loose} (other : c.isDigit = false) :
    d.chars.map some ++ rest ≠ some c :: tail := fun h => by
  simp only [chars, List.map_cons, List.cons_append, List.cons.injEq, Option.some.injEq] at h
  exact absurd (h.1 ▸ d.first.property) (Bool.eq_false_iff.1 other)

theorem values_eq_cons (d : Digits) : ∃ v vs, d.values = v :: vs := ⟨_, _, rfl⟩

theorem scanDigits_chars (d : Digits) {rest : Loose}
    (ends : ∀ c, rest.head? = some (some c) → c.isDigit = false) :
    scanDigits (d.chars.map some ++ rest) = (d.values, rest) :=
  scanDigits_append (fun _ => isDigit_of_mem) ends

end Digits

/-- The exponent of a number. -/
structure ExponentText where
  /-- Its letter is a capital. -/
  capital : Bool
  /-- Its sign, `true` for minus. -/
  sign : Option Bool
  /-- Its digits. -/
  digits : Digits

/-- A number.  Only a single zero begins with zero. -/
structure NumberText where
  /-- A minus sign stands in front. -/
  negative : Bool
  /-- The digits before the point. -/
  whole : Digits
  /-- The first of them is no zero, unless it is the only one. -/
  plain : whole.first.val = '0' → whole.others = []
  /-- The digits after the point. -/
  fraction : Option Digits
  /-- The exponent. -/
  exponent : Option ExponentText

namespace ExponentText

/-- The characters of a sign. -/
def signChars : Option Bool → List Char
  | none => []
  | some false => ['+']
  | some true => ['-']

/-- The characters of an exponent. -/
def chars (e : ExponentText) : List Char :=
  (if e.capital then 'E' else 'e') :: signChars e.sign ++ e.digits.chars

/-- The exponent as it is read. -/
def read (e : ExponentText) : Bool × List Nat := (e.sign.getD false, e.digits.values)

variable {rest : Loose}

theorem scanExponent_chars (n : Numeral) (e : ExponentText) (stops : Stops rest) :
    scanExponent n ((signChars e.sign).map some ++ (e.digits.chars.map some ++ rest)) =
      (.number { n with exponent := some e.read }, rest) := by
  have scan := e.digits.scanDigits_chars fun c hc => (stops c hc).1
  obtain ⟨capital, sign, digits⟩ := e
  match sign with
  | .some true | .some false =>
    simp only [scanExponent, signChars, List.map, List.cons_append, List.nil_append, scan]
    rfl
  | none =>
    change scanExponent n (digits.chars.map some ++ rest) = _
    unfold scanExponent
    split
    rename_i negative text cut
    split at cut
    · rename_i same
      exact absurd same (digits.ne_cons (by decide))
    · rename_i same
      exact absurd same (digits.ne_cons (by decide))
    · cases cut
      rw [scan]
      rfl

/-- The characters of an exponent that may be missing. -/
def optionalChars (exponent : Option ExponentText) : List Char := exponent.elim [] chars

theorem scanTail_chars (negative : Bool) (whole fraction : List Nat)
    (exponent : Option ExponentText) (stops : Stops rest) :
    scanTail ⟨negative, whole, fraction, none⟩ ((optionalChars exponent).map some ++ rest) =
      (.number ⟨negative, whole, fraction, exponent.map read⟩, rest) := by
  cases exponent with
  | none => exact scanTail_of_stops _ stops
  | some e =>
    have scan := scanExponent_chars ⟨negative, whole, fraction, none⟩ e stops
    rw [← List.append_assoc, ← List.map_append] at scan
    obtain ⟨capital, sign, digits⟩ := e
    cases capital <;> exact scan

/-- No digit and no point follow where an exponent may. -/
theorem ends_optionalChars (exponent : Option ExponentText) (stops : Stops rest) (c : Char)
    (first : ((optionalChars exponent).map some ++ rest).head? = some (some c)) :
    c.isDigit = false ∧ c ≠ '.' := by
  cases exponent with
  | none => exact ⟨(stops c first).1, (stops c first).2.1⟩
  | some e =>
    obtain ⟨capital, sign, digits⟩ := e
    match capital with
    | false => cases first; exact ⟨rfl, show 'e' ≠ '.' by decide⟩
    | true => cases first; exact ⟨rfl, show 'E' ≠ '.' by decide⟩

end ExponentText

namespace NumberText

/-- The characters of a number after its sign. -/
def unsigned (n : NumberText) : List Char :=
  n.whole.chars ++ (n.fraction.elim [] fun digits => '.' :: digits.chars) ++
    ExponentText.optionalChars n.exponent

/-- The characters of a number. -/
def chars (n : NumberText) : List Char :=
  if n.negative then '-' :: n.unsigned else n.unsigned

/-- The number as it is read. -/
def numeral (n : NumberText) : Numeral :=
  ⟨n.negative, n.whole.values, n.fraction.elim [] Digits.values, n.exponent.map ExponentText.read⟩

variable {rest : Loose}

/-- A number does not begin with a zero that is followed by digits. -/
theorem values_ne (n : NumberText) (d : Nat) (digits : List Nat) :
    n.whole.values ≠ 0 :: d :: digits := by
  obtain ⟨-, ⟨first, others⟩, plain, -, -⟩ := n
  intro same
  simp only [Digits.values, Digits.chars, List.map_cons, List.cons.injEq] at same
  obtain ⟨zero, more⟩ := same
  have range : 48 ≤ first.val.toNat := by
    have digit := first.property
    simp only [Char.isDigit, Bool.and_eq_true, decide_eq_true_eq] at digit
    exact digit.1
  have zero : first.val = '0' := Char.toNat_inj.1 (by
    change _ = 48
    omega)
  obtain rfl : others = [] := plain zero
  cases more

theorem scanNumber_fraction {negative : Bool} {text rest tail : Loose} {v w : Nat}
    {vs ws : List Nat} (cut : scanDigits text = (v :: vs, some '.' :: rest))
    (leading : ∀ d digits, v :: vs ≠ 0 :: d :: digits)
    (cut' : scanDigits rest = (w :: ws, tail)) :
    scanNumber negative text = scanTail ⟨negative, v :: vs, w :: ws, none⟩ tail := by
  unfold scanNumber
  rw [cut]
  split
  · rename_i same
    cases same
  · rename_i same
    cases same
    exact absurd rfl (leading _ _)
  · rename_i same
    cases same
    rw [cut']
  · rename_i point same
    cases same
    exact absurd rfl (point _)

theorem scanNumber_unsigned (n : NumberText) (stops : Stops rest) :
    scanNumber n.negative (n.unsigned.map some ++ rest) = (.number n.numeral, rest) := by
  have leading := n.values_ne
  obtain ⟨negative, whole, plain, fraction, exponent⟩ := n
  have tail (digits : List Nat) :=
    ExponentText.scanTail_chars negative whole.values digits exponent stops
  have ends := ExponentText.ends_optionalChars exponent stops
  obtain ⟨v, vs, values⟩ := whole.values_eq_cons
  simp only [unsigned, numeral, List.map_append, List.append_assoc, values] at leading tail ⊢
  cases fraction with
  | none =>
    have cut := whole.scanDigits_chars fun c hc => (ends c hc).1
    rw [values] at cut
    exact (scanNumber_whole cut leading fun point => (ends _ point).2 rfl).trans (tail [])
  | some digits =>
    have cut' := digits.scanDigits_chars fun c hc => (ends c hc).1
    have cut := whole.scanDigits_chars fun c (hc : (some '.' :: (digits.chars.map some ++
      ((ExponentText.optionalChars exponent).map some ++ rest))).head? = _) => by cases hc; rfl
    obtain ⟨w, ws, values'⟩ := digits.values_eq_cons
    rw [values] at cut
    rw [values'] at cut'
    refine (scanNumber_fraction cut leading cut').trans ?_
    rw [tail, Option.elim_some, values']

theorem tokens_chars (n : NumberText) (stops : Stops rest) :
    tokens (n.chars.map some ++ rest) = .number n.numeral :: tokens rest := by
  have scan := n.scanNumber_unsigned stops
  unfold chars
  split
  · rename_i negative
    rw [negative] at scan
    exact tokens_cons (c := '-') rfl scan rfl
  · rename_i natural
    rw [Bool.not_eq_true] at natural
    rw [natural] at scan
    obtain ⟨more, front⟩ : ∃ more, n.unsigned = n.whole.first.val :: more := ⟨_, rfl⟩
    obtain ⟨plain, token⟩ := scanToken_digit n.whole.first.property (more.map some ++ rest)
    rw [front] at scan ⊢
    exact tokens_cons plain (token.trans scan) rfl

end NumberText

end BearerAuth.Json
