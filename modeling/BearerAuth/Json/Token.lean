import BearerAuth.Text.Utf8

/-!
# Tokens of a JSON document

A document is first cut into tokens; blanks between tokens leave no trace.  The cut never fails: a
place where no token can begin yields `Token.bad`, after which nothing is read, and a string or a
number that breaks off keeps what was seen of it.  Whether such a place matters is for the reader of
the tokens to say, because a document is refused for the first thing wrong with it in reading order.

* `tokens` cuts a text;
* `RawString.read` reads a string with its escapes.
-/

namespace BearerAuth.Json

open Text (Utf8.Loose)

/-- What can be wrong with a document. -/
inductive Fault where
  /-- The text is not JSON, or a value that has to be built exceeds a limit. -/
  | malformed
  /-- The text ends early. -/
  | truncated
  /-- The text is JSON, but not of the shape that is read. -/
  | mismatch
  deriving DecidableEq, Repr

/-- A part of a string as written. -/
inductive StringUnit where
  /-- A character, or the escape of one other than by number. -/
  | char (c : Char)
  /-- An escape by number, which may be half of a surrogate pair. -/
  | code (n : Nat)
  /-- An octet that belongs to no character. -/
  | stray
  deriving DecidableEq, Repr

/-- A string as written, up to its closing quote or to the fault that ends it. -/
structure RawString where
  /-- The parts in order. -/
  units : List StringUnit
  /-- Why the closing quote was not reached. -/
  fault : Option Fault
  deriving DecidableEq, Repr

/-- A number as written. -/
structure Numeral where
  /-- A minus sign stands in front. -/
  negative : Bool
  /-- The digits before the point. -/
  whole : List Nat
  /-- The digits after the point; empty if there is no point. -/
  fraction : List Nat
  /-- Sign (`true` for minus) and digits of the exponent. -/
  exponent : Option (Bool × List Nat)
  deriving DecidableEq, Repr

/-- A token. -/
inductive Token where
  /-- `[` -/
  | openList
  /-- `]` -/
  | closeList
  /-- `{` -/
  | openObject
  /-- `}` -/
  | closeObject
  /-- `,` -/
  | comma
  /-- `:` -/
  | colon
  /-- `null` -/
  | null
  /-- `true` or `false` -/
  | bool (b : Bool)
  /-- A number. -/
  | number (n : Numeral)
  /-- A number that lacks a digit where the text ends. -/
  | cutNumber
  /-- A string, perhaps without its closing quote. -/
  | string (s : RawString)
  /-- No token begins here. -/
  | bad (f : Fault)
  deriving DecidableEq, Repr

/-! ### Strings -/

/-- The value of a hexadecimal digit. -/
def hexValue? (c : Char) : Option Nat :=
  if c.isDigit then some (c.toNat - 48)
  else if 'a' ≤ c && c ≤ 'f' then some (c.toNat - 87)
  else if 'A' ≤ c && c ≤ 'F' then some (c.toNat - 55)
  else none

/-- The number that four hexadecimal digits write. -/
def hexNumber? : List (Option Char) → Option Nat
  | [a, b, c, d] => do
    let a ← a.bind hexValue?
    let b ← b.bind hexValue?
    let c ← c.bind hexValue?
    let d ← d.bind hexValue?
    pure (((a * 16 + b) * 16 + c) * 16 + d)
  | _ => none

/-- The character that a one-letter escape stands for. -/
def escaped? (c : Char) : Option Char :=
  match c with
  | '"' => some '"'
  | '\\' => some '\\'
  | '/' => some '/'
  | 'b' => some '\x08'
  | 'f' => some '\x0c'
  | 'n' => some '\n'
  | 'r' => some '\x0d'
  | 't' => some '\t'
  | _ => none

/-- Puts a unit in front of what follows it. -/
def RawString.cons (u : StringUnit) (s : RawString × Utf8.Loose) : RawString × Utf8.Loose :=
  ({ s.1 with units := u :: s.1.units }, s.2)

/-- Reads a string after its opening quote; also the text after it.  An escape by number needs four
octets: with fewer left, the text has ended early, whatever they are. -/
def scanString : Utf8.Loose → RawString × Utf8.Loose
  | [] => (⟨[], some .truncated⟩, [])
  | none :: rest => RawString.cons .stray (scanString rest)
  | some c :: rest =>
    if c == '"' then (⟨[], none⟩, rest)
    else if c == '\\' then
      match rest with
      | [] => (⟨[], some .truncated⟩, [])
      | some 'u' :: h₁ :: h₂ :: h₃ :: h₄ :: tail =>
        match hexNumber? [h₁, h₂, h₃, h₄] with
        | some n => RawString.cons (.code n) (scanString tail)
        | none =>
          if Text.Utf8.size (h₁ :: h₂ :: h₃ :: h₄ :: tail) < 4 then (⟨[], some .truncated⟩, [])
          else (⟨[], some .malformed⟩, [])
      | some 'u' :: tail =>
        if Text.Utf8.size tail < 4 then (⟨[], some .truncated⟩, [])
        else (⟨[], some .malformed⟩, [])
      | e :: tail =>
        match e.bind escaped? with
        | some c => RawString.cons (.char c) (scanString tail)
        | none => (⟨[], some .malformed⟩, [])
    else if c.toNat < 0x20 then (⟨[], some .malformed⟩, [])
    else RawString.cons (.char c) (scanString rest)

/-- The first half of a surrogate pair. -/
def isLeading (n : Nat) : Bool := 0xD800 ≤ n && n ≤ 0xDBFF

/-- The second half of a surrogate pair. -/
def isTrailing (n : Nat) : Bool := 0xDC00 ≤ n && n ≤ 0xDFFF

/-- The character of a surrogate pair. -/
def joinPair (hi lo : Nat) : Char := Char.ofNat (0x10000 + (hi - 0xD800) * 1024 + (lo - 0xDC00))

/-- Reads units up to the end of the string, or to the fault that ends it.  A half of a surrogate
pair without the other is refused where it stands, a stray octet only after the closing quote. -/
def readUnits (fault : Option Fault) : List StringUnit → Except Fault (List Char)
  | [] =>
    match fault with
    | some f => .error f
    | none => .ok []
  | .char c :: rest => (readUnits fault rest).map (c :: ·)
  | .stray :: rest => (readUnits fault rest).bind fun _ => .error .malformed
  | .code n :: rest =>
    if isTrailing n then .error .malformed
    else if isLeading n then
      match rest with
      | .code m :: rest =>
        if isTrailing m then (readUnits fault rest).map (joinPair n m :: ·) else .error .malformed
      | [] => .error (if fault = some .truncated then .truncated else .malformed)
      | _ => .error .malformed
    else (readUnits fault rest).map (Char.ofNat n :: ·)

/-- The text that a string stands for. -/
def RawString.read (s : RawString) : Except Fault String :=
  (readUnits s.fault s.units).map String.ofList

/-! ### Numbers and words -/

/-- The digits at the front of a text, and the rest. -/
def scanDigits : Utf8.Loose → List Nat × Utf8.Loose
  | some c :: rest =>
    if c.isDigit then
      let (digits, tail) := scanDigits rest
      ((c.toNat - 48) :: digits, tail)
    else ([], some c :: rest)
  | text => ([], text)

/-- What stands where a digit is missing. -/
def missingDigit : Utf8.Loose → Token × Utf8.Loose
  | [] => (.cutNumber, [])
  | text => (.bad .malformed, text)

/-- Reads an exponent after its letter. -/
def scanExponent (n : Numeral) (text : Utf8.Loose) : Token × Utf8.Loose :=
  let (negative, text) :=
    match text with
    | some '+' :: rest => (false, rest)
    | some '-' :: rest => (true, rest)
    | _ => (false, text)
  match scanDigits text with
  | ([], rest) => missingDigit rest
  | (digits, rest) => (.number { n with exponent := some (negative, digits) }, rest)

/-- Reads the exponent of a number, if one follows. -/
def scanTail (n : Numeral) : Utf8.Loose → Token × Utf8.Loose
  | some 'e' :: rest => scanExponent n rest
  | some 'E' :: rest => scanExponent n rest
  | text => (.number n, text)

/-- Reads a number after its sign.  Only a single zero may begin with zero. -/
def scanNumber (negative : Bool) (text : Utf8.Loose) : Token × Utf8.Loose :=
  match scanDigits text with
  | ([], rest) => missingDigit rest
  | (0 :: _ :: _, rest) => (.bad .malformed, rest)
  | (whole, some '.' :: rest) =>
    match scanDigits rest with
    | ([], tail) => missingDigit tail
    | (fraction, tail) => scanTail ⟨negative, whole, fraction, none⟩ tail
  | (whole, rest) => scanTail ⟨negative, whole, [], none⟩ rest

/-- Reads the letters that remain of a word. -/
def scanWord (t : Token) : List Char → Utf8.Loose → Token × Utf8.Loose
  | [], text => (t, text)
  | _ :: _, [] => (.bad .truncated, [])
  | c :: word, d :: rest =>
    if d == some c then scanWord t word rest else (.bad .malformed, rest)

/-! ### The cut -/

/-- A blank between tokens. -/
def isSpace (c : Char) : Bool := c == ' ' || c == '\n' || c == '\t' || c == '\x0d'

/-- The token that begins with the character `c`, and the text after it. -/
def scanToken (c : Char) (rest : Utf8.Loose) : Token × Utf8.Loose :=
  match c with
  | '[' => (.openList, rest)
  | ']' => (.closeList, rest)
  | '{' => (.openObject, rest)
  | '}' => (.closeObject, rest)
  | ',' => (.comma, rest)
  | ':' => (.colon, rest)
  | 'n' => scanWord .null ['u', 'l', 'l'] rest
  | 't' => scanWord (.bool true) ['r', 'u', 'e'] rest
  | 'f' => scanWord (.bool false) ['a', 'l', 's', 'e'] rest
  | '"' =>
    let (s, tail) := scanString rest
    (.string s, tail)
  | '-' => scanNumber true rest
  | c => if c.isDigit then scanNumber false (some c :: rest) else (.bad .malformed, rest)

theorem scanString_length (text : Utf8.Loose) : (scanString text).2.length ≤ text.length := by
  fun_induction scanString text <;> simp_all [RawString.cons] <;> omega

theorem scanDigits_length (text : Utf8.Loose) : (scanDigits text).2.length ≤ text.length := by
  fun_induction scanDigits text <;> simp_all
  omega

theorem missingDigit_length (text : Utf8.Loose) : (missingDigit text).2.length ≤ text.length := by
  cases text <;> simp [missingDigit]

theorem scanExponent_length (n : Numeral) (text : Utf8.Loose) :
    (scanExponent n text).2.length ≤ text.length := by
  unfold scanExponent
  have step : ∀ t : Utf8.Loose, t.length ≤ text.length → ∀ b : Bool,
      (match scanDigits t with
        | ([], rest) => missingDigit rest
        | (digits, rest) => (Token.number { n with exponent := some (b, digits) }, rest)).2.length
        ≤ text.length := by
    intro t ht b
    have h := scanDigits_length t
    split
    · rename_i rest e
      rw [e] at h
      exact Nat.le_trans (missingDigit_length rest) (Nat.le_trans h ht)
    · rename_i digits rest e
      rw [e] at h
      exact Nat.le_trans h ht
  split
  rename_i negative t e
  split at e <;> cases e <;> exact step _ (by simp) _

theorem scanTail_length (n : Numeral) (text : Utf8.Loose) :
    (scanTail n text).2.length ≤ text.length := by
  unfold scanTail
  split
  · exact Nat.le_succ_of_le (scanExponent_length ..)
  · exact Nat.le_succ_of_le (scanExponent_length ..)
  · exact Nat.le_refl _

theorem scanNumber_length (negative : Bool) (text : Utf8.Loose) :
    (scanNumber negative text).2.length ≤ (scanDigits text).2.length := by
  unfold scanNumber
  split
  · rename_i rest e
    rw [e]; exact missingDigit_length rest
  · rename_i rest e
    simp only [e, Nat.le_refl]
  · rename_i whole rest _ _ e
    have h := scanDigits_length rest
    rw [e]
    split
    · rename_i tail e'
      rw [e'] at h
      exact Nat.le_trans (missingDigit_length tail) (Nat.le_succ_of_le h)
    · rename_i fraction tail _ e'
      rw [e'] at h
      exact Nat.le_trans (scanTail_length ..) (Nat.le_succ_of_le h)
  · rename_i whole rest _ _ _ e
    rw [e]; exact scanTail_length ..

theorem scanWord_length (t : Token) (word : List Char) (text : Utf8.Loose) :
    (scanWord t word text).2.length ≤ text.length := by
  induction word generalizing text with
  | nil => simp [scanWord]
  | cons c word ih =>
    cases text with
    | nil => simp [scanWord]
    | cons d rest =>
      simp only [scanWord]
      split
      · exact Nat.le_succ_of_le (ih rest)
      · simp

theorem scanToken_length (c : Char) (rest : Utf8.Loose) :
    (scanToken c rest).2.length ≤ rest.length := by
  unfold scanToken
  split <;> try exact Nat.le_refl _
  · exact scanWord_length ..
  · exact scanWord_length ..
  · exact scanWord_length ..
  · exact scanString_length rest
  · exact Nat.le_trans (scanNumber_length ..) (scanDigits_length rest)
  · split
    · rename_i h
      refine Nat.le_trans (scanNumber_length ..) ?_
      rw [scanDigits]
      simpa [h] using scanDigits_length rest
    · exact Nat.le_refl _

/-- No token could begin. -/
def Token.isBad : Token → Bool
  | .bad _ => true
  | _ => false

/-- The tokens of a text, up to the first place where none can begin. -/
def tokens : Utf8.Loose → List Token
  | [] => []
  | none :: _ => [.bad .malformed]
  | some c :: rest =>
    if isSpace c then tokens rest
    else
      let next := scanToken c rest
      if next.1.isBad then [next.1] else next.1 :: tokens next.2
termination_by text => text.length
decreasing_by
  · simp
  · exact Nat.lt_succ_of_le (scanToken_length c rest)

end BearerAuth.Json
