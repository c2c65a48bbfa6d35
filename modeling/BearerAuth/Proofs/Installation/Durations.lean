import BearerAuth.Proofs.Installation.Setup
import BearerAuth.Proofs.Number.Nearest
import BearerAuth.Proofs.Token.Spellings

/-!
# Spans of time in settings

Settings state four spans of time as numbers of seconds, which are read as binary fractions and then
rounded to nanoseconds.  A literal with at most nine digits after the point survives both roundings,
as long as it stays below `2 ^ 23`, about 97 days.

* `NumberText.decimal` is what a literal is worth, and `NumberText.Writes` says that it writes a
  number of nanoseconds in seconds;
* `NumberText.Writes.float` : how far a literal is from the binary fraction that it is read as;
* `Settings.duration_of_writes` : a literal is read as its nanoseconds;
* `Settings.Span.Sets` says that a text of settings gives one span more than another text, and
  `Settings.Span.Extends` the same of the records that are read from them;
* `Settings.spans_exact` : what becomes of such settings.

The proof: the digits of the literal and the power of ten that divides them are binary fractions
themselves, so that only the quotient is rounded.  Below `2 ^ 23` half a unit in its last place is
`2 ^ (-31)` seconds, less than half a nanosecond, and the nearest number of nanoseconds is the one
that was written.  What a record takes up is described member by member, and item by item for
lists: one value more among the others changes what is looked up under its own name only.
-/

namespace BearerAuth

open Json Number

/-! ### Decimal literals -/

namespace Json.NumberText

/-- The digits after the point. -/
def fractionChars (n : NumberText) : List Char := n.fraction.elim [] Digits.chars

/-- The digits as a natural number, whatever the point. -/
def significand (n : NumberText) : Nat := Nat.ofDigitChars 10 (n.whole.chars ++ n.fractionChars) 0

/-- The value of a number that has no exponent. -/
def decimal (n : NumberText) : ℚ :=
  (if n.negative then -1 else 1) * (n.significand / 10 ^ n.fractionChars.length)

/-- A literal writes a number of nanoseconds in seconds: it has no exponent and at most nine digits
after the point, and is worth exactly as much. -/
structure Writes (n : NumberText) (nanos : Nat) : Prop where
  /-- It has no exponent. -/
  plain : n.exponent = none
  /-- There are at most nine digits after the point. -/
  short : n.fractionChars.length ≤ 9
  /-- It is worth the nanoseconds. -/
  worth : n.decimal = nanos / 10 ^ 9

variable {n : NumberText} {nanos : Nat}

theorem Writes.eq_zero (h : n.Writes nanos) (negative : n.negative = true) :
    nanos = 0 ∧ n.significand = 0 := by
  have worth := h.worth
  rw [decimal, if_pos negative] at worth
  have positive : (0 : ℚ) ≤ n.significand / 10 ^ n.fractionChars.length := by positivity
  have positive' : (0 : ℚ) ≤ nanos / 10 ^ 9 := by positivity
  have none : (nanos : ℚ) / 10 ^ 9 = 0 := by linarith
  have none' : (n.significand : ℚ) / 10 ^ n.fractionChars.length = 0 := by linarith
  rw [div_eq_zero_iff, or_iff_left (by positivity), Nat.cast_eq_zero] at none none'
  exact ⟨none, none'⟩

theorem Writes.worth_unsigned (h : n.Writes nanos) :
    (n.significand : ℚ) / 10 ^ n.fractionChars.length = nanos / 10 ^ 9 := by
  cases negative : n.negative with
  | false =>
    have worth := h.worth
    rwa [decimal, negative, if_neg Bool.false_ne_true, one_mul] at worth
  | true =>
    obtain ⟨none, none'⟩ := h.eq_zero negative
    rw [none, none', Nat.cast_zero, zero_div, zero_div]

/-- The digits of a literal make no larger number than the nanoseconds. -/
theorem Writes.significand_le (h : n.Writes nanos) : n.significand ≤ nanos := by
  have worth := h.worth_unsigned
  rw [div_eq_div_iff (by positivity) (by positivity)] at worth
  have worth : n.significand * 10 ^ 9 = nanos * 10 ^ n.fractionChars.length := by
    exact_mod_cast worth
  have scale : 10 ^ n.fractionChars.length ≤ 10 ^ 9 := Nat.pow_le_pow_right (by decide) h.short
  refine Nat.le_of_mul_le_mul_right ?_ (show 0 < 10 ^ 9 by decide)
  rw [worth]
  exact Nat.mul_le_mul_left nanos scale

theorem fraction_numeral (n : NumberText) :
    n.numeral.fraction = n.fractionChars.map (·.toNat - 48) := by
  obtain ⟨-, -, -, fraction, -⟩ := n
  cases fraction <;> rfl

theorem absorb_numeral (small : n.significand < Nat.pow 2 64) :
    ∃ whole, absorb 0 n.numeral.whole = (whole, []) ∧
      absorb whole n.numeral.fraction = (n.significand, []) := by
  rw [significand, Nat.ofDigitChars_append] at small ⊢
  rw [fraction_numeral]
  refine ⟨Nat.ofDigitChars 10 n.whole.chars 0, ?_, absorb_digits small⟩
  exact absorb_digits (Nat.lt_of_le_of_lt (le_ofDigitChars _ _) small)

theorem value?_of_whole (small : n.significand < Nat.pow 2 64) (plain : n.exponent = none)
    (whole : n.fraction = none) : n.numeral.value? =
      if !n.negative then some (.natural n.significand)
      else if 0 < n.significand && n.significand ≤ Nat.pow 2 63 then some (.negative n.significand)
      else (Binary64.ofNat? n.significand).map (.real true) := by
  obtain ⟨w, taken, taken'⟩ := absorb_numeral small
  obtain ⟨negative, digits, leading, fraction, exponent⟩ := n
  dsimp only at plain whole
  subst plain whole
  obtain rfl : w = significand ⟨negative, digits, leading, none, none⟩ := congrArg Prod.fst taken'
  simp only [Numeral.value?, taken]
  rfl

theorem value?_of_fraction (small : n.significand < Nat.pow 2 64) (plain : n.exponent = none)
    {digits : Digits} (point : n.fraction = some digits) : n.numeral.value? =
      ((Binary64.ofNat? n.significand).bind (·.scaleTen? (-n.fractionChars.length))).map
        (.real n.negative) := by
  obtain ⟨w, taken, taken'⟩ := absorb_numeral small
  have more : n.numeral.fraction.isEmpty = false := by
    rw [numeral, point]
    rfl
  have length : n.numeral.fraction.length = n.fractionChars.length := by
    rw [fraction_numeral, List.length_map]
  have plain' : n.numeral.exponent = none := by rw [numeral, plain, Option.map_none]
  have real : n.numeral.real? =
      (Binary64.ofNat? n.significand).bind (·.scaleTen? (-n.fractionChars.length)) := by
    simp only [Numeral.real?, taken, taken', plain', length, List.length_nil]
    simp
  simp only [Numeral.value?, taken, more, Bool.false_and, Bool.false_eq_true, if_false, real]
  rfl

/-- **A literal is read within half a unit in the last place.**  Nothing below `2 ^ 23` is further
from what it is read as. -/
theorem Writes.float (h : n.Writes nanos) (range : nanos < 2 ^ 23 * 10 ^ 9) (room : Nat) :
    ∃ x, Reader.float room (.number n.numeral) = .ok (n.negative, x) ∧
      |x.value - nanos / 10 ^ 9| ≤ 2 ^ (-31 : Int) ∧ (n.negative = true → x.isZero = true) := by
  have worth := h.worth_unsigned
  have short : n.significand < 2 ^ 53 := by
    have less := h.significand_le
    omega
  have short' : n.significand < Nat.pow 2 64 := short.trans (by decide)
  cases point : n.fraction with
  | none =>
    have value := value?_of_whole short' h.plain point
    have worth : (n.significand : ℚ) = nanos / 10 ^ 9 := by
      rwa [fractionChars, point, Option.elim_none, List.length_nil, pow_zero, div_one] at worth
    cases negative : n.negative with
    | false =>
      obtain ⟨x, made, exact_⟩ := Binary64.exists_whole short
      refine ⟨x, ?_, ?_, nofun⟩
      · simp only [Reader.float, value, negative, Bool.not_false, if_true, made, Option.elim_some]
      · rw [exact_, worth, sub_self, abs_zero]
        positivity
    | true =>
      obtain ⟨none, none'⟩ := h.eq_zero negative
      refine ⟨.zero, ?_, ?_, fun _ => rfl⟩
      · simp only [Reader.float, value, negative, none']
        rfl
      · rw [none, Binary64.value_zero, Nat.cast_zero, zero_div, sub_zero, abs_zero]
        positivity
  | some digits =>
    have moves : 0 < n.fractionChars.length := by
      rw [fractionChars, point]
      exact Nat.succ_pos _
    have below : (n.significand : ℚ) / 10 ^ n.fractionChars.length < 2 ^ (23 : Int) := by
      rw [worth, div_lt_iff₀ (by positivity)]
      exact_mod_cast range
    obtain ⟨x, scaled, near, zero⟩ := Binary64.exists_scaled short moves
      (h.short.trans (by decide)) below (by decide) (by decide)
    refine ⟨x, ?_, worth ▸ near, fun negative => zero (h.eq_zero negative).2⟩
    simp only [Reader.float, value?_of_fraction short' h.plain point, scaled, Option.map_some]

end Json.NumberText

/-! ### Spans of time -/

/-- What is near a number of nanoseconds is rounded to it. -/
theorem Duration.ofSeconds?_of_near {x : Binary64} {nanos : Nat}
    (near : |x.value - nanos / 10 ^ 9| ≤ 2 ^ (-31 : Int)) (range : nanos < 2 ^ 23 * 10 ^ 9) :
    ofSeconds? x = some ⟨nanos⟩ := by
  obtain ⟨pos, value⟩ := x.toQuotient_value
  rw [ofSeconds?]
  generalize x.toQuotient = q at pos value
  obtain ⟨num, den⟩ := q
  dsimp only at pos value ⊢
  have rounded : nearestEven (num * perSecond) den = nanos := by
    refine nearestEven_eq_of_near pos ?_
    have scaled : ((num * perSecond : Nat) : ℚ) / den - nanos =
        (x.value - nanos / 10 ^ 9) * 10 ^ 9 := by
      rw [← value, perSecond]
      push_cast
      ring
    calc |((num * perSecond : Nat) : ℚ) / den - nanos|
      _ = |x.value - nanos / 10 ^ 9| * 10 ^ 9 := by
        rw [scaled, abs_mul, abs_of_pos (show (0 : ℚ) < 10 ^ 9 by norm_num)]
      _ ≤ 2 ^ (-31 : Int) * 10 ^ 9 := by gcongr
      _ < 1 / 2 := by norm_num
  have inside : (⟨nanos⟩ : Duration).secs < Nat.pow 2 64 := by
    change nanos / 1000000000 < 2 ^ 64
    omega
  rw [rounded, if_pos inside]

namespace Settings

variable {n : NumberText} {nanos room : Nat} {d d₀ : Duration} {node : Node} {given given' : Given}

/-- **A literal of a number of seconds is read as its exact number of nanoseconds.** -/
theorem duration_of_writes (h : n.Writes nanos) (range : nanos < 2 ^ 23 * 10 ^ 9) (room : Nat) :
    duration room (.number n.numeral) = .ok ⟨nanos⟩ := by
  obtain ⟨x, read, near, zero⟩ := h.float range room
  have rounded := Duration.ofSeconds?_of_near near range
  have unsigned : (n.negative && !x.isZero) = false := by
    cases negative : n.negative with
    | false => rfl
    | true => rw [zero negative]; rfl
  simp only [duration, read, bind, Except.bind, unsigned, Bool.false_eq_true, if_false, rounded]
  rfl

/-- A span of time among settings. -/
inductive Span where
  /-- The time between scheduled refreshes. -/
  | interval
  /-- The least time between two attempts. -/
  | rateLimit
  /-- The longest duration of one fetch. -/
  | timeout
  /-- How long a token is still accepted after it has expired. -/
  | leeway

namespace Span

/-- The name of the field. -/
def name : Span → String
  | interval => "refresh_interval_secs"
  | rateLimit => "rate_limit_interval_secs"
  | timeout => "refresh_timeout_secs"
  | leeway => "leeway_secs"

/-- The span of some settings. -/
def get : Span → Settings → Duration
  | interval, s => s.refresh.interval
  | rateLimit, s => s.refresh.rateLimit
  | timeout, s => s.refresh.timeout
  | leeway, s => s.leeway

/-- Settings with another span. -/
def set : Span → Settings → Duration → Settings
  | interval => withRefreshInterval
  | rateLimit => withRateLimit
  | timeout => withRefreshTimeout
  | leeway => withLeeway

/-- The span where none is given. -/
def standard : Span → Duration
  | interval => RefreshOptions.standard.interval
  | rateLimit => RefreshOptions.standard.rateLimit
  | timeout => RefreshOptions.standard.timeout
  | leeway => .zero

@[simp] theorem get_set (f : Span) (s : Settings) (d : Duration) : f.get (f.set s d) = d := by
  cases f <;> rfl

/-- Only the value that is given for a span decides it. -/
theorem ofGiven_set (f : Span) (read : duration room node = .ok d)
    (states : given'.lookup f.name = some node)
    (others : ∀ name, name ≠ f.name → given'.lookup name = given.lookup name)
    (fine : given.getD room f.name duration f.standard = .ok d₀) :
    ofGiven room given' = (ofGiven room given).map (f.set · d) := by
  have own : given'.getD room f.name duration f.standard = .ok d := by
    rw [Given.getD, states]
    exact read
  have same {α : Type} (name : String) (other : name ≠ f.name) (reader : Reader α) (default : α) :
      given'.getD room name reader default = given.getD room name reader default := by
    rw [Given.getD, Given.getD, others name other]
  have same' {α : Type} (name : String) (other : name ≠ f.name) (reader : Reader α) :
      given'.get room name reader = given.get room name reader := by
    rw [Given.get, Given.get, others name other]
  have mapped {α β γ : Type} (x : Except Fault α) (k : α → Except Fault β) (g : β → γ) :
      (x >>= k).map g = x >>= fun a => (k a).map g := by
    cases x <;> rfl
  have known {α β : Type} (a : α) (k : α → Except Fault β) : (Except.ok a >>= k) = k a := rfl
  cases f
  all_goals
    simp only [name, standard] at own fine same same'
    simp only [ofGiven, own, fine, same, same', mapped, known, ne_eq, String.reduceEq,
      not_false_eq_true]
    rfl

end Span

end Settings

/-! ### Records with one value more -/

namespace Json.Record

variable {fields : List Field} {room : Nat} {out : Given}

/-- The values that some members give. -/
def taken (fields : List Field) (members : List (RawString × Node)) : Given :=
  members.filterMap (giving? fields)

/-- A member that stands for a field of its own is taken up beside the others. -/
theorem ofMembers_between {before after : List (RawString × Node)} {raw : RawString} {s : String}
    {f : Field} {node : Node} (read : raw.read = .ok s) (found : field? fields s = some f)
    (accepted : f.accepts room node = .ok ())
    (once : f.name ∉ (taken fields (before ++ after)).map (·.1)) :
    ofMembers fields room [] (before ++ (raw, node) :: after) = .ok out ↔
      ofMembers fields room [] (before ++ after) = .ok (taken fields before ++ taken fields after) ∧
        out = taken fields before ++ (f.name, node) :: taken fields after := by
  have gives : giving? fields (raw, node) = some (f.name, node) := by
    rw [giving?_eq read, found, Option.map_some]
  have suits : Suits fields room (raw, node) := by
    rw [suits_iff read, Fits, found]
    exact accepted
  unfold taken at once ⊢
  rw [List.filterMap_append] at once
  have apart : (((before.filterMap (giving? fields) ++ (f.name, node) ::
        after.filterMap (giving? fields) : Given)).map (·.1)).Nodup ↔
      ((before.filterMap (giving? fields) ++
        after.filterMap (giving? fields)).map (·.1)).Nodup := by
    rw [List.map_append, List.map_cons, List.nodup_middle, ← List.map_append, List.nodup_cons]
    exact and_iff_right once
  have each : (∀ m ∈ before ++ (raw, node) :: after, Suits fields room m) ↔
      ∀ m ∈ before ++ after, Suits fields room m := by
    rw [List.forall_mem_append, List.forall_mem_cons, and_iff_right suits, ← List.forall_mem_append]
  rw [ofMembers_eq_ok_iff, ofMembers_eq_ok_iff, List.filterMap_append, List.filterMap_append,
    List.filterMap_cons_some gives, apart, each]
  simp [and_assoc, eq_comm]

/-- The values that some items give, each for the field of its place. -/
def placed (fields : List Field) (items : List Node) : Given :=
  (fields.zip items).map fun p => (p.1.name, p.2)

/-- **What a record takes up from a list**: no more items than it has fields, each of which suits
its field. -/
theorem ofItems_eq_ok_iff {items : List Node} : ofItems room none fields items = .ok out ↔
    items.length ≤ fields.length ∧ (∀ p ∈ fields.zip items, p.1.accepts room p.2 = .ok ()) ∧
      out = placed fields items := by
  induction fields generalizing items out with
  | nil =>
    cases items with
    | nil => simp [ofItems, Reader.leave, placed, eq_comm]
    | cons node items => simp [ofItems]
  | cons f fields ih =>
    cases items with
    | nil => simp [ofItems, Reader.leave, placed, eq_comm]
    | cons node items =>
      rw [ofItems, placed, List.zip_cons_cons, List.forall_mem_cons, List.map_cons,
        List.length_cons, List.length_cons, Nat.add_le_add_iff_right]
      cases accepted : f.accepts room node with
      | error fault => simp [bind, Except.bind]
      | ok =>
        constructor
        · intro read
          obtain ⟨given, others, rfl⟩ := map_eq_ok read
          obtain ⟨short, each, rfl⟩ := ih.1 others
          exact ⟨short, ⟨rfl, each⟩, rfl⟩
        · rintro ⟨short, ⟨-, each⟩, rfl⟩
          simp only [ih.2 ⟨short, each, rfl⟩, bind, Except.bind]
          rfl

/-- An item that suits the field of its place is taken up beside the others, whatever else could
stand there. -/
theorem ofItems_between {front back : List Field} {f : Field} {before after : List Node}
    {node node₀ : Node} (place : before.length = front.length)
    (accepted : f.accepts room node = .ok ()) (accepted₀ : f.accepts room node₀ = .ok ()) :
    ofItems room none (front ++ f :: back) (before ++ node :: after) = .ok out ↔
      ofItems room none (front ++ f :: back) (before ++ node₀ :: after) =
          .ok (placed front before ++ (f.name, node₀) :: placed back after) ∧
        out = placed front before ++ (f.name, node) :: placed back after := by
  have zip (x : Node) : (front ++ f :: back).zip (before ++ x :: after) =
      front.zip before ++ (f, x) :: back.zip after := by
    rw [List.zip_append place.symm, List.zip_cons_cons]
  have gives (x : Node) : placed (front ++ f :: back) (before ++ x :: after) =
      placed front before ++ (f.name, x) :: placed back after := by
    rw [placed, zip, List.map_append, List.map_cons]
    rfl
  have length : (before ++ node :: after).length = (before ++ node₀ :: after).length := by simp
  rw [ofItems_eq_ok_iff, ofItems_eq_ok_iff, gives, gives, zip, zip, length]
  simp only [List.forall_mem_append, List.forall_mem_cons, accepted, accepted₀]
  simp [and_assoc]

/-- A place gives nothing for a name that its field does not have. -/
theorem lookup_placed {front : List Field} {name : String} (before : List Node)
    (other : name ∉ front.map (·.name)) : (placed front before).lookup name = none := by
  refine lookup_eq_none fun there => other ?_
  obtain ⟨g, given, named⟩ := List.mem_map.1 there
  obtain ⟨⟨f, node⟩, pair, rfl⟩ := List.mem_map.1 given
  exact List.mem_map.2 ⟨f, (List.of_mem_zip pair).1, named⟩

end Json.Record

namespace Settings

variable {n : NumberText} {nanos : Nat} {s : Settings} {given given' : Given} {a b : Source}
  {f : Span} {node : Node} {d d₀ : Duration}

/-! ### Settings with a span -/

theorem ofString_eq_ok_iff (source : Source) (layout : Layout) :
    ofString (source.text layout) = .ok s ↔ ∃ given,
      Record.members fields maxDepth source.node = .ok given ∧
        ofGiven (maxDepth - 1) given = .ok s := by
  rw [ofString, Source.document_text, Document.read]
  cases opened : Record.members fields maxDepth source.node with
  | error fault => simp [reader, opened, bind, Except.bind]
  | ok given =>
    simp only [reader, opened, bind, Except.bind]
    cases stated : ofGiven (maxDepth - 1) given <;> simp [stated]

namespace Span

/-- The place of the field among the items of a list. -/
def place : Span → Nat
  | interval => 4
  | rateLimit => 5
  | timeout => 6
  | leeway => 8

/-- The field. -/
def field (f : Span) : Field := ⟨f.name, [], Reader.check duration⟩

theorem fields_eq (f : Span) :
    fields = fields.take f.place ++ f.field :: fields.drop (f.place + 1) := by
  cases f <;> rfl

theorem not_mem_take (f : Span) : f.name ∉ (fields.take f.place).map (·.name) := by
  cases f <;> decide

theorem field?_name (f : Span) : Record.field? fields f.name = some f.field := by
  cases f <;> rfl

theorem name_of_field? {name : String} {g : Field} (found : Record.field? fields name = some g) :
    g.name = name := by
  have own := List.find?_some found
  have single : fields.all (·.aliases.isEmpty) = true := rfl
  have none := List.all_eq_true.1 single g (List.mem_of_find?_eq_some found)
  rw [List.isEmpty_iff.1 none] at own
  simpa using own

variable (f node) in
/-- Of two lists of values, the second has some value for the span, and the first has none, or one
that can be read; all else is the same. -/
structure Puts (given given' : Given) : Prop where
  /-- The second has the value. -/
  states : given'.lookup f.name = some node
  /-- All other values are the same. -/
  others : ∀ name, name ≠ f.name → given'.lookup name = given.lookup name
  /-- The first has none or one that can be read. -/
  fine : ∃ d₀, given.getD (maxDepth - 1) f.name duration f.standard = .ok d₀

theorem puts_between {before after : Given} (fresh : before.lookup f.name = none)
    (rest : given = before ++ after ∧ after.lookup f.name = none ∨
      ∃ node₀ d₀, given = before ++ (f.name, node₀) :: after ∧
        duration (maxDepth - 1) node₀ = .ok d₀) :
    f.Puts node given (before ++ (f.name, node) :: after) where
  states := by rw [Record.lookup_between _ _ _ _ _ fresh, if_pos rfl]
  others := by
    intro name other
    rcases rest with ⟨rfl, -⟩ | ⟨node₀, d₀, rfl, -⟩
    · rw [Record.lookup_between _ _ _ _ _ fresh, if_neg other]
    · rw [Record.lookup_between _ _ _ _ _ fresh, Record.lookup_between _ _ _ _ _ fresh,
        if_neg other, if_neg other]
  fine := by
    rcases rest with ⟨rfl, none⟩ | ⟨node₀, d₀, rfl, read⟩
    · refine ⟨f.standard, ?_⟩
      rw [Given.getD, List.lookup_append, fresh, none]
      rfl
    · refine ⟨d₀, ?_⟩
      rw [Given.getD, Record.lookup_between _ _ _ _ _ fresh, if_pos rfl]
      exact read

/-- Settings with a span written as a literal, and what they are compared with: the same settings
without the span, or, where the fields go by their places, with another literal. -/
inductive Sets (f : Span) (n : NumberText) : Source → Source → Prop where
  /-- A member of an object, of which no other has the name. -/
  | member (before after : List (StringText × Source)) {text : StringText} (named : text.Is f.name)
    (once : ∀ m ∈ before ++ after, ¬ m.1.Is f.name) :
    Sets f n (.object (before ++ after)) (.object (before ++ (text, .number n) :: after))
  /-- An item of a list. -/
  | item (before after : List Source) (place : before.length = f.place) {n₀ : NumberText}
    {nanos₀ : Nat} (writes : n₀.Writes nanos₀) (range : nanos₀ < 2 ^ 23 * 10 ^ 9) :
    Sets f n (.list (before ++ .number n₀ :: after)) (.list (before ++ .number n :: after))

theorem nodes_eq (items : List Source) : Source.nodes items = items.map Source.node := by
  induction items with
  | nil => rfl
  | cons item items ih => rw [Source.nodes, ih, List.map_cons]

theorem not_mem_taken {members : List (StringText × Source)}
    (once : ∀ m ∈ members, ¬ m.1.Is f.name) :
    f.name ∉ (Record.taken fields (Source.memberNodes members)).map (·.1) := by
  intro there
  obtain ⟨g, mem, named⟩ := List.mem_map.1 there
  obtain ⟨m, hm, gives⟩ := List.mem_filterMap.1 mem
  rw [Source.memberNodes_eq] at hm
  obtain ⟨member, among, rfl⟩ := List.mem_map.1 hm
  obtain ⟨field, found, rfl⟩ := Option.map_eq_some_iff.1 gives
  obtain ⟨name, read, found⟩ := Option.bind_eq_some_iff.1 found
  obtain rfl : name = f.name := (name_of_field? found).symm.trans named
  exact once member among (StringText.read_eq_ok_iff.1 (eq_ok_of_toOption read))

variable (f node) in
/-- Of two records, the second has some value for the span among the same others: whatever is taken
up from one is taken up from the other, but for this value. -/
structure Extends (a b : Node) : Prop where
  /-- What is taken up with the value is taken up without. -/
  without : ∀ given', Record.members fields maxDepth b = .ok given' →
    ∃ given, Record.members fields maxDepth a = .ok given ∧ f.Puts node given given'
  /-- What is taken up without the value is taken up with it. -/
  within : ∀ given, Record.members fields maxDepth a = .ok given →
    ∃ given', Record.members fields maxDepth b = .ok given' ∧ f.Puts node given given'

theorem accepts_of_duration (f : Span) (read : duration (maxDepth - 1) node = .ok d) :
    f.field.accepts (maxDepth - 1) node = .ok () := by
  change (duration (maxDepth - 1) node).map _ = _
  rw [read]
  rfl

theorem extends_member {before after : List (StringText × Source)} {text : StringText}
    (named : text.Is f.name) (once : ∀ m ∈ before ++ after, ¬ m.1.Is f.name)
    (read : duration (maxDepth - 1) (.number n.numeral) = .ok d) :
    f.Extends (.number n.numeral) (Source.object (before ++ after)).node
      (Source.object (before ++ (text, .number n) :: after)).node := by
  have fresh := not_mem_taken once
  have opened (ms : List (RawString × Node)) : Record.members fields maxDepth (.object ms none) =
      Record.ofMembers fields (maxDepth - 1) [] ms := Record.members_object ..
  have split : Source.memberNodes (before ++ after) =
      Source.memberNodes before ++ Source.memberNodes after := by
    simp only [Source.memberNodes_eq, List.map_append]
  have split' : Source.memberNodes (before ++ (text, .number n) :: after) =
      Source.memberNodes before ++ (text.raw, .number n.numeral) :: Source.memberNodes after := by
    simp only [Source.memberNodes_eq, List.map_append, List.map_cons, Source.node]
  rw [split] at fresh
  simp only [Source.node, split, split']
  generalize Source.memberNodes before = before at fresh
  generalize Source.memberNodes after = after at fresh
  have opens (given' : Given) : Record.ofMembers fields (maxDepth - 1) [] _ = .ok given' ↔ _ :=
    Record.ofMembers_between named.read (field?_name f) (f.accepts_of_duration read) fresh
  have apart : f.name ∉ (Record.taken fields before).map (·.1) ∧
      f.name ∉ (Record.taken fields after).map (·.1) := by
    rwa [Record.taken, List.filterMap_append, List.map_append, List.mem_append, not_or] at fresh
  have front := Record.lookup_eq_none apart.1
  have back := Record.lookup_eq_none apart.2
  constructor
  · intro given' read
    rw [opened] at read ⊢
    obtain ⟨read₀, rfl⟩ := (opens given').1 read
    exact ⟨_, read₀, puts_between front (.inl ⟨rfl, back⟩)⟩
  · intro given read
    rw [opened] at read ⊢
    obtain rfl : Record.taken fields before ++ Record.taken fields after = given := by
      obtain ⟨-, -, -, rfl⟩ := Record.ofMembers_eq_ok_iff.1 read
      rw [List.reverse_nil, List.nil_append, List.filterMap_append]
      rfl
    exact ⟨_, (opens _).2 ⟨read, rfl⟩, puts_between front (.inl ⟨rfl, back⟩)⟩

theorem extends_item {before after : List Source} (place : before.length = f.place)
    {n₀ : NumberText} (read : duration (maxDepth - 1) (.number n.numeral) = .ok d)
    (read₀ : duration (maxDepth - 1) (.number n₀.numeral) = .ok d₀) :
    f.Extends (.number n.numeral) (Source.list (before ++ .number n₀ :: after)).node
      (Source.list (before ++ .number n :: after)).node := by
  have opened (items : List Node) : Record.members fields maxDepth (.list items none) =
      Record.ofItems (maxDepth - 1) none fields items := rfl
  have split (n : NumberText) : Source.nodes (before ++ .number n :: after) =
      Source.nodes before ++ .number n.numeral :: Source.nodes after := by
    simp only [nodes_eq, List.map_append, List.map_cons, Source.node]
  have place' : (Source.nodes before).length = (fields.take f.place).length := by
    rw [nodes_eq, List.length_map, place]
    cases f <;> rfl
  have accepted := f.accepts_of_duration read
  have accepted₀ := f.accepts_of_duration read₀
  have front := Record.lookup_placed (Source.nodes before) f.not_mem_take
  simp only [Source.node, split]
  constructor
  · intro given' read
    rw [opened, f.fields_eq] at read ⊢
    obtain ⟨read', rfl⟩ := (Record.ofItems_between place' accepted accepted₀).1 read
    exact ⟨_, read', puts_between front (.inr ⟨_, _, rfl, read₀⟩)⟩
  · intro given read
    rw [opened, f.fields_eq] at read ⊢
    obtain ⟨-, rfl⟩ := (Record.ofItems_between place' accepted₀ accepted₀).1 read
    exact ⟨_, (Record.ofItems_between place' accepted accepted₀).2 ⟨read, rfl⟩,
      puts_between front (.inr ⟨_, _, rfl, read₀⟩)⟩

/-- Settings with a literal for a span are read if they are read without, and have the span. -/
theorem Sets.ofString_eq_ok_iff (h : f.Sets n a b) (writes : n.Writes nanos)
    (range : nanos < 2 ^ 23 * 10 ^ 9) (layout layout' : Layout) (s : Settings) :
    ofString (b.text layout') = .ok s ↔
      ∃ s₀, ofString (a.text layout) = .ok s₀ ∧ s = f.set s₀ ⟨nanos⟩ := by
  have read := duration_of_writes writes range (maxDepth - 1)
  have both : f.Extends (.number n.numeral) a.node b.node := by
    cases h with
    | member _ _ named once => exact extends_member named once read
    | item _ _ place writes₀ range₀ =>
      exact extends_item place read (duration_of_writes writes₀ range₀ _)
  constructor
  · intro stated
    obtain ⟨given', opened', states'⟩ := (Settings.ofString_eq_ok_iff b layout').1 stated
    obtain ⟨given, opened, puts⟩ := both.without given' opened'
    obtain ⟨d₀, fine⟩ := puts.fine
    rw [f.ofGiven_set read puts.states puts.others fine] at states'
    obtain ⟨s₀, states, rfl⟩ := map_eq_ok states'
    exact ⟨s₀, (Settings.ofString_eq_ok_iff a layout).2 ⟨given, opened, states⟩, rfl⟩
  · rintro ⟨s₀, stated, rfl⟩
    obtain ⟨given, opened, states⟩ := (Settings.ofString_eq_ok_iff a layout).1 stated
    obtain ⟨given', opened', puts⟩ := both.within given opened
    obtain ⟨d₀, fine⟩ := puts.fine
    refine (Settings.ofString_eq_ok_iff b layout').2 ⟨given', opened', ?_⟩
    rw [f.ofGiven_set read puts.states puts.others fine, states]
    rfl

end Span

/-! ### The spans of settings -/

/-- **Spans of time are read exactly.**  A literal without exponent and with at most nine digits
after the point, which is worth a whole number of nanoseconds below `2 ^ 23` seconds, may be written
for any of the spans.  Then settings are read if they are read without it, or with another such
literal in its place, and the span is exactly as long as written; nothing else changes.  So only
what is worth nothing is read as no time, and as a rate limit or a timeout that is refused. -/
theorem spans_exact (f : Span) (n : NumberText) (nanos : Nat) (writes : n.Writes nanos)
    (range : nanos < 2 ^ 23 * 10 ^ 9) :
    (∀ a b, f.Sets n a b → ∀ layout layout' s, ofString (b.text layout') = .ok s ↔
      ∃ s₀, ofString (a.text layout) = .ok s₀ ∧ s = f.set s₀ ⟨nanos⟩) ∧
    ∀ a b, f.Sets n a b → ∀ layout s, ofString (b.text layout) = .ok s →
      f.get s = ⟨nanos⟩ ∧ (f.get s = .zero ↔ n.decimal = 0) ∧
        (n.decimal = 0 → f = .rateLimit ∨ f = .timeout →
          ∃ why, s.validate = .error (.setup why)) := by
  refine ⟨fun a b sets layout layout' s => sets.ofString_eq_ok_iff writes range layout layout' s,
    fun a b sets layout s stated => ?_⟩
  obtain ⟨s₀, -, rfl⟩ := (sets.ofString_eq_ok_iff writes range layout layout s).1 stated
  have nothing : n.decimal = 0 ↔ nanos = 0 := by
    rw [writes.worth, div_eq_zero_iff, or_iff_left (by positivity), Nat.cast_eq_zero]
  refine ⟨f.get_set s₀ _, ?_, fun none refused => ?_⟩
  · rw [f.get_set, nothing, Duration.zero, Duration.mk.injEq]
  · rw [nothing.1 none]
    rcases validate_cases (f.set s₀ ⟨0⟩) with ⟨-, runs⟩ | ⟨text, invalid, -⟩
    · rcases refused with rfl | rfl
      · exact absurd rfl runs.rateLimit
      · exact absurd rfl runs.timeout
    · exact ⟨text, invalid⟩

/-- The members `"issuer_url":"i","audience":"app"`. -/
def sampleMembers : List (StringText × Source) :=
  [(Claims.unescaped "issuer_url" (by decide), .string (Claims.unescaped "i" (by decide))),
    (Claims.unescaped "audience" (by decide), .string (Claims.unescaped "app" (by decide)))]

theorem sampleMembers_other (f : Span) : ∀ m ∈ sampleMembers ++ [], ¬ m.1.Is f.name := by
  have named {s : String} (free : Claims.Free s.toList)
      (same : (Claims.unescaped s free).Is f.name) : s = f.name :=
    Except.ok.inj ((Claims.unescaped_is s free).read.symm.trans same.read)
  rw [List.append_nil, sampleMembers]
  refine List.forall_mem_cons.2 ⟨fun same => ?_, List.forall_mem_singleton.2 fun same => ?_⟩
  all_goals exact absurd (named _ same) (by cases f <;> decide)

/-- The largest literal of nine digits below `2 ^ 23`. -/
def largestLiteral : NumberText where
  negative := false
  whole := ⟨⟨'8', rfl⟩, [⟨'3', rfl⟩, ⟨'8', rfl⟩, ⟨'8', rfl⟩, ⟨'6', rfl⟩, ⟨'0', rfl⟩, ⟨'7', rfl⟩]⟩
  plain := nofun
  fraction := some ⟨⟨'9', rfl⟩, List.replicate 8 ⟨'9', rfl⟩⟩
  exponent := none

/-- The literal `-0.0`. -/
def zeroLiteral : NumberText where
  negative := true
  whole := ⟨⟨'0', rfl⟩, []⟩
  plain _ := rfl
  fraction := some ⟨⟨'0', rfl⟩, []⟩
  exponent := none

theorem writes_largestLiteral : largestLiteral.Writes 8388607999999999 where
  plain := rfl
  short := by decide
  worth := by
    have digits : largestLiteral.significand = 8388607999999999 := by decide
    rw [NumberText.decimal, digits]
    norm_num [largestLiteral, NumberText.fractionChars, Digits.chars]

theorem writes_zeroLiteral : zeroLiteral.Writes 0 where
  plain := rfl
  short := by decide
  worth := by
    have digits : zeroLiteral.significand = 0 := by decide
    rw [NumberText.decimal, digits]
    simp

/-- The leeway is read to the nanosecond where half a unit in the last place is almost half of one;
a timeout of zero is refused. -/
theorem spans_exact_largestLiteral :
    (∃ s, ofString ("\x7b\"issuer_url\":\"i\",\"audience\":\"app\"," ++
        "\"leeway_secs\":8388607.999999999\x7d") = .ok s ∧
      s.leeway = ⟨8388607999999999⟩) ∧
    ∃ s why, ofString ("\x7b\"issuer_url\":\"i\",\"audience\":\"app\"," ++
        "\"refresh_timeout_secs\":-0.0\x7d") = .ok s ∧
      s.refresh.timeout = .zero ∧ s.validate = .error (.setup why) := by
  obtain ⟨s₀, read⟩ : ∃ s₀,
      ofString ((Source.object (sampleMembers ++ [])).text Claims.dense) = .ok s₀ := by
    rw [ofString, Source.document_text]
    exact ⟨_, rfl⟩
  obtain ⟨settled, spans⟩ := spans_exact .leeway largestLiteral 8388607999999999
    writes_largestLiteral (by decide)
  obtain ⟨settled', spans'⟩ := spans_exact .timeout zeroLiteral 0 writes_zeroLiteral (by decide)
  have sets := Span.Sets.member (f := .leeway) (n := largestLiteral) sampleMembers []
    (Claims.unescaped_is "leeway_secs" (by decide)) (sampleMembers_other .leeway)
  have sets' := Span.Sets.member (f := .timeout) (n := zeroLiteral) sampleMembers []
    (Claims.unescaped_is "refresh_timeout_secs" (by decide)) (sampleMembers_other .timeout)
  have states := (settled _ _ sets Claims.dense Claims.dense _).2 ⟨s₀, read, rfl⟩
  have states' := (settled' _ _ sets' Claims.dense Claims.dense _).2 ⟨s₀, read, rfl⟩
  obtain ⟨length, -⟩ := spans _ _ sets Claims.dense _ states
  obtain ⟨-, zero, refused⟩ := spans' _ _ sets' Claims.dense _ states'
  have nothing : zeroLiteral.decimal = 0 := by
    rw [writes_zeroLiteral.worth, Nat.cast_zero, zero_div]
  obtain ⟨why, invalid⟩ := refused nothing (.inr rfl)
  exact ⟨⟨_, states, length⟩, _, why, states', zero.2 nothing, invalid⟩

end Settings

end BearerAuth
