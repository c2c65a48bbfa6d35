import BearerAuth.Number.Binary64

/-!
# Spans of time

A span of time is a natural number of nanoseconds.

* `Duration.ofSeconds?` reads a number of seconds, to the nearest nanosecond;
* `Duration.text` writes a span in the largest unit that it reaches.
-/

namespace BearerAuth

/-- A span of time. -/
structure Duration where
  /-- Its length in nanoseconds. -/
  nanos : Nat
  deriving DecidableEq, Repr, Inhabited

namespace Duration

/-- Nanoseconds in a second. -/
def perSecond : Nat := 1000000000

/-- The empty span. -/
def zero : Duration := ⟨0⟩

/-- A span of whole seconds. -/
def ofSecs (n : Nat) : Duration := ⟨n * perSecond⟩

/-- A span of whole milliseconds. -/
def ofMillis (n : Nat) : Duration := ⟨n * 1000000⟩

/-- Whole seconds. -/
def secs (d : Duration) : Nat := d.nanos / perSecond

/-- Nanoseconds beyond the whole seconds. -/
def subsecNanos (d : Duration) : Nat := d.nanos % perSecond

/-- The span is empty. -/
def isZero (d : Duration) : Bool := d.nanos == 0

/-- A number of seconds as a span, to the nearest nanosecond, a half to the even one; `none` if the
whole seconds do not fit in 64 bits. -/
def ofSeconds? (x : Number.Binary64) : Option Duration :=
  let (num, den) := x.toQuotient
  let d : Duration := ⟨Number.nearestEven (num * perSecond) den⟩
  if d.secs < Nat.pow 2 64 then some d else none

/-- The fraction `part / whole`, in digits without trailing zeros; `whole` is a power of ten. -/
def fractionDigits (part : Nat) : Nat → List Nat
  | 0 => []
  | digits + 1 =>
    if part == 0 then []
    else part / Nat.pow 10 digits :: fractionDigits (part % Nat.pow 10 digits) digits

/-- A number with a decimal fraction of at most `digits` places. -/
def decimal (whole part digits : Nat) : String :=
  let fraction := fractionDigits part digits
  if fraction.isEmpty then toString whole
  else toString whole ++ "." ++ String.join (fraction.map toString)

/-- The span in the largest unit that it reaches. -/
def text (d : Duration) : String :=
  if 1000000000 ≤ d.nanos then decimal (d.nanos / 1000000000) (d.nanos % 1000000000) 9 ++ "s"
  else if 1000000 ≤ d.nanos then decimal (d.nanos / 1000000) (d.nanos % 1000000) 6 ++ "ms"
  else if 1000 ≤ d.nanos then decimal (d.nanos / 1000) (d.nanos % 1000) 3 ++ "µs"
  else decimal d.nanos 0 0 ++ "ns"

end Duration

end BearerAuth
