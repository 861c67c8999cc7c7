/-
Spans of time.

A span (`Duration`) is a whole number of nanoseconds, up to a little under 2 ^ 64
seconds. Spans come from numbers of seconds (`ofSeconds?`), and the conversion is exact
arithmetic on the parts of the number: the fraction of a nanosecond is rounded to the
nearest, a half to the even one. What is negative, no number or too long is no span;
what becomes of such a request is for the caller to say.
-/
import StoryChat.Decimal.Binary

set_option autoImplicit false

namespace StoryChat

/-- A span of time (`std::time::Duration`). -/
structure Duration where
  /-- Its length in nanoseconds. -/
  nanos : Nat
  deriving DecidableEq

namespace Duration

open StoryChat.Decimal

/-- No time (`Duration::ZERO`). -/
def zero : Duration := ⟨0⟩

/-- The longest span (`Duration::MAX`). -/
def longest : Duration := ⟨18446744073709551615999999999⟩

/-- The span of `x` seconds (`Duration::try_from_secs_f64`). -/
def ofSeconds? (x : Float) : Option Duration :=
  match shape x with
  | .nan | .infinite _ => none
  | .finite negative m q =>
    let (num, den) := powerOfTwo q
    if negative ∧ m ≠ 0 then none
    else if m * num < 18446744073709551616 * den then
      some ⟨nearestEven (m * num * 1000000000) den⟩
    else none

/-- The span of `x` milliseconds (`Pacer::millis`), none at all where there is no such
span. -/
def ofMillis (x : Float) : Duration := (ofSeconds? (x / 1000.0)).getD zero

/-- A span as a number of seconds (`Duration::as_secs_f64`). -/
def seconds (d : Duration) : Float :=
  Float.ofNat (d.nanos / 1000000000) + Float.ofNat (d.nanos % 1000000000) / 1000000000.0

/-- A span made longer or shorter by a factor (`Pacer::scale`). Only a positive finite factor
leaves anything, and a span that gets too long is the longest. -/
def scale (factor : Float) (d : Duration) : Duration :=
  if isFinite factor ∧ factor > 0.0 then (ofSeconds? (d.seconds * factor)).getD longest
  else zero

/-- How long a clock of milliseconds waits for a span (`tokio::time::sleep`): a begun
millisecond is waited out, and no wait is longer than thirty years of 365 days. -/
def waitMillis (d : Duration) : Nat :=
  min ((d.nanos + 999999) / 1000000) (30 * 365 * 86400 * 1000)

end Duration

end StoryChat
