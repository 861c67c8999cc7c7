/-
Windows that pauses are drawn from.

A pause is a base length and a random extra of less than a given length. The base is
fixed (`DelayWindow`), or it grows with the length of a message between two limits
(`LengthScaled`). Lengths are milliseconds in 64 bits; the product of a length and a
rate is cut off at the largest of them before the limits are applied. Limits that are
crossed, on which `u64::clamp` panics, leave no length at all. The draw is a fraction of
the extra, from zero up to but not including one, and is handed in: this file holds no
source of chance.
-/
import StoryChat.Time.Duration

set_option autoImplicit false

namespace StoryChat

/-- The largest number of milliseconds (`u64::MAX`). -/
def millisLimit : Nat := 18446744073709551615

/-- The extra that a draw takes out of a window (`pacing::jitter`). -/
def extraMillis (jitter : Nat) (draw : Float) : Float :=
  if jitter = 0 then 0.0 else draw * Float.ofNat jitter

/-- A fixed length with an extra (`DelayWindow`). -/
structure Window where
  base : Nat
  jitter : Nat
  deriving DecidableEq

namespace Window

/-- The least length, and the one that is never reached (`DelayWindow::bounds`). Their sum is
one of 64 bits, and wraps around where it does not fit. -/
def bounds (w : Window) : Nat × Nat := (w.base, (w.base + w.jitter) % (millisLimit + 1))

/-- The span that a draw gives (`DelayWindow::sample_ms`, made a span by `Pacer::millis`). -/
def sample (w : Window) (draw : Float) : Duration :=
  .ofMillis (Float.ofNat w.base + extraMillis w.jitter draw)

end Window

/-- A length that grows with the number of characters, with an extra (`LengthScaled`). -/
structure LengthWindow where
  perChar : Nat
  min : Nat
  max : Nat
  jitter : Nat
  deriving DecidableEq

namespace LengthWindow

/-- The length for a number of characters, moved between the limits (`LengthScaled::base_ms`).
Crossed limits leave none. -/
def base? (w : LengthWindow) (chars : Nat) : Option Nat :=
  if w.max < w.min then none
  else some (Nat.max w.min (Nat.min w.max (Nat.min millisLimit (chars * w.perChar))))

/-- The span that a draw gives for a number of characters (`LengthScaled::sample_ms`). -/
def sample? (w : LengthWindow) (chars : Nat) (draw : Float) : Option Duration :=
  (w.base? chars).map fun base => .ofMillis (Float.ofNat base + extraMillis w.jitter draw)

end LengthWindow

end StoryChat
