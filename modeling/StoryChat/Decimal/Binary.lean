/-
Binary floating point numbers as exact fractions.

A finite `Float` is `± m · 2^q` for natural `m`, and everything exact that is done with
one, finding its shortest digits or rounding it to nanoseconds, is done on `m` and `q`
in unbounded arithmetic. This file takes the number apart (`shape`), and holds the one
rounding rule used on such fractions (`nearestEven`).
-/

set_option autoImplicit false

namespace StoryChat.Decimal

/-- What a floating point number is. -/
inductive Shape where
  /-- No number. -/
  | nan
  /-- An infinity. -/
  | infinite (negative : Bool)
  /-- `significand · 2 ^ exponent`, with a sign that zero has too. -/
  | finite (negative : Bool) (significand : Nat) (exponent : Int)
  deriving DecidableEq

/-- The bit above a fraction of fifty-two bits, which a number does not store. -/
def hiddenBit : Nat := 4503599627370496

/-- The parts of a number, read off its bits: a sign, eleven bits of exponent
and fifty-two of fraction. The exponent zero has no hidden bit. -/
def shape (x : Float) : Shape :=
  let bits := x.toBits.toNat
  let negative := bits / 9223372036854775808 % 2 == 1
  let exponent := bits / hiddenBit % 2048
  let fraction := bits % hiddenBit
  if exponent = 2047 then
    if fraction = 0 then .infinite negative else .nan
  else if exponent = 0 then .finite negative fraction (-1074)
  else .finite negative (hiddenBit + fraction) (Int.ofNat exponent - 1075)

/-- Whether a number is finite (`f64::is_finite`). -/
def isFinite (x : Float) : Bool :=
  match shape x with
  | .finite .. => true
  | _ => false

/-- `2 ^ q` as a numerator over a denominator. -/
def powerOfTwo (q : Int) : Nat × Nat := (Nat.pow 2 q.toNat, Nat.pow 2 (-q).toNat)

/-- `num / den` to the nearest whole number, a half to the even neighbour. -/
def nearestEven (num den : Nat) : Nat :=
  let whole := num / den
  let rest := num % den
  if 2 * rest < den then whole
  else if den < 2 * rest then whole + 1
  else whole + whole % 2

/-- The number nearest to `significand · 10 ^ exponent`. Far outside the range
of the format the answer is known without the power: more than 310 digits before
the point are infinite, and fewer than 330 zeros behind it are needed for the
least positive number. -/
def nearest (significand : Nat) (exponent : Int) : Float :=
  if significand = 0 then 0
  else
    let top : Int := (Nat.log2 significand : Int) * 3 / 10 + exponent
    if 400 < top then Float.ofScientific 1 false 400
    else if top < -450 then 0
    else if 0 ≤ exponent then Float.ofScientific significand false exponent.toNat
    else Float.ofScientific significand true (-exponent).toNat

end StoryChat.Decimal
