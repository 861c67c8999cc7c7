/-
From a numeral to the number it means.

A whole numeral without a sign is a count (`toNat?`). Any numeral is a measure
(`toFloat?`), and its value is computed as `serde_json` computes it: the digits are
gathered into a significand of 64 bits, as many as fit, and the significand is converted
and multiplied or divided, once, by a power of ten. This is not always the nearest
number, so the order of the steps matters. A number too large for the format is none,
one too small is zero.
-/
import StoryChat.Decimal.Numeral
import StoryChat.Decimal.Binary

set_option autoImplicit false

namespace StoryChat.Decimal

/-- The largest significand. -/
def significandLimit : Nat := 18446744073709551615

/-- The digits gathered so far: those that fit, and how the power of ten has
moved for those that do not. -/
structure Gathered where
  significand : Nat
  /-- The power of ten that the significand counts. -/
  exponent : Int
  /-- Whether a digit no longer fitted. -/
  full : Bool

/-- Gather a digit of the whole part. Once one does not fit, it and all later
ones only raise the power of ten. -/
def Gathered.takeWhole (g : Gathered) (d : Digit) : Gathered :=
  if g.full then { g with exponent := g.exponent + 1 }
  else if 10 * g.significand + d.val ≤ significandLimit then
    { g with significand := 10 * g.significand + d.val }
  else { g with exponent := g.exponent + 1, full := true }

/-- Gather a digit of the fraction. Once one does not fit, it and all later ones
are dropped. -/
def Gathered.takeFraction (g : Gathered) (d : Digit) : Gathered :=
  if g.full then g
  else if 10 * g.significand + d.val ≤ significandLimit then
    { g with significand := 10 * g.significand + d.val, exponent := g.exponent - 1 }
  else { g with full := true }

/-- `x · 10 ^ exponent` by one multiplication or division. Below the table of
powers the number is first brought up in steps of `10 ^ 308`, until the power is
in the table or nothing is left. -/
def scaleByPower : Nat → Float → Int → Option Float
  | steps, x, exponent =>
    if -308 ≤ exponent ∧ exponent ≤ 308 then
      let power := Float.ofScientific 1 false exponent.natAbs
      if 0 ≤ exponent then
        let y := x * power
        if isFinite y then some y else none
      else some (x / power)
    else if x == 0 then some x
    else if 0 ≤ exponent then none
    else match steps with
      | 0 => some 0
      | steps + 1 => scaleByPower steps (x / Float.ofScientific 1 false 308) (exponent + 308)

namespace Numeral

/-- The number a numeral stands for, if it is within the range of the format, as `serde_json`
reads an `f64`. A whole numeral within 64 bits is converted as it is. -/
def toFloat? (n : Numeral) : Option Float :=
  let whole := n.whole.foldl Gathered.takeWhole ⟨0, 0, false⟩
  let magnitude :=
    if n.fraction = [] ∧ n.exponent = none ∧ whole.full = false then
      some (Float.ofNat whole.significand)
    else
      let g := n.fraction.foldl Gathered.takeFraction { whole with full := false }
      scaleByPower 3 (Float.ofNat g.significand) (g.exponent + n.exponent.getD 0)
  magnitude.map fun x => if n.negative then -x else x

/-- The count a numeral stands for: only a whole numeral without a sign is one. -/
def toNat? (n : Numeral) : Option Nat :=
  if n.negative = false ∧ n.fraction = [] ∧ n.exponent = none then some (value n.whole)
  else none

end Numeral

end StoryChat.Decimal
