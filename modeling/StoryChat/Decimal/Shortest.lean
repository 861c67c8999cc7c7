/-
The shortest decimal that reads back.

Many decimals round to a given binary number `m · 2^q`: those in an interval
around it, ends included when `m` is even. The text of a number is the decimal
in this interval with the fewest digits, and of several such the one nearest to
the number. For one, two, three, … digits we look at the two neighbours of the
number on that decimal grid, and stop at the first grid on which one of them
lies in the interval. All of it is natural number arithmetic on numerators over
a common denominator. Where the two neighbours are equally near, the caller
says which one is taken.
-/
import StoryChat.Decimal.Binary

set_option autoImplicit false

namespace StoryChat.Decimal

/-- Which of two equally near decimals is taken. -/
inductive Tie where
  /-- The larger one. -/
  | up
  /-- The one whose last digit is even. -/
  | even
  deriving DecidableEq

/-- `significand · 10 ^ exponent`. -/
structure Scientific where
  /-- The digits. -/
  significand : Nat
  /-- The power of ten they count. -/
  exponent : Int
  deriving DecidableEq

/-- The same decimal without zeros at the end of its significand. -/
def Scientific.normalize (s : Scientific) : Scientific :=
  if h : s.significand ≠ 0 ∧ s.significand % 10 = 0 then
    normalize ⟨s.significand / 10, s.exponent + 1⟩
  else s
termination_by s.significand
decreasing_by omega

/-! ## The interval

In quarters of the last binary place the number is `4 m`, the upper end of its
interval `4 m + 2`, and the lower end `4 m - 2`, or `4 m - 1` where the numbers
below are twice as dense. -/

/-- How far the interval of `m · 2^q` reaches down, in quarters. -/
def reachDown (m : Nat) (q : Int) : Nat := if m = hiddenBit ∧ -1074 < q then 1 else 2

/-- A number and its interval on the grid of `10 ^ k`: the number is
`middle / unit` steps of the grid. -/
structure Grid where
  low : Nat
  middle : Nat
  high : Nat
  unit : Nat
  /-- Whether the ends belong to the interval. -/
  closed : Bool

/-- The grid of `10 ^ k` around `m · 2^q`. -/
def Grid.at (m : Nat) (q : Int) (k : Int) : Grid :=
  let (num, den) := powerOfTwo (q - 2)
  let scale := num * Nat.pow 10 (-k).toNat
  { low := (4 * m - reachDown m q) * scale
    middle := 4 * m * scale
    high := (4 * m + 2) * scale
    unit := den * Nat.pow 10 k.toNat
    closed := m % 2 == 0 }

/-- Whether a point of the grid lies in the interval. -/
def Grid.holds (g : Grid) (c : Nat) : Bool :=
  if g.closed then g.low ≤ c * g.unit && c * g.unit ≤ g.high
  else g.low < c * g.unit && c * g.unit < g.high

/-- The point of the grid to take, if a neighbour of the number lies in the
interval. -/
def Grid.pick? (tie : Tie) (g : Grid) : Option Nat :=
  let below := g.middle / g.unit
  match g.holds below, g.holds (below + 1) with
  | false, false => none
  | true, false => some below
  | false, true => some (below + 1)
  | true, true =>
    let twice := 2 * g.middle
    let half := (2 * below + 1) * g.unit
    if twice < half then some below
    else if half < twice then some (below + 1)
    else match tie with
      | .up => some (below + 1)
      | .even => some (below + below % 2)

/-- The first grid from `10 ^ k` downwards that has a point to take. The last
one tried has all digits that a number can need. -/
def searchGrids (tie : Tie) (m : Nat) (q : Int) : Nat → Int → Scientific
  | 0, k => let g := Grid.at m q k; ⟨g.middle / g.unit, k⟩
  | tries + 1, k =>
    match (Grid.at m q k).pick? tie with
    | some c => ⟨c, k⟩
    | none => searchGrids tie m q tries (k - 1)

/-- The number of decimal digits, none for zero. -/
def countDigits (n : Nat) : Nat :=
  if h : n = 0 then 0 else countDigits (n / 10) + 1
termination_by n
decreasing_by omega

/-- The exponent of the first digit of `m · 2^q`. -/
def leadingExponent (m : Nat) (q : Int) : Int :=
  let (num, den) := powerOfTwo q
  if den ≤ m * num then (countDigits (m * num / den) : Int) - 1
  else -(countDigits ((den - 1) / (m * num)) : Int)

/-- The shortest decimal that reads back as `m · 2^q`, for positive `m`. -/
def shortest (tie : Tie) (m : Nat) (q : Int) : Scientific :=
  (searchGrids tie m q 17 (leadingExponent m q)).normalize

end StoryChat.Decimal
