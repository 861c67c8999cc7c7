/-
How a floating point number is laid out.

Which digits a number has is settled by `shortest`; this file settles where its point
goes. There are two layouts. In running text (`plainText`) a number is positional
whatever its size, and a whole number has no point. In a document (`documentNumeral?`)
it is positional only for decimal exponents from -5 to 15 and scientific beyond them,
and a positional one always has a point, so that it reads as a measure and not as a
count.
-/
import StoryChat.Decimal.Numeral
import StoryChat.Decimal.Shortest

set_option autoImplicit false

namespace StoryChat.Decimal

/-- The digits `ds`, read as `0.ds`, times `10 ^ point`: written with a point. -/
def positional (negative : Bool) (ds : List Digit) (point : Int) : Numeral :=
  if point ≤ 0 then ⟨negative, [.zero], List.replicate (-point).toNat .zero ++ ds, none⟩
  else
    let before := ds.take point.toNat
    ⟨negative, before ++ List.replicate (point.toNat - before.length) .zero,
      ds.drop point.toNat, none⟩

/-- The same with one digit before the point and a power of ten. -/
def scientific (negative : Bool) (ds : List Digit) (point : Int) : Numeral :=
  ⟨negative, ds.take 1, ds.drop 1, some (point - 1)⟩

/-- The digits of `m · 2^q` and where their point stands. Zero has one digit. -/
def shortestDigits (tie : Tie) (m : Nat) (q : Int) : List Digit × Int :=
  if m = 0 then ([.zero], 1)
  else
    let s := shortest tie m q
    let ds := digits s.significand
    (ds, s.exponent + ds.length)

/-! ## In running text -/

/-- The text of a number, as an `f64` is displayed: positional, without a point if it is
whole. -/
def plainText (x : Float) : String :=
  match shape x with
  | .nan => "NaN"
  | .infinite negative => if negative then "-inf" else "inf"
  | .finite negative m q =>
    let (ds, point) := shortestDigits .up m q
    (positional negative ds point).text

/-! ## In a document -/

/-- The numeral of a number in a document, as `serde_json` writes an `f64`; only finite
numbers have one. -/
def documentNumeral? (x : Float) : Option Numeral :=
  match shape x with
  | .nan | .infinite _ => none
  | .finite negative m q =>
    let (ds, point) := shortestDigits .even m q
    if -5 < point ∧ point ≤ 16 then
      let n := positional negative ds point
      some (if n.fraction = [] then { n with fraction := [.zero] } else n)
    else some (scientific negative ds point)

end StoryChat.Decimal
