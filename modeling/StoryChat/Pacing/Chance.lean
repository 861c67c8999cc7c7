/-
A source of draws.

Pauses vary a little from one to the next. A `Pacer` asks the random generator of its
thread; here what they vary with is a sequence of fractions from zero up to but not
including one, obtained by mixing the bits of a counter: every place of the sequence can
be computed on its own, and a seed fixes all of it (`chance`).
-/

set_option autoImplicit false

namespace StoryChat

/-- Spread the bits of a word over all of it. -/
def mixBits (x : UInt64) : UInt64 :=
  let x := (x ^^^ (x >>> 30)) * 0xBF58476D1CE4E5B9
  let x := (x ^^^ (x >>> 27)) * 0x94D049BB133111EB
  x ^^^ (x >>> 31)

/-- The draw at a place of the sequence of a seed, in the place of one of the random generator
of a `Pacer`: 53 bits behind the point. -/
def chance (seed : UInt64) (place : Nat) : Float :=
  let word := mixBits (seed + (UInt64.ofNat place + 1) * 0x9E3779B97F4A7C15)
  (word >>> 11).toFloat / 9007199254740992.0

end StoryChat
