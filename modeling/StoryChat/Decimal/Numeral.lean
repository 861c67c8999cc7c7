/-
Decimal numerals as they stand in a document.

A numeral is kept as written, digit for digit, and not as the number it means: whether a
number is whole, how many bits its significand needs and whether it is in range are
questions that a reader of the document asks later, and of one numeral different readers
ask different ones. The grammar (`WellFormed`) is that of JSON: a sign, a whole part
without idle zeros, an optional fraction and an optional power of ten. What is written
(`chars`) is read back (`read?`) as it was.
-/
import StoryChat.Decimal.Digits

set_option autoImplicit false

namespace StoryChat.Decimal

/-- A written number: `-12.50e+3` has a sign, the whole digits 1 2, the fraction
5 0 and the exponent 3. -/
structure Numeral where
  negative : Bool
  whole : List Digit
  /-- No digits mean that no point is written. -/
  fraction : List Digit
  exponent : Option Int
  deriving DecidableEq

namespace Numeral

/-- The grammar's condition on the whole part: some digit, and a zero only
alone. -/
def WellFormed (n : Numeral) : Prop :=
  n.whole ≠ [] ∧ (n.whole.head? = some 0 → n.whole.length = 1)

instance (n : Numeral) : Decidable n.WellFormed := inferInstanceAs (Decidable (_ ∧ _))

/-! ## Writing -/

/-- A fraction with its point, or nothing. -/
def fractionChars : List Digit → List Char
  | [] => []
  | d :: ds => '.' :: (d :: ds).map Digit.char

/-- A power of ten with its sign, or nothing. -/
def exponentChars : Option Int → List Char
  | none => []
  | some e => 'e' :: (if e < 0 then '-' else '+') :: (digits e.natAbs).map Digit.char

/-- The characters of a numeral. -/
def chars (n : Numeral) : List Char :=
  (if n.negative then ['-'] else []) ++
    (n.whole.map Digit.char ++ (fractionChars n.fraction ++ exponentChars n.exponent))

/-- The text of a numeral. -/
def text (n : Numeral) : String := String.ofList n.chars

/-! ## Reading -/

/-- A leading minus sign. -/
def readSign : List Char → Bool × List Char
  | '-' :: cs => (true, cs)
  | cs => (false, cs)

/-- A point must have a digit behind it. -/
def readFraction : List Char → Option (List Digit × List Char)
  | '.' :: cs =>
    match span cs with
    | ([], _) => none
    | (d :: ds, rest) => some (d :: ds, rest)
  | cs => some ([], cs)

/-- The sign of an exponent, and whether it turns the exponent around. -/
def readExponentSign : List Char → Bool × List Char
  | '+' :: cs => (false, cs)
  | '-' :: cs => (true, cs)
  | cs => (false, cs)

/-- The mark of an exponent must have a digit behind it or behind its sign. -/
def readExponent : List Char → Option (Option Int × List Char)
  | [] => some (none, [])
  | c :: cs =>
    if c = 'e' ∨ c = 'E' then
      let (down, cs) := readExponentSign cs
      match span cs with
      | ([], _) => none
      | (d :: ds, rest) =>
        let e := (value (d :: ds) : Int)
        some (some (if down then -e else e), rest)
    else some (none, c :: cs)

/-- The numeral that a text begins with, and the rest. -/
def read? (cs : List Char) : Option (Numeral × List Char) := do
  let (negative, cs) := readSign cs
  let (whole, cs) := span cs
  if whole = [] ∨ (whole.head? = some 0 ∧ whole.length ≠ 1) then none
  else do
    let (fraction, cs) ← readFraction cs
    let (exponent, cs) ← readExponent cs
    return (⟨negative, whole, fraction, exponent⟩, cs)

/-! ## Reading goes forward -/

theorem length_readSign_le (cs : List Char) : (readSign cs).2.length ≤ cs.length := by
  unfold readSign
  split <;> simp

theorem length_readExponentSign_le (cs : List Char) :
    (readExponentSign cs).2.length ≤ cs.length := by
  unfold readExponentSign
  split <;> simp

theorem length_readFraction_le {cs rest : List Char} {ds : List Digit}
    (h : readFraction cs = some (ds, rest)) : rest.length ≤ cs.length := by
  unfold readFraction at h
  split at h
  · next cs =>
    have := length_span_le cs
    split at h
    · cases h
    · next heq =>
      cases h
      rw [heq] at this
      exact Nat.le_trans this (Nat.le_succ _)
  · cases h; exact Nat.le_refl _

theorem length_readExponent_le {cs rest : List Char} {e : Option Int}
    (h : readExponent cs = some (e, rest)) : rest.length ≤ cs.length := by
  unfold readExponent at h
  split at h
  · cases h; exact Nat.le_refl _
  · next c cs =>
    split at h
    · have hs := length_readExponentSign_le cs
      have hd := length_span_le (readExponentSign cs).2
      dsimp only at h
      split at h
      · cases h
      · next heq =>
        cases h
        rw [heq] at hd
        exact Nat.le_trans hd (Nat.le_trans hs (Nat.le_succ _))
    · cases h; exact Nat.le_refl _

/-- A numeral takes at least one character. -/
theorem length_read?_lt {cs rest : List Char} {n : Numeral}
    (h : read? cs = some (n, rest)) : rest.length < cs.length := by
  unfold read? at h
  have hs := length_readSign_le cs
  dsimp only at h
  split at h
  · cases h
  · next hne =>
    have hd := length_span_lt (fun e => hne (.inl e))
    simp only [Option.bind_eq_bind, Option.bind_eq_some_iff] at h
    obtain ⟨⟨f, r⟩, hf, ⟨e, r'⟩, he, hr⟩ := h
    cases hr
    exact Nat.lt_of_le_of_lt (length_readExponent_le he)
      (Nat.lt_of_le_of_lt (length_readFraction_le hf) (Nat.lt_of_lt_of_le hd hs))

/-! ## What is written is read back

The text behind a numeral must not be able to continue it. -/

/-- Whether no numeral can go on with this text. -/
def Stops (cs : List Char) : Prop :=
  ∀ c, cs.head? = some c → digit? c = none ∧ c ≠ '.' ∧ c ≠ 'e' ∧ c ≠ 'E'

theorem Stops.ends {cs : List Char} (h : Stops cs) : Ends cs := fun c hc => (h c hc).1

theorem readExponent_chars (e : Option Int) {rest : List Char} (h : Stops rest) :
    readExponent (exponentChars e ++ rest) = some (e, rest) := by
  cases e with
  | none =>
    cases rest with
    | nil => rfl
    | cons c cs =>
      obtain ⟨_, _, he, hE⟩ := h c rfl
      simp [exponentChars, readExponent, he, hE]
  | some e =>
    have hsign : readExponentSign ((if e < 0 then '-' else '+') ::
        ((digits e.natAbs).map Digit.char ++ rest)) =
        (decide (e < 0), (digits e.natAbs).map Digit.char ++ rest) := by
      by_cases he : e < 0 <;> simp [he, readExponentSign]
    have hback : (if decide (e < 0) = true then -(e.natAbs : Int) else (e.natAbs : Int)) = e := by
      by_cases he : e < 0
      · simp only [he, decide_true, if_true]; omega
      · simp only [he, decide_false, Bool.false_eq_true, if_false]; omega
    simp only [exponentChars, List.cons_append, readExponent, true_or, if_true, hsign,
      span_append _ h.ends]
    have hv := value_digits e.natAbs
    cases hd : digits e.natAbs with
    | nil => exact absurd hd (digits_ne_nil _)
    | cons d ds =>
      rw [hd] at hv
      simp only [hv, hback]

theorem ends_exponentChars (e : Option Int) {rest : List Char} (h : Stops rest) :
    Ends (exponentChars e ++ rest) := by
  cases e with
  | none => simpa [exponentChars] using h.ends
  | some e =>
    intro c hc
    simp [exponentChars] at hc
    subst hc
    decide

theorem readFraction_chars (f : List Digit) (e : Option Int) {rest : List Char}
    (h : Stops rest) :
    readFraction (fractionChars f ++ (exponentChars e ++ rest)) =
      some (f, exponentChars e ++ rest) := by
  cases f with
  | nil =>
    cases e with
    | none =>
      cases rest with
      | nil => rfl
      | cons c cs =>
        have hp := (h c rfl).2.1
        simp only [fractionChars, exponentChars, List.nil_append]
        unfold readFraction
        split
        · next heq => exact absurd (List.cons.inj heq).1 hp
        · rfl
    | some e => simp [fractionChars, exponentChars, readFraction]
  | cons d ds =>
    have := span_append (d :: ds) (ends_exponentChars e h)
    simp only [fractionChars, List.cons_append, readFraction]
    rw [List.map_cons, List.cons_append] at this
    rw [List.map_cons, List.cons_append, this]

theorem readSign_chars (negative : Bool) (d : Digit) (cs : List Char) :
    readSign ((if negative then ['-'] else []) ++ d.char :: cs) = (negative, d.char :: cs) := by
  cases negative with
  | true => rfl
  | false =>
    have : d.char ≠ '-' := by revert d; decide
    simp only [Bool.false_eq_true, if_false, List.nil_append]
    unfold readSign
    split
    · next heq => exact absurd (List.cons.inj heq).1 this
    · rfl

theorem ends_fractionChars (f : List Digit) (e : Option Int) {rest : List Char}
    (h : Stops rest) : Ends (fractionChars f ++ (exponentChars e ++ rest)) := by
  cases f with
  | nil => simpa [fractionChars] using ends_exponentChars e h
  | cons d ds =>
    intro c hc
    simp [fractionChars] at hc
    subst hc
    decide

/-- A written numeral is read back, up to where it stops. -/
theorem read?_chars_append {n : Numeral} (hn : n.WellFormed) {rest : List Char}
    (h : Stops rest) : read? (n.chars ++ rest) = some (n, rest) := by
  obtain ⟨negative, whole, fraction, exponent⟩ := n
  obtain ⟨hne, hzero⟩ := hn
  cases whole with
  | nil => exact absurd rfl hne
  | cons d ds =>
    have hsign := readSign_chars negative d
      (ds.map Digit.char ++ (fractionChars fraction ++ (exponentChars exponent ++ rest)))
    have hspan := span_append (d :: ds) (ends_fractionChars fraction exponent h)
    have hlead : ¬ ((d :: ds) = [] ∨ ((d :: ds).head? = some 0 ∧ (d :: ds).length ≠ 1)) := by
      intro hc
      rcases hc with hc | ⟨h0, hl⟩
      · exact absurd hc (by simp)
      · exact hl (hzero h0)
    rw [List.map_cons, List.cons_append] at hspan
    unfold read?
    simp only [chars, List.map_cons, List.append_assoc, List.cons_append, hsign, hspan,
      if_neg hlead, readFraction_chars _ _ h, readExponent_chars _ h, Option.bind_eq_bind,
      Option.bind_some]
    rfl

end Numeral

end StoryChat.Decimal
