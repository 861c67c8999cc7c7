/-
Decimal digits of natural numbers.

Numbers enter and leave as decimal text: part numbers in file names and
messages, significands in documents and saves. This file is the one place where
a number and its digits are tied together, and the tie is exact: `value` undoes
`digits`, and the text of a digit is read back as that digit.
-/

set_option autoImplicit false

namespace StoryChat.Decimal

/-- A decimal digit. -/
abbrev Digit := Fin 10

/-- The digit zero. -/
def Digit.zero : Digit := ⟨0, by decide⟩

/-- The character that writes a digit. -/
def Digit.char (d : Digit) : Char := Char.ofNat (48 + d.val)

/-- The digit a character writes, if it is one of the ten. -/
def digit? (c : Char) : Option Digit :=
  if h : 48 ≤ c.toNat ∧ c.toNat < 58 then some ⟨c.toNat - 48, by omega⟩ else none

@[simp] theorem digit?_char (d : Digit) : digit? d.char = some d := by
  revert d; decide

/-- The digits of a number, most significant first, without leading zeros. -/
def digits (n : Nat) : List Digit :=
  if h : n < 10 then [⟨n, h⟩] else digits (n / 10) ++ [⟨n % 10, by omega⟩]
termination_by n
decreasing_by omega

/-- The number that a row of digits writes. -/
def value (ds : List Digit) : Nat := ds.foldl (fun n d => 10 * n + d.val) 0

@[simp] theorem value_digits (n : Nat) : value (digits n) = n := by
  fun_induction digits n with
  | case1 n h => simp [value]
  | case2 n h ih =>
    simp only [value, List.foldl_append, List.foldl_cons, List.foldl_nil] at ih ⊢
    rw [ih]
    omega

theorem digits_ne_nil (n : Nat) : digits n ≠ [] := by
  unfold digits
  split <;> simp

/-- The decimal text of a number, as an unsigned integer is displayed. -/
def text (n : Nat) : String := String.ofList ((digits n).map Digit.char)

/-! ## Reading a row of digits off a text -/

/-- The digits that a text begins with, and the rest. -/
def span : List Char → List Digit × List Char
  | [] => ([], [])
  | c :: cs =>
    match digit? c with
    | some d => let (ds, rest) := span cs; (d :: ds, rest)
    | none => ([], c :: cs)

/-- Whether a text does not begin with a digit. -/
def Ends (cs : List Char) : Prop := ∀ c, cs.head? = some c → digit? c = none

theorem span_of_ends {cs : List Char} (h : Ends cs) : span cs = ([], cs) := by
  cases cs with
  | nil => rfl
  | cons c cs => simp [span, h c rfl]

/-- A row of digits is read off whole, up to where no digit stands. -/
theorem span_append (ds : List Digit) {rest : List Char} (h : Ends rest) :
    span (ds.map Digit.char ++ rest) = (ds, rest) := by
  induction ds with
  | nil => exact span_of_ends h
  | cons d ds ih => simp [span, ih]

/-- Nothing is lost, and the rest is no longer than the text. -/
theorem length_span_le (cs : List Char) : (span cs).2.length ≤ cs.length := by
  induction cs with
  | nil => simp [span]
  | cons c cs ih =>
    unfold span
    split
    · simp only [List.length_cons]; omega
    · simp

/-- A row that is not empty leaves a shorter rest. -/
theorem length_span_lt {cs : List Char} (h : (span cs).1 ≠ []) :
    (span cs).2.length < cs.length := by
  cases cs with
  | nil => exact absurd rfl h
  | cons c cs =>
    have := length_span_le cs
    unfold span at h ⊢
    split
    · simp only [List.length_cons]; omega
    · next hd => simp [hd] at h

end StoryChat.Decimal
