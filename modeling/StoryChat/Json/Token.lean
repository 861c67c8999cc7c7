/-
The tokens of a JSON text.

A text is cut into tokens (`scan`) before its structure is looked at. Between tokens
four blanks may stand, and no others: space, tab, line feed and carriage return. The two
rules with content are those of strings. A string holds any character but a control
character, a quote or a backslash as itself, and the rest as escapes; and an escape of
four hexadecimal digits names a unit of 16 bits, two of which may name one character
together. So a string is first read as pieces, characters and units (`readPieces`), and
the pieces are joined afterwards (`joinPieces`).
-/
import StoryChat.Json.Basic

set_option autoImplicit false

namespace StoryChat.Json

/-- A token. -/
inductive Token where
  | null
  | bool (b : Bool)
  | number (n : Decimal.Numeral)
  | text (s : Option String)
  | openArray
  | closeArray
  | openObject
  | closeObject
  | comma
  | colon
  deriving DecidableEq

/-! ## Strings -/

/-- What an escape or a plain character in a string contributes. -/
inductive Piece where
  | char (c : Char)
  /-- A unit of 16 bits. -/
  | unit (u : Nat)
  deriving DecidableEq

/-- The value of a hexadecimal digit. -/
def hexDigit? (c : Char) : Option Nat :=
  let n := c.toNat
  if 48 ≤ n ∧ n < 58 then some (n - 48)
  else if 97 ≤ n ∧ n < 103 then some (n - 87)
  else if 65 ≤ n ∧ n < 71 then some (n - 55)
  else none

/-- The unit that four hexadecimal digits name. -/
def hexUnit? (a b c d : Char) : Option Nat := do
  let a ← hexDigit? a
  let b ← hexDigit? b
  let c ← hexDigit? c
  let d ← hexDigit? d
  return ((a * 16 + b) * 16 + c) * 16 + d

/-- The character behind a backslash that names a character by a letter. -/
def escapedChar? : Char → Option Char
  | '"' => some '"'
  | '\\' => some '\\'
  | '/' => some '/'
  | 'b' => some '\x08'
  | 'f' => some '\x0c'
  | 'n' => some '\n'
  | 'r' => some '\r'
  | 't' => some '\t'
  | _ => none

/-- The pieces of a string, from behind its opening quote, and the text behind
its closing quote. -/
def readPieces : List Char → Option (List Piece × List Char)
  | [] => none
  | '"' :: cs => some ([], cs)
  | '\\' :: 'u' :: a :: b :: c :: d :: cs => do
    let u ← hexUnit? a b c d
    let (ps, rest) ← readPieces cs
    return (.unit u :: ps, rest)
  | '\\' :: c :: cs => do
    let c ← escapedChar? c
    let (ps, rest) ← readPieces cs
    return (.char c :: ps, rest)
  | c :: cs =>
    if c.toNat < 32 ∨ c = '\\' then none
    else do
      let (ps, rest) ← readPieces cs
      return (.char c :: ps, rest)

/-- Join units to characters. A unit of the first half must stand before one of
the second half, and no unit of the second half may stand alone. -/
def joinPieces : List Piece → Option (List Char)
  | [] => some []
  | .char c :: ps => (joinPieces ps).map (c :: ·)
  | .unit u :: .unit v :: ps =>
    if 0xD800 ≤ u ∧ u < 0xDC00 then
      if 0xDC00 ≤ v ∧ v < 0xE000 then
        (joinPieces ps).map (Char.ofNat (0x10000 + (u - 0xD800) * 0x400 + (v - 0xDC00)) :: ·)
      else none
    else if 0xDC00 ≤ u ∧ u < 0xE000 then none
    else (joinPieces (.unit v :: ps)).map (Char.ofNat u :: ·)
  | .unit u :: ps =>
    if 0xD800 ≤ u ∧ u < 0xE000 then none
    else (joinPieces ps).map (Char.ofNat u :: ·)

theorem length_readPieces {cs rest : List Char} {ps : List Piece}
    (h : readPieces cs = some (ps, rest)) : rest.length < cs.length := by
  fun_induction readPieces cs generalizing ps rest with
  | case1 => simp at h
  | case2 cs => cases h; simp
  | case3 a b c d cs ih =>
    simp only [Option.bind_eq_bind, Option.bind_eq_some_iff] at h
    obtain ⟨u, _, ⟨qs, r⟩, hr, e⟩ := h
    cases e
    have := ih hr
    simp only [List.length_cons]; omega
  | case4 c cs _ ih =>
    simp only [Option.bind_eq_bind, Option.bind_eq_some_iff] at h
    obtain ⟨u, _, ⟨qs, r⟩, hr, e⟩ := h
    cases e
    exact Nat.lt_trans (ih hr) (by simp only [List.length_cons]; omega)
  | case5 => simp at h
  | case6 c cs _ _ _ _ ih =>
    simp only [Option.bind_eq_bind, Option.bind_eq_some_iff] at h
    obtain ⟨⟨qs, r⟩, hr, e⟩ := h
    cases e
    have := ih hr
    simp only [List.length_cons]; omega

/-! ## Tokens -/

/-- The blanks that may stand between tokens. -/
def isGap (c : Char) : Bool := c == ' ' || c == '\t' || c == '\n' || c == '\r'

/-- The text behind a word that it begins with. -/
def dropWord (word cs : List Char) : Option (List Char) :=
  if word.isPrefixOf cs then some (cs.drop word.length) else none

/-- The token that a text begins with, and the rest. -/
def readToken : List Char → Option (Token × List Char)
  | [] => none
  | '[' :: cs => some (.openArray, cs)
  | ']' :: cs => some (.closeArray, cs)
  | '\x7b' :: cs => some (.openObject, cs)
  | '\x7d' :: cs => some (.closeObject, cs)
  | ',' :: cs => some (.comma, cs)
  | ':' :: cs => some (.colon, cs)
  | 'n' :: cs => (dropWord ['u', 'l', 'l'] cs).map (Token.null, ·)
  | 't' :: cs => (dropWord ['r', 'u', 'e'] cs).map (Token.bool true, ·)
  | 'f' :: cs => (dropWord ['a', 'l', 's', 'e'] cs).map (Token.bool false, ·)
  | '"' :: cs =>
    (readPieces cs).map fun (ps, rest) => (.text ((joinPieces ps).map String.ofList), rest)
  | cs => (Decimal.Numeral.read? cs).map fun (n, rest) => (.number n, rest)

theorem length_dropWord {word cs rest : List Char} (h : dropWord word cs = some rest) :
    rest.length ≤ cs.length := by
  unfold dropWord at h
  split at h
  · cases h; simp
  · cases h

theorem length_readToken {cs rest : List Char} {t : Token}
    (h : readToken cs = some (t, rest)) : rest.length < cs.length := by
  unfold readToken at h
  -- the marks take one character each, the words, texts and numbers at least one
  split at h
  · cases h
  · cases h; simp
  · cases h; simp
  · cases h; simp
  · cases h; simp
  · cases h; simp
  · cases h; simp
  · obtain ⟨r, hr, e⟩ := Option.map_eq_some_iff.1 h
    cases e
    have := length_dropWord hr
    simp only [List.length_cons]; omega
  · obtain ⟨r, hr, e⟩ := Option.map_eq_some_iff.1 h
    cases e
    have := length_dropWord hr
    simp only [List.length_cons]; omega
  · obtain ⟨r, hr, e⟩ := Option.map_eq_some_iff.1 h
    cases e
    have := length_dropWord hr
    simp only [List.length_cons]; omega
  · obtain ⟨⟨ps, r⟩, hr, e⟩ := Option.map_eq_some_iff.1 h
    cases e
    have := length_readPieces hr
    simp only [List.length_cons]; omega
  · obtain ⟨⟨n, r⟩, hr, e⟩ := Option.map_eq_some_iff.1 h
    cases e
    exact Decimal.Numeral.length_read?_lt hr

/-- The tokens of a text. -/
def scan (cs : List Char) : Option (List Token) :=
  match cs with
  | [] => some []
  | c :: cs =>
    if isGap c then scan cs
    else
      match _h : readToken (c :: cs) with
      | none => none
      | some (t, rest) => (scan rest).map (t :: ·)
termination_by cs.length
decreasing_by
  · simp
  · exact length_readToken ‹_›

end StoryChat.Json
