/-
What is written is read back.

A document that was made from values, with texts for strings and well-formed
numerals, is found again (`Json.parse?`) in its own text (`Json.render`). There
are two halves to this. The text is cut into exactly the tokens it was put
together from, because no token can go on into what is written behind it. And the
tokens are gathered into exactly the tree they came from, whatever containers are
open around it. Both are proved along the tree with something arbitrary behind it:
a rest of the text in the one case, a stack of open containers in the other.
-/
import StoryChat.Json.Writer

set_option autoImplicit false

namespace StoryChat.Json

/-! ## Strings -/

/-- What a written character is read as. A control character without a letter of its
own is written as a unit. -/
def pieceOf (c : Char) : Piece :=
  if c.toNat < 32 ∧ c ≠ '\x08' ∧ c ≠ '\x0c' ∧ c ≠ '\n' ∧ c ≠ '\r' ∧ c ≠ '\t' then .unit c.toNat
  else .char c

theorem hexDigit?_hexChar {n : Nat} (h : n < 16) : hexDigit? (hexChar n) = some n := by
  match n, h with
  | 0, _ | 1, _ | 2, _ | 3, _ | 4, _ | 5, _ | 6, _ | 7, _ | 8, _ | 9, _ | 10, _ | 11, _
  | 12, _ | 13, _ | 14, _ | 15, _ => rfl
  | n + 16, h => omega

/-- Reading on behind a piece. -/
def withPiece (p : Piece) (r : Option (List Piece × List Char)) :
    Option (List Piece × List Char) :=
  r.map fun (ps, rest) => (p :: ps, rest)

theorem readPieces_letter {l c : Char} (h : escapedChar? l = some c) (hu : l ≠ 'u')
    (cs : List Char) : readPieces ('\\' :: l :: cs) = withPiece (.char c) (readPieces cs) := by
  rw [readPieces.eq_4 l cs fun _ _ _ _ _ hl => absurd hl hu, h]
  cases readPieces cs <;> rfl

theorem readPieces_plain {c : Char} (hq : c ≠ '"') (hb : c ≠ '\\') (hc : ¬ c.toNat < 32)
    (cs : List Char) : readPieces (c :: cs) = withPiece (.char c) (readPieces cs) := by
  rw [readPieces.eq_5 c cs (fun h => absurd h hq) (fun _ _ _ _ _ h => absurd h hb)
    (fun _ _ h => absurd h hb), if_neg (not_or.2 ⟨hc, hb⟩)]
  cases readPieces cs <;> rfl

theorem readPieces_unit {c : Char} (hc : c.toNat < 32) (cs : List Char) :
    readPieces ('\\' :: 'u' :: '0' :: '0' :: hexChar (c.toNat / 16) :: hexChar (c.toNat % 16) ::
      cs) = withPiece (.unit c.toNat) (readPieces cs) := by
  have hunit : hexUnit? '0' '0' (hexChar (c.toNat / 16)) (hexChar (c.toNat % 16)) =
      some c.toNat := by
    have h0 : hexDigit? '0' = some 0 := rfl
    simp only [hexUnit?, h0, hexDigit?_hexChar (show c.toNat / 16 < 16 by omega),
      hexDigit?_hexChar (Nat.mod_lt c.toNat (by decide : 0 < 16)), Option.bind_eq_bind,
      Option.bind_some, Option.pure_def, Option.some.injEq]
    omega
  rw [readPieces.eq_3, hunit]
  cases readPieces cs <;> rfl

/-- A written character is one piece. -/
theorem readPieces_escapeChar (c : Char) (cs : List Char) :
    readPieces (escapeChar c ++ cs) = withPiece (pieceOf c) (readPieces cs) := by
  by_cases h : c = '"' ∨ c = '\\' ∨ c = '\x08' ∨ c = '\x0c' ∨ c = '\n' ∨ c = '\r' ∨ c = '\t'
  · rcases h with rfl | rfl | rfl | rfl | rfl | rfl | rfl <;>
      exact readPieces_letter rfl (by decide) cs
  · simp only [not_or] at h
    obtain ⟨h1, h2, h3, h4, h5, h6, h7⟩ := h
    simp only [escapeChar, h1, h2, h3, h4, h5, h6, h7, if_false]
    by_cases hc : c.toNat < 32
    · simp only [hc, if_true, pieceOf, h3, h4, h5, h6, h7, ne_eq, not_false_eq_true, and_self]
      exact readPieces_unit hc cs
    · simp only [hc, if_false, pieceOf, false_and]
      exact readPieces_plain h1 h2 hc cs

/-- A written string is read up to its closing quote. -/
theorem readPieces_chars (cs rest : List Char) :
    readPieces (cs.flatMap escapeChar ++ '"' :: rest) = some (cs.map pieceOf, rest) := by
  induction cs with
  | nil => rfl
  | cons c cs ih =>
    rw [List.flatMap_cons, List.append_assoc, readPieces_escapeChar, ih]
    rfl

/-- A unit outside the halves stands for itself. -/
theorem joinPieces_unit {u : Nat} (h : u < 0xD800) (ps : List Piece) :
    joinPieces (.unit u :: ps) = (joinPieces ps).map (Char.ofNat u :: ·) := by
  have hlow : ¬ (0xD800 ≤ u ∧ u < 0xDC00) := by omega
  have hhigh : ¬ (0xDC00 ≤ u ∧ u < 0xE000) := by omega
  have hpair : ¬ (0xD800 ≤ u ∧ u < 0xE000) := by omega
  cases ps with
  | nil => simp only [joinPieces, hpair, if_false]
  | cons p ps =>
    cases p with
    | char c => simp only [joinPieces, hpair, if_false]
    | unit v => simp only [joinPieces.eq_3, hlow, hhigh, if_false]

/-- The pieces of a written string are joined to what was written. -/
theorem joinPieces_pieceOf (cs : List Char) : joinPieces (cs.map pieceOf) = some cs := by
  induction cs with
  | nil => rfl
  | cons c cs ih =>
    rw [List.map_cons]
    by_cases h : c.toNat < 32 ∧ c ≠ '\x08' ∧ c ≠ '\x0c' ∧ c ≠ '\n' ∧ c ≠ '\r' ∧ c ≠ '\t'
    · have hp : pieceOf c = .unit c.toNat := if_pos h
      rw [hp, joinPieces_unit (by omega), ih, Option.map_some, Char.ofNat_toNat]
    · have hp : pieceOf c = .char c := if_neg h
      rw [hp, joinPieces, ih, Option.map_some]

/-! ## Tokens -/

/-- Whether a token was made from a value. -/
def Token.Written : Token → Prop
  | .number n => n.WellFormed
  | .text s => s.isSome
  | _ => True

/-- What begins with a digit or a minus sign can only be a number. -/
theorem readToken_number {c : Char} (h : c = '-' ∨ ∃ d : Decimal.Digit, c = d.char)
    (cs : List Char) : readToken (c :: cs) =
      (Decimal.Numeral.read? (c :: cs)).map fun (n, rest) => (.number n, rest) := by
  rcases h with rfl | ⟨⟨d, hd⟩, rfl⟩
  · rfl
  · match d, hd with
    | 0, _ | 1, _ | 2, _ | 3, _ | 4, _ | 5, _ | 6, _ | 7, _ | 8, _ | 9, _ => rfl

theorem chars_eq_cons {n : Decimal.Numeral} (hn : n.WellFormed) :
    ∃ c cs, n.chars = c :: cs ∧ (c = '-' ∨ ∃ d : Decimal.Digit, c = d.char) := by
  obtain ⟨negative, whole, fraction, exponent⟩ := n
  cases whole with
  | nil => exact absurd rfl hn.1
  | cons d ds =>
    cases negative with
    | true => exact ⟨_, _, rfl, .inl rfl⟩
    | false => exact ⟨_, _, rfl, .inr ⟨d, rfl⟩⟩

/-- Whether a token is complete in front of a text: only a number can be continued. -/
def Token.Complete (t : Token) (rest : List Char) : Prop :=
  ∀ n, t = .number n → Decimal.Numeral.Stops rest

/-- A written token is read back where nothing behind it can continue it. -/
theorem readToken_chars {t : Token} (ht : t.Written) {rest : List Char}
    (h : t.Complete rest) : readToken (t.chars ++ rest) = some (t, rest) := by
  cases t with
  | null => rfl
  | bool b => cases b <;> rfl
  | openArray | closeArray | openObject | closeObject | comma | colon => rfl
  | text s =>
    obtain ⟨s, rfl⟩ := Option.isSome_iff_exists.1 ht
    have hp := readPieces_chars s.toList rest
    simp only [Token.chars, Option.getD_some, List.cons_append, List.append_assoc,
      List.nil_append, readToken, hp, Option.map_some, joinPieces_pieceOf, String.ofList_toList]
  | number n =>
    obtain ⟨c, cs, hc, hfirst⟩ := chars_eq_cons ht
    have hread := Decimal.Numeral.read?_chars_append ht (h n rfl)
    rw [hc] at hread
    rw [Token.chars, hc, List.cons_append, readToken_number hfirst, ← List.cons_append, hread]
    rfl

theorem not_isGap_chars {t : Token} (ht : t.Written) :
    ∃ c cs, t.chars = c :: cs ∧ isGap c = false := by
  cases t with
  | bool b => cases b <;> exact ⟨_, _, rfl, rfl⟩
  | number n =>
    obtain ⟨c, cs, hc, rfl | ⟨⟨d, hd⟩, rfl⟩⟩ := chars_eq_cons ht
    · exact ⟨_, cs, hc, rfl⟩
    · refine ⟨_, cs, hc, ?_⟩
      match d, hd with
      | 0, _ | 1, _ | 2, _ | 3, _ | 4, _ | 5, _ | 6, _ | 7, _ | 8, _ | 9, _ => rfl
  | _ => exact ⟨_, _, rfl, rfl⟩

/-- A written token is cut off the text. -/
theorem scan_chars {t : Token} (ht : t.Written) {rest : List Char} (h : t.Complete rest) :
    scan (t.chars ++ rest) = (scan rest).map (t :: ·) := by
  obtain ⟨c, cs, hc, hgap⟩ := not_isGap_chars ht
  have hread := readToken_chars ht h
  rw [hc, List.cons_append] at hread ⊢
  rw [scan, hgap, if_neg Bool.false_ne_true]
  split
  · next hnone => rw [hread] at hnone; cases hnone
  · next hsome => rw [hread] at hsome; cases hsome; rfl

/-- Whether what follows ends a number. -/
def Ending : List Token → Prop
  | [] => True
  | t :: _ => t = .comma ∨ t = .closeArray ∨ t = .closeObject

/-- A row of written tokens in which every number is ended by the next one. -/
def Row : List Token → Prop
  | [] => True
  | t :: ts => t.Written ∧ ((∀ n, t ≠ .number n) ∨ Ending ts) ∧ Row ts

theorem Ending.stops {ts : List Token} (h : Ending ts) :
    Decimal.Numeral.Stops (ts.flatMap Token.chars) := by
  intro c hc
  cases ts with
  | nil => cases hc
  | cons t ts => rcases h with rfl | rfl | rfl <;> (cases hc; decide)

/-- The text of a row is cut into the row. -/
theorem scan_row {ts : List Token} (h : Row ts) : scan (ts.flatMap Token.chars) = some ts := by
  induction ts with
  | nil => rw [List.flatMap_nil, scan]
  | cons t ts ih =>
    obtain ⟨ht, hnext, hts⟩ := h
    have hcomplete : t.Complete (ts.flatMap Token.chars) := by
      intro n hn
      rcases hnext with hnext | hnext
      · exact absurd hn (hnext n)
      · exact hnext.stops
    rw [List.flatMap_cons, scan_chars ht hcomplete, ih hts, Option.map_some]

/-! ## Documents -/

/-- Whether a document was made from values: its strings spell texts and its numerals
are well-formed. -/
def Written : Json → Prop
  | .number n => n.WellFormed
  | .text s => s.isSome
  | .array items => writtenItems items
  | .object fields => writtenFields fields
  | _ => True
where
  writtenItems : List Json → Prop
    | [] => True
    | j :: rest => Written j ∧ writtenItems rest
  writtenFields : List (Option String × Json) → Prop
    | [] => True
    | (k, j) :: rest => k.isSome ∧ Written j ∧ writtenFields rest

/-- A token that is no number begins a row as well as it is written. -/
theorem Row.cons {t : Token} {ts : List Token} (hw : t.Written) (hn : ∀ n, t ≠ .number n)
    (h : Row ts) : Row (t :: ts) := ⟨hw, .inl hn, h⟩

mutual

theorem row_tokens (j : Json) (ts : List Token) (hj : j.Written) (he : Ending ts) (hr : Row ts) :
    Row (j.tokens ++ ts) :=
  match j, hj with
  | .null, _ => .cons trivial nofun hr
  | .bool _, _ => .cons trivial nofun hr
  | .number _, hn => ⟨hn, .inr he, hr⟩
  | .text _, hs => .cons hs nofun hr
  | .array items, hi => by
    rw [tokens, List.cons_append, List.append_assoc]
    exact .cons trivial nofun (row_itemTokens items ts hi hr)
  | .object fields, hf => by
    rw [tokens, List.cons_append, List.append_assoc]
    exact .cons trivial nofun (row_fieldTokens fields ts hf hr)

theorem row_itemTokens (items : List Json) (ts : List Token)
    (hi : Written.writtenItems items) (hr : Row ts) :
    Row (tokens.itemTokens items ++ ([.closeArray] ++ ts)) :=
  match items, hi with
  | [], _ => .cons trivial nofun hr
  | [j], hi => row_tokens j _ hi.1 (.inr (.inl rfl)) (.cons trivial nofun hr)
  | j :: j' :: rest, hi => by
    have h := row_itemTokens (j' :: rest) ts hi.2 hr
    rw [tokens.itemTokens.eq_3 j (j' :: rest) nofun, List.append_assoc]
    exact row_tokens j _ hi.1 (.inl rfl) (.cons trivial nofun h)

theorem row_fieldTokens (fields : List (Option String × Json)) (ts : List Token)
    (hf : Written.writtenFields fields) (hr : Row ts) :
    Row (tokens.fieldTokens fields ++ ([.closeObject] ++ ts)) :=
  match fields, hf with
  | [], _ => .cons trivial nofun hr
  | [(k, j)], hf => .cons hf.1 nofun (.cons trivial nofun
      (row_tokens j _ hf.2.1 (.inr (.inr rfl)) (.cons trivial nofun hr)))
  | (k, j) :: f :: rest, hf => by
    have h := row_fieldTokens (f :: rest) ts hf.2.2 hr
    rw [tokens.fieldTokens.eq_3 k j (f :: rest) nofun, List.cons_append, List.cons_append,
      List.append_assoc]
    exact .cons hf.1 nofun (.cons trivial nofun
      (row_tokens j _ hf.2.1 (.inl rfl) (.cons trivial nofun h)))

end

/-! ### Gathering the tree

A value is handed to whatever container is open, with the rest of the tokens behind
it. -/

mutual

theorem run_tokens (j : Json) (fs : List Frame) (w : Wait) (hw : w = .value ∨ w = .item)
    (ts : List Token) :
    Reading.run ⟨fs, w⟩ (j.tokens ++ ts) = (Reading.deliver j fs).bind (·.run ts) :=
  match j with
  | .null => by rcases hw with rfl | rfl <;> rfl
  | .bool _ => by rcases hw with rfl | rfl <;> rfl
  | .number _ => by rcases hw with rfl | rfl <;> rfl
  | .text _ => by rcases hw with rfl | rfl <;> rfl
  | .array items => by
    have h := run_itemTokens items [] fs .item (.inl rfl) ts
    rw [tokens, List.cons_append, List.append_assoc]
    rcases hw with rfl | rfl <;> exact h
  | .object fields => by
    have h := run_fieldTokens fields [] fs .entry (.inl rfl) ts
    rw [tokens, List.cons_append, List.append_assoc]
    rcases hw with rfl | rfl <;> exact h

theorem run_itemTokens (items before : List Json) (fs : List Frame) (w : Wait)
    (hw : w = .item ∨ w = .value ∧ items ≠ []) (ts : List Token) :
    Reading.run ⟨.array before :: fs, w⟩ (tokens.itemTokens items ++ ([.closeArray] ++ ts)) =
      (Reading.deliver (.array (before.reverse ++ items)) fs).bind (·.run ts) :=
  match items with
  | [] => by
    obtain rfl : w = .item := hw.resolve_right fun h => h.2 rfl
    rw [List.append_nil]
    rfl
  | [j] => by
    have h := run_tokens j (.array before :: fs) w (hw.symm.imp And.left id) ([.closeArray] ++ ts)
    rw [tokens.itemTokens.eq_2, h, ← List.reverse_cons]
    rfl
  | j :: j' :: rest => by
    have h := run_tokens j (.array before :: fs) w (hw.symm.imp And.left id)
      (.comma :: (tokens.itemTokens (j' :: rest) ++ ([.closeArray] ++ ts)))
    have h' := run_itemTokens (j' :: rest) (j :: before) fs .value (.inr ⟨rfl, nofun⟩) ts
    rw [List.reverse_cons, List.append_assoc] at h'
    rw [tokens.itemTokens.eq_3 j (j' :: rest) nofun, List.append_assoc, List.cons_append, h]
    exact h'

theorem run_fieldTokens (fields before : List (Option String × Json)) (fs : List Frame) (w : Wait)
    (hw : w = .entry ∨ w = .key ∧ fields ≠ []) (ts : List Token) :
    Reading.run ⟨.object before :: fs, w⟩ (tokens.fieldTokens fields ++ ([.closeObject] ++ ts)) =
      (Reading.deliver (.object (before.reverse ++ fields)) fs).bind (·.run ts) :=
  match fields with
  | [] => by
    obtain rfl : w = .entry := hw.resolve_right fun h => h.2 rfl
    rw [List.append_nil]
    rfl
  | [(k, j)] => by
    have h := run_tokens j (.field before k :: fs) .value (.inl rfl) ([.closeObject] ++ ts)
    rw [tokens.fieldTokens.eq_2, ← List.reverse_cons]
    rcases hw with rfl | ⟨rfl, -⟩ <;> exact h
  | (k, j) :: f :: rest => by
    have h := run_tokens j (.field before k :: fs) .value (.inl rfl)
      (.comma :: (tokens.fieldTokens (f :: rest) ++ ([.closeObject] ++ ts)))
    have h' := run_fieldTokens (f :: rest) ((k, j) :: before) fs .key (.inr ⟨rfl, nofun⟩) ts
    rw [List.reverse_cons, List.append_assoc] at h'
    rw [tokens.fieldTokens.eq_3 k j (f :: rest) nofun, List.cons_append, List.cons_append,
      List.append_assoc, List.cons_append]
    rcases hw with rfl | ⟨rfl, -⟩ <;> exact h.trans h'

end

/-- What is written is read back. -/
theorem parse?_render {j : Json} (hj : j.Written) : parse? j.render = some j := by
  have hrow := row_tokens j [] hj trivial trivial
  have hrun := run_tokens j [] .value (.inl rfl) []
  rw [List.append_nil] at hrow hrun
  rw [parse?, render, String.toList_ofList, scan_row hrow, Option.bind_some, ofTokens?, hrun]
  rfl

end StoryChat.Json
