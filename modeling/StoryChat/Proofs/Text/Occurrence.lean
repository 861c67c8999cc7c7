/-
The places where a name is put in.

A token may overlap itself, a name may contain the token, and a name may make up a new token
together with what it is put between. None of this matters, because only the text itself is
searched, from the left, and each time behind the place that was found last. So a text and a
token alone fix where the text is cut (`Pieces`), and a substitution (`Text.substitute`)
only joins the pieces by a name instead of the token.
-/
import StoryChat.Text.Substitution
import Mathlib.Data.Nat.Find

set_option autoImplicit false

namespace StoryChat.Text

/-! ## Searching -/

/-- Whether a token stands somewhere in a text. -/
def Occurs (token text : String) : Prop := ∃ before after, text = before ++ token ++ after

/-- Whether a text is two parts with a token between them, and the token stands nowhere further
left. -/
structure StandsFirst (token text before after : String) : Prop where
  split : text = before ++ token ++ after
  leftmost : ∀ left right, text = left ++ token ++ right → before.length ≤ left.length

/-- The pieces of a text that is searched for a token from the left, each time behind the place
that was found last. -/
inductive Pieces (token : String) : String → List String → Prop where
  | last {text : String} : ¬ Occurs token text → Pieces token text [text]
  | found {text before after : String} {pieces : List String} :
      StandsFirst token text before after → Pieces token after pieces →
      Pieces token text (before :: pieces)

variable {token text before after : String} {pieces : List String}

theorem StandsFirst.occurs (h : StandsFirst token text before after) : Occurs token text :=
  ⟨before, after, h.split⟩

/-- A token that stands somewhere has a first place. -/
theorem Occurs.exists_first (h : Occurs token text) :
    ∃ before after, StandsFirst token text before after := by
  have hplace : ∃ place, ∃ before after : String,
      before.length = place ∧ text = before ++ token ++ after := by
    obtain ⟨before, after, hsplit⟩ := h
    exact ⟨_, before, after, rfl, hsplit⟩
  classical
  obtain ⟨before, after, hlength, hsplit⟩ := Nat.find_spec hplace
  refine ⟨before, after, hsplit, fun left right hother => ?_⟩
  rw [hlength]
  exact Nat.find_min' hplace ⟨left, right, rfl, hother⟩

/-- There is only one first place. -/
theorem StandsFirst.eq {before' after' : String} (h : StandsFirst token text before after)
    (h' : StandsFirst token text before' after') : before' = before ∧ after' = after := by
  have hlength : before'.length = before.length :=
    Nat.le_antisymm (h'.leftmost _ _ h.split) (h.leftmost _ _ h'.split)
  have hsplit := congrArg String.toList (h'.split.symm.trans h.split)
  simp only [String.toList_append, List.append_assoc] at hsplit
  rw [← String.length_toList, ← String.length_toList] at hlength
  obtain ⟨hbefore, hrest⟩ := List.append_inj hsplit hlength
  exact ⟨String.toList_injective hbefore, String.toList_injective (List.append_cancel_left hrest)⟩

/-- The pieces joined by the token are the text. -/
theorem Pieces.intercalate (h : Pieces token text pieces) : token.intercalate pieces = text := by
  induction h with
  | last => exact String.intercalate_singleton
  | found hfirst hrest ih =>
    rw [hfirst.split]
    cases hrest with
    | last => rw [String.intercalate_cons_cons, ih]
    | found => rw [String.intercalate_cons_cons, ih]

/-- A text has its pieces in one way only. -/
theorem Pieces.eq {pieces' : List String} (h : Pieces token text pieces)
    (h' : Pieces token text pieces') : pieces' = pieces := by
  induction h generalizing pieces' with
  | last hnone =>
    cases h' with
    | last => rfl
    | found hfirst => exact absurd hfirst.occurs hnone
  | found hfirst _ ih =>
    cases h' with
    | last hnone => exact absurd hfirst.occurs hnone
    | found hfirst' hrest' =>
      obtain ⟨rfl, rfl⟩ := hfirst.eq hfirst'
      rw [ih hrest']

/-- A token that is not empty cuts every text into pieces, since less and less is left to be
searched. -/
theorem exists_pieces (ht : token ≠ "") (text : String) : ∃ pieces, Pieces token text pieces := by
  induction hlength : text.length using Nat.strongRecOn generalizing text with
  | ind length ih =>
    by_cases hoccurs : Occurs token text
    · obtain ⟨before, after, hfirst⟩ := hoccurs.exists_first
      have hsum : text.length = before.length + token.length + after.length := by
        rw [hfirst.split, String.length_append, String.length_append]
      have hpos : token.length ≠ 0 := fun h => ht (String.length_eq_zero_iff.1 h)
      obtain ⟨pieces, hpieces⟩ := ih after.length (by omega) after rfl
      exact ⟨before :: pieces, .found hfirst hpieces⟩
    · exact ⟨[text], .last hoccurs⟩

/-! ## Replacing -/

section

variable {t : Char} {ts name : List Char}

/-- Where the token does not stand at the beginning, a character is kept. -/
theorem replaceToken_cons {c : Char} {cs : List Char} (h : ¬ t :: ts <+: c :: cs) :
    replaceToken t ts name (c :: cs) = c :: replaceToken t ts name cs := by
  rw [replaceToken, if_neg (fun hprefix => h (List.isPrefixOf_iff_prefix.1 hprefix))]

/-- A text in which the token does not stand stays as it is. -/
theorem replaceToken_of_not_infix {cs : List Char} (h : ¬ t :: ts <:+: cs) :
    replaceToken t ts name cs = cs := by
  induction cs with
  | nil => exact replaceToken_nil t ts name
  | cons c cs ih =>
    rw [replaceToken_cons fun hprefix => h hprefix.isInfix,
      ih fun hwithin => h (hwithin.trans (List.suffix_cons c cs).isInfix)]

/-- What stands before the first token is kept, and there the name is put in. The induction is on
what stands before: as long as some of it is left, the token does not stand at the beginning. -/
theorem replaceToken_of_leftmost {left right : List Char}
    (h : ∀ left' right', left ++ (t :: ts) ++ right = left' ++ (t :: ts) ++ right' →
      left.length ≤ left'.length) :
    replaceToken t ts name (left ++ (t :: ts) ++ right) =
      left ++ name ++ replaceToken t ts name right := by
  induction left with
  | nil => exact replaceToken_token_append t ts name right
  | cons c left ih =>
    have hkeep : ¬ t :: ts <+: c :: (left ++ (t :: ts) ++ right) := by
      rintro ⟨rest, hrest⟩
      have hle := h [] rest hrest.symm
      exact absurd hle (Nat.not_succ_le_zero _)
    have hshorter := ih fun left' right' heq => by
      have hle := h (c :: left') right' (congrArg (c :: ·) heq)
      simpa only [List.length_cons, Nat.add_le_add_iff_right] using hle
    rw [List.cons_append, List.cons_append, replaceToken_cons hkeep, hshorter, List.cons_append,
      List.cons_append]

end

/-- A substitution is that of characters, unless the token is empty. -/
theorem exists_toList_substitute (ht : token ≠ "") : ∃ t ts, token.toList = t :: ts ∧
    ∀ text name, (substitute text token name).toList =
      replaceToken t ts name.toList text.toList := by
  cases hchars : token.toList with
  | nil => exact absurd (String.toList_injective hchars) ht
  | cons t ts =>
    refine ⟨t, ts, rfl, fun text name => ?_⟩
    unfold substitute
    rw [hchars, String.toList_ofList]

/-- Where the token does not occur, nothing is replaced. -/
theorem substitute_of_not_occurs (h : ¬ Occurs token text) (name : String) :
    substitute text token name = text := by
  have ht : token ≠ "" := by
    rintro rfl
    exact h ⟨text, "", by rw [String.append_empty, String.append_empty]⟩
  obtain ⟨t, ts, hchars, hsubstitute⟩ := exists_toList_substitute ht
  refine String.toList_injective ?_
  rw [hsubstitute, replaceToken_of_not_infix]
  rintro ⟨left, right, hwithin⟩
  refine h ⟨.ofList left, .ofList right, String.toList_injective ?_⟩
  simp only [String.toList_append, String.toList_ofList, hchars, hwithin]

/-- At the first token the name is put in, and only what comes behind it is looked at again. -/
theorem StandsFirst.substitute_eq (h : StandsFirst token text before after) (ht : token ≠ "")
    (name : String) :
    substitute text token name = before ++ name ++ substitute after token name := by
  obtain ⟨t, ts, hchars, hsubstitute⟩ := exists_toList_substitute ht
  refine String.toList_injective ?_
  have hsplit := congrArg String.toList h.split
  simp only [String.toList_append, hchars] at hsplit
  simp only [String.toList_append, hsubstitute, hsplit]
  refine replaceToken_of_leftmost fun left right heq => ?_
  have hle := h.leftmost (.ofList left) (.ofList right) (String.toList_injective (by
    simp only [String.toList_append, String.toList_ofList, hchars, hsplit, heq]))
  simpa only [← String.length_toList, String.toList_ofList] using hle

/-- A substitution joins the pieces by the name. -/
theorem Pieces.substitute_eq (h : Pieces token text pieces) (ht : token ≠ "") (name : String) :
    substitute text token name = name.intercalate pieces := by
  induction h with
  | last hnone => rw [substitute_of_not_occurs hnone, String.intercalate_singleton]
  | found hfirst hrest ih =>
    rw [hfirst.substitute_eq ht, ih]
    cases hrest with
    | last => rw [String.intercalate_cons_cons]
    | found => rw [String.intercalate_cons_cons]

/-- A substitution (`Text.substitute`) is a single pass from the left. The empty token leaves
every text alone; so does one that does not occur. At the first place of any other the name is
put in, and the same is done to what comes behind. So a token that is not empty cuts a text
into pieces in just one way, and whatever the name is, what comes out is these pieces with the
name between them. -/
theorem substitute_single_pass (text token : String) :
    (∀ name, substitute text "" name = text) ∧
    (¬ Occurs token text → ∀ name, substitute text token name = text) ∧
    (token ≠ "" → ∀ before after, StandsFirst token text before after → ∀ name,
      substitute text token name = before ++ name ++ substitute after token name) ∧
    (token ≠ "" → ∃ pieces, Pieces token text pieces ∧
      (∀ pieces', Pieces token text pieces' → pieces' = pieces) ∧
      token.intercalate pieces = text ∧
      ∀ name, substitute text token name = name.intercalate pieces) := by
  refine ⟨substitute_empty_token text, substitute_of_not_occurs,
    fun ht _ _ hfirst => hfirst.substitute_eq ht, fun ht => ?_⟩
  obtain ⟨pieces, hpieces⟩ := exists_pieces ht text
  exact ⟨pieces, hpieces, fun _ => hpieces.eq, hpieces.intercalate, hpieces.substitute_eq ht⟩

theorem not_occurs_single : ¬ Occurs "aa" "ab" := by
  rintro ⟨before, after, hsplit⟩
  have hlength := congrArg String.length hsplit
  have htext : "ab".length = 2 := by decide
  have htoken : "aa".length = 2 := by decide
  rw [String.length_append, String.length_append] at hlength
  have hbefore : before = "" := String.length_eq_zero_iff.1 (by omega)
  have hafter : after = "" := String.length_eq_zero_iff.1 (by omega)
  rw [hbefore, hafter] at hsplit
  exact absurd hsplit (by decide)

theorem standsFirst_overlapping : StandsFirst "aa" "baaab" "b" "ab" := by
  refine ⟨by decide, fun left right hsplit => ?_⟩
  refine Nat.one_le_iff_ne_zero.2 fun hzero => ?_
  have hchars := congrArg String.toList hsplit
  rw [String.length_eq_zero_iff.1 hzero, String.toList_append, String.toList_append] at hchars
  exact absurd (List.cons.inj hchars).1 (by decide)

/-- A token that overlaps itself, and a name that contains it: the second token begins within the
first one and is not replaced, nor is any that the name brings along. -/
theorem substitute_single_pass_overlapping : "aa" ≠ "" ∧ StandsFirst "aa" "baaab" "b" "ab" ∧
    ¬ Occurs "aa" "ab" ∧
    substitute "baaab" "aa" "aaa" = "b" ++ "aaa" ++ substitute "ab" "aa" "aaa" ∧
    substitute "ab" "aa" "aaa" = "ab" ∧
    substitute "baaab" "aa" "aaa" = "aaa".intercalate ["b", "ab"] := by
  have ht : "aa" ≠ "" := by decide
  obtain ⟨-, -, hfirst, hpieces⟩ := substitute_single_pass "baaab" "aa"
  obtain ⟨-, hnone, -⟩ := substitute_single_pass "ab" "aa"
  obtain ⟨pieces, -, hunique, -, hjoin⟩ := hpieces ht
  obtain rfl := hunique ["b", "ab"] (.found standsFirst_overlapping (.last not_occurs_single))
  exact ⟨ht, standsFirst_overlapping, not_occurs_single,
    hfirst ht "b" "ab" standsFirst_overlapping "aaa", hnone not_occurs_single "aaa", hjoin "aaa"⟩

end StoryChat.Text
