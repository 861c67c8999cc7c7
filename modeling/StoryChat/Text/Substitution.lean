/-
Replacing a token by a name.

Script text carries a token where the player's name goes (`substitute`). The
substitution is a single pass from the left (`replaceToken`): at each place the token is
either there, and then the name is put in and reading goes on behind the token, or it is
not, and then one character is kept. What has been put in is never read again, so a name
that contains the token is harmless.
-/

set_option autoImplicit false

namespace StoryChat.Text

/-- `text` with each token `t :: ts` replaced by `name`, from the left (`str::replace`). -/
def replaceToken (t : Char) (ts name : List Char) (text : List Char) : List Char :=
  match text with
  | [] => []
  | c :: cs =>
    if (t :: ts).isPrefixOf (c :: cs) then
      name ++ replaceToken t ts name (cs.drop ts.length)
    else c :: replaceToken t ts name cs
termination_by text.length
decreasing_by
  · simp only [List.length_cons, List.length_drop]; omega
  · simp

/-- `text` with every occurrence of `token` replaced by `name` (`substitute_name`). The empty
token stands nowhere. -/
def substitute (text token name : String) : String :=
  match token.toList with
  | [] => text
  | t :: ts => String.ofList (replaceToken t ts name.toList text.toList)

@[simp] theorem substitute_empty_token (text name : String) : substitute text "" name = text := by
  simp [substitute]

@[simp] theorem replaceToken_nil (t : Char) (ts name : List Char) :
    replaceToken t ts name [] = [] := by
  simp [replaceToken]

/-- Where the token stands, the name is put in and reading goes on behind it. -/
theorem replaceToken_token_append (t : Char) (ts name rest : List Char) :
    replaceToken t ts name (t :: ts ++ rest) = name ++ replaceToken t ts name rest := by
  rw [List.cons_append, replaceToken]
  simp

end StoryChat.Text
