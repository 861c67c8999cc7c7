/-
Writing JSON.

A document is written without blanks, its fields in their order (`Json.render`). In
strings only what must be escaped is (`escapeChar`): the quote, the backslash and the
control characters, five of which have a letter and the others four hexadecimal digits.
-/
import StoryChat.Json.Reader

set_option autoImplicit false

namespace StoryChat.Json

/-- The character of a hexadecimal digit, in lower case. -/
def hexChar (n : Nat) : Char := Char.ofNat (if n < 10 then 48 + n else 87 + n)

/-- A character as it stands in a string. -/
def escapeChar (c : Char) : List Char :=
  if c = '"' then ['\\', '"']
  else if c = '\\' then ['\\', '\\']
  else if c = '\x08' then ['\\', 'b']
  else if c = '\x0c' then ['\\', 'f']
  else if c = '\n' then ['\\', 'n']
  else if c = '\r' then ['\\', 'r']
  else if c = '\t' then ['\\', 't']
  else if c.toNat < 32 then
    ['\\', 'u', '0', '0', hexChar (c.toNat / 16), hexChar (c.toNat % 16)]
  else [c]

/-- The characters of a token. A string that spells no text is written empty. -/
def Token.chars : Token → List Char
  | .null => ['n', 'u', 'l', 'l']
  | .bool true => ['t', 'r', 'u', 'e']
  | .bool false => ['f', 'a', 'l', 's', 'e']
  | .number n => n.chars
  | .text s => '"' :: ((s.getD "").toList.flatMap escapeChar ++ ['"'])
  | .openArray => ['[']
  | .closeArray => [']']
  | .openObject => ['\x7b']
  | .closeObject => ['\x7d']
  | .comma => [',']
  | .colon => [':']

/-- The tokens of a document. -/
def tokens : Json → List Token
  | .null => [.null]
  | .bool b => [.bool b]
  | .number n => [.number n]
  | .text s => [.text s]
  | .array items => .openArray :: (itemTokens items ++ [.closeArray])
  | .object fields => .openObject :: (fieldTokens fields ++ [.closeObject])
where
  itemTokens : List Json → List Token
    | [] => []
    | [j] => tokens j
    | j :: rest => tokens j ++ .comma :: itemTokens rest
  fieldTokens : List (Option String × Json) → List Token
    | [] => []
    | [(k, j)] => .text k :: .colon :: tokens j
    | (k, j) :: rest => .text k :: .colon :: (tokens j ++ .comma :: fieldTokens rest)

/-- The text of a document (`serde_json::to_string`). -/
def render (j : Json) : String := String.ofList (j.tokens.flatMap Token.chars)

end StoryChat.Json
