import Beneficiary.Json.Basic

/-!
# Writing JSON

The compact form has no white space. In strings the quote, the backslash and the control
characters are escaped, five of them by a letter; all other characters stand for themselves.
-/

namespace Beneficiary.Json

open Text

/-- A character inside a string literal. -/
def escaped (c : Char) : List Char :=
  if c = '"' then ['\\', '"']
  else if c = '\\' then ['\\', '\\']
  else if c = '\n' then ['\\', 'n']
  else if c = '\r' then ['\\', 'r']
  else if c = '\t' then ['\\', 't']
  else if c.toNat = 8 then ['\\', 'b']
  else if c.toNat = 12 then ['\\', 'f']
  else if c.toNat < 32 then '\\' :: 'u' :: hexadecimal 4 c.toNat
  else [c]

/-- A string literal. -/
def quoted (s : String) : List Char := '"' :: s.toList.flatMap escaped ++ ['"']

mutual

/-- The compact text of a value. -/
def render : Json → List Char
  | .null => ['n', 'u', 'l', 'l']
  | .bool true => ['t', 'r', 'u', 'e']
  | .bool false => ['f', 'a', 'l', 's', 'e']
  | .number n => n.text.toList
  | .string s => quoted s
  | .array items => '[' :: renderItems items ++ [']']
  | .object fields => '{' :: renderFields fields ++ ['}']

/-- The items of an array with commas between them. -/
def renderItems : List Json → List Char
  | [] => []
  | [item] => render item
  | item :: next :: rest => render item ++ ',' :: renderItems (next :: rest)

/-- The fields of an object with commas between them. -/
def renderFields : List (String × Json) → List Char
  | [] => []
  | [(name, value)] => quoted name ++ ':' :: render value
  | (name, value) :: next :: rest =>
    quoted name ++ ':' :: render value ++ ',' :: renderFields (next :: rest)

end

/-- The compact text of a value as a string. -/
def compact (value : Json) : String := String.ofList (render value)

/-- A line break and an indentation of two spaces a level. -/
def lineBreak (level : Nat) : List Char := '\n' :: List.replicate (2 * level) ' '

mutual

/-- The text of a value over several lines, nested values indented. -/
def renderLines (level : Nat) : Json → List Char
  | .null => ['n', 'u', 'l', 'l']
  | .bool true => ['t', 'r', 'u', 'e']
  | .bool false => ['f', 'a', 'l', 's', 'e']
  | .number n => n.text.toList
  | .string s => quoted s
  | .array [] => ['[', ']']
  | .array (item :: rest) =>
    '[' :: lineBreak (level + 1) ++ renderLines (level + 1) item
      ++ renderMoreItems (level + 1) rest ++ lineBreak level ++ [']']
  | .object [] => ['{', '}']
  | .object ((name, value) :: rest) =>
    '{' :: lineBreak (level + 1) ++ quoted name ++ ':' :: ' ' :: renderLines (level + 1) value
      ++ renderMoreFields (level + 1) rest ++ lineBreak level ++ ['}']

/-- The further items of an array, each after a comma on a line of its own. -/
def renderMoreItems (level : Nat) : List Json → List Char
  | [] => []
  | item :: rest => ',' :: lineBreak level ++ renderLines level item ++ renderMoreItems level rest

/-- The further fields of an object, each after a comma on a line of its own. -/
def renderMoreFields (level : Nat) : List (String × Json) → List Char
  | [] => []
  | (name, value) :: rest =>
    ',' :: lineBreak level ++ quoted name ++ ':' :: ' ' :: renderLines level value
      ++ renderMoreFields level rest

end

/-- The text of a value over several lines as a string. -/
def pretty (value : Json) : String := String.ofList (renderLines 0 value)

end Beneficiary.Json
