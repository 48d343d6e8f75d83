/-
# JSON text

A value of the JSON data model and its text over several lines: two blanks for every level, one
entry a line, and collections without entries on one line.

* `Json`: the values that reports need;
* `Json.quoted`: a text between quotes;
* `Json.pretty`: the text of a value.
-/

namespace GoSurface

/-- A JSON value. -/
inductive Json where
  | null
  | number (n : Nat)
  | text (s : String)
  | list (items : List Json)
  | object (fields : List (String × Json))

namespace Json

/-- The lower-case hexadecimal digit of a number below 16. -/
def hexDigit (n : Nat) : Char :=
  Char.ofNat (if n < 10 then '0'.toNat + n else 'a'.toNat + (n - 10))

/-- A character between quotes; only quotes, backslashes and control characters are escaped. -/
def escape (c : Char) : List Char :=
  if c = '"' then ['\\', '"']
  else if c = '\\' then ['\\', '\\']
  else if c = '\n' then ['\\', 'n']
  else if c = '\r' then ['\\', 'r']
  else if c = '\t' then ['\\', 't']
  else if c = '\x08' then ['\\', 'b']
  else if c = '\x0c' then ['\\', 'f']
  else if c.toNat < 0x20 then ['\\', 'u', '0', '0', hexDigit (c.toNat / 16), hexDigit (c.toNat % 16)]
  else [c]

/-- A text between quotes. -/
def quoted (s : String) : String :=
  "\"" ++ String.ofList (s.toList.flatMap escape) ++ "\""

/-- The blanks in front of a line. -/
def indent (level : Nat) : String :=
  String.ofList (List.replicate (2 * level) ' ')

/-- Entries between brackets, one a line. -/
def bracket (level : Nat) (opening closing : String) : List String → String
  | [] => opening ++ closing
  | entries =>
    opening ++ "\n" ++ ",\n".intercalate (entries.map (indent (level + 1) ++ ·)) ++ "\n" ++
      indent level ++ closing

mutual

/-- The text of a value at a level. -/
def prettyAt (level : Nat) : Json → String
  | null => "null"
  | number n => toString n
  | text s => quoted s
  | list items => bracket level "[" "]" (prettyItems (level + 1) items)
  | object fields => bracket level "\x7b" "\x7d" (prettyFields (level + 1) fields)

/-- The texts of some values. -/
def prettyItems (level : Nat) : List Json → List String
  | [] => []
  | j :: js => prettyAt level j :: prettyItems level js

/-- The texts of some fields. -/
def prettyFields (level : Nat) : List (String × Json) → List String
  | [] => []
  | (name, j) :: fs => (quoted name ++ ": " ++ prettyAt level j) :: prettyFields level fs

end

/-- The text of a value. -/
def pretty (j : Json) : String := prettyAt 0 j

end Json

end GoSurface
