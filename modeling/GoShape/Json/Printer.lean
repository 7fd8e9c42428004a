import GoShape.Json.Basic

/-! Values written as text: on one line without blanks, or with a line for each part. -/
namespace GoShape.Json

/-- Quotes, backslashes and control characters are escaped, the common ones by a letter. -/
def escape (c : Char) : List Char :=
  if c = '"' then ['\\', '"']
  else if c = '\\' then ['\\', '\\']
  else if c = '\x08' then ['\\', 'b']
  else if c = '\x0c' then ['\\', 'f']
  else if c = '\n' then ['\\', 'n']
  else if c = '\r' then ['\\', 'r']
  else if c = '\t' then ['\\', 't']
  else if c.toNat < 0x20 then
    ['\\', 'u', '0', '0', Nat.digitChar (c.toNat / 16), Nat.digitChar (c.toNat % 16)]
  else [c]

/-- A string in its quotes. -/
def quote (s : String) : String := String.ofList ('"' :: s.toList.flatMap escape ++ ['"'])

mutual

def compact : Json → String
  | .null => "null"
  | .bool b => if b then "true" else "false"
  | .number n => n.text
  | .string s => quote s
  | .array items => "[" ++ compactItems items ++ "]"
  | .object members => "\x7b" ++ compactMembers members ++ "\x7d"

def compactItems : List Json → String
  | [] => ""
  | [v] => compact v
  | v :: vs => compact v ++ "," ++ compactItems vs

def compactMembers : List (String × Json) → String
  | [] => ""
  | [(k, v)] => quote k ++ ":" ++ compact v
  | (k, v) :: ms => quote k ++ ":" ++ compact v ++ "," ++ compactMembers ms

end

/-- The beginning of a line inside `depth` brackets. -/
def newLine (depth : Nat) : String := String.ofList ('\n' :: List.replicate (2 * depth) ' ')

mutual

/-- A value inside `depth` brackets, with a line for each item and member. -/
def pretty (depth : Nat) : Json → String
  | .array [] => "[]"
  | .array (v :: vs) =>
    "[" ++ newLine (depth + 1) ++ pretty (depth + 1) v ++ prettyItems (depth + 1) vs ++
      newLine depth ++ "]"
  | .object [] => "\x7b\x7d"
  | .object ((k, v) :: ms) =>
    "\x7b" ++ newLine (depth + 1) ++ quote k ++ ": " ++ pretty (depth + 1) v ++
      prettyMembers (depth + 1) ms ++ newLine depth ++ "\x7d"
  | .null => "null"
  | .bool b => if b then "true" else "false"
  | .number n => n.text
  | .string s => quote s

/-- The items behind the first. -/
def prettyItems (depth : Nat) : List Json → String
  | [] => ""
  | v :: vs => "," ++ newLine depth ++ pretty depth v ++ prettyItems depth vs

/-- The members behind the first. -/
def prettyMembers (depth : Nat) : List (String × Json) → String
  | [] => ""
  | (k, v) :: ms =>
    "," ++ newLine depth ++ quote k ++ ": " ++ pretty depth v ++ prettyMembers depth ms

end

end GoShape.Json
