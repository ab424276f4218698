import FieldedSearch.Json.Value

namespace FieldedSearch.Json

def hexDigit (n : Nat) : Char := if n < 10 then Char.ofNat (48 + n) else Char.ofNat (87 + n)

def writtenChar (c : Char) : Text :=
  if c = '"' then "\\\"".toList
  else if c = '\\' then "\\\\".toList
  else if c = '\x08' then "\\b".toList
  else if c = '\x0c' then "\\f".toList
  else if c = '\n' then "\\n".toList
  else if c = '\r' then "\\r".toList
  else if c = '\t' then "\\t".toList
  else if c.toNat < 0x20 then "\\u00".toList ++ [hexDigit (c.toNat / 16),hexDigit (c.toNat % 16)]
  else [c]

def writtenString (s : Text) : Text := '"' :: s.flatMap writtenChar ++ ['"']

mutual

def written : Json → Text
  | .null => "null".toList
  | .bool true => "true".toList
  | .bool false => "false".toList
  | .number value => value.text
  | .string text => writtenString text
  | .array items => '[' :: writtenItems items ++ [']']
  | .object members => '\x7b' :: writtenMembers members ++ ['\x7d']

def writtenItems : List Json → Text
  | [] => []
  | [item] => written item
  | item :: next :: r => written item ++ ',' :: writtenItems (next :: r)

def writtenMembers : List (Text × Json) → Text
  | [] => []
  | [(key,value)] => writtenString key ++ ':' :: written value
  | (key,value) :: next :: r => writtenString key ++ ':' :: written value ++ ',' :: writtenMembers (next :: r)

end

def newline (level : Nat) : Text := '\n' :: List.replicate (2 * level) ' '

mutual

def indented (level : Nat) : Json → Text
  | .array [] => "[]".toList
  | .array (item :: r) => '[' :: indentedItems (level + 1) (item :: r) ++ newline level ++ [']']
  | .object [] => "\x7b\x7d".toList
  | .object (member :: r) => '\x7b' :: indentedMembers (level + 1) (member :: r) ++ newline level ++ ['\x7d']
  | scalar => written scalar

def indentedItems (level : Nat) : List Json → Text
  | [] => []
  | [item] => newline level ++ indented level item
  | item :: next :: r => newline level ++ indented level item ++ ',' :: indentedItems level (next :: r)

def indentedMembers (level : Nat) : List (Text × Json) → Text
  | [] => []
  | [(key,value)] => newline level ++ writtenString key ++ ": ".toList ++ indented level value
  | (key,value) :: next :: r =>
      newline level ++ writtenString key ++ ": ".toList ++ indented level value ++ ',' :: indentedMembers level (next :: r)

end

end FieldedSearch.Json
