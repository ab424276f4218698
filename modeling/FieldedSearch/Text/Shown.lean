import FieldedSearch.Text
import FieldedSearch.Text.HiddenTable

namespace FieldedSearch.Text

def hexDigits (n : Nat) : Text := Nat.toDigits 16 n

def shownChar (c : Char) : Text :=
  match c with
  | '\x00' => "\\0".toList
  | '\t' => "\\t".toList
  | '\r' => "\\r".toList
  | '\n' => "\\n".toList
  | '"' => "\\\"".toList
  | '\\' => "\\\\".toList
  | c => if hiddenCodes.holds c then "\\u\x7b".toList ++ hexDigits c.toNat ++ "\x7d".toList else [c]

def shown (s : Text) : Text := '"' :: s.flatMap shownChar ++ ['"']

end FieldedSearch.Text
