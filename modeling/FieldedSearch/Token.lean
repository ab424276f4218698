import FieldedSearch.Text

namespace FieldedSearch

inductive Token where
  | wildcard
  | literal (text : Text)
  deriving DecidableEq, Repr

namespace Token

-- Neighbouring literal characters share a token, so literals are never empty and never meet.
def prepend (c : Char) : List Token → List Token
  | .literal s :: r => .literal (c :: s) :: r
  | r => .literal [c] :: r

-- `\*` and `\\` are the only escapes. Any other backslash is a character like the rest.
def ofValue : Text → List Token
  | [] => []
  | '\\' :: '*' :: r => prepend '*' (ofValue r)
  | '\\' :: '\\' :: r => prepend '\\' (ofValue r)
  | c :: r => if c = '*' then .wildcard :: ofValue r else prepend c (ofValue r)

def isWildcard : Token → Bool
  | .wildcard => true
  | .literal _ => false

def mapText (f : Text → Text) : Token → Token
  | .wildcard => .wildcard
  | .literal s => .literal (f s)

def written : Token → Text
  | .wildcard => ['*']
  | .literal s => Text.escape (fun c => c = '\\' || c = '*') s

def plain : Token → Text
  | .wildcard => ['*']
  | .literal s => s

def isRegexMark (c : Char) : Bool := "\\.+*?()|[]\x7b\x7d^$#&-~".toList.contains c

def regex : Token → Text
  | .wildcard => ".*".toList
  | .literal s => Text.escape isRegexMark s

def likePattern : Token → Text
  | .wildcard => ['%']
  | .literal s => s

def literalText : Token → Text
  | .wildcard => []
  | .literal s => s

end Token

namespace Tokens

def hasWildcard (tokens : List Token) : Bool := tokens.any Token.isWildcard

def written (tokens : List Token) : Text := tokens.flatMap Token.written

def plain (tokens : List Token) : Text := tokens.flatMap Token.plain

def regex (tokens : List Token) : Text := '^' :: tokens.flatMap Token.regex ++ ['$']

-- Literals are verbatim here. Whoever puts the pattern into a clause protects it.
def likePattern (tokens : List Token) : Text := tokens.flatMap Token.likePattern

def literalText (tokens : List Token) : Text := tokens.flatMap Token.literalText

end Tokens
end FieldedSearch
