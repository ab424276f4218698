import FieldedSearch.Text

namespace FieldedSearch.History

-- Only the marks that values are likely to hold are protected.
def patternChar (c : Char) : Text :=
  if c = '\\' || c = '$' || c = '.' || c = '[' then ['\\',c]
  else if c = '*' then ".*".toList
  else [c]

def pattern (value : Text) : Text := value.flatMap patternChar

-- Any of the values. No value at all restricts nothing.
def anyOf : List Text → Text
  | [] => ".*".toList
  | [value] => pattern value
  | values => '(' :: Text.join ['|'] (values.map pattern) ++ [')']

-- Whole lines `Name <email>`: a value with `<` is the line, one with `@` the email, any other the name.
def authorPattern (value : Text) : Text :=
  if value.contains '<' then '^' :: pattern value ++ ['$']
  else if value.contains '@' then "^.* <".toList ++ pattern value ++ ">$".toList
  else '^' :: pattern value ++ " <.*>$".toList

-- Trailers were once written with another prefix, so a field without one matches both spellings.
def trailerPrefix (field : Text) : Text :=
  if "x-vp-".toList.isPrefixOf field.lowerAscii then []
  else if "vp-".toList.isPrefixOf field.lowerAscii then "(X-)?".toList
  else "(X-VP-|VP-)".toList

def trailerPattern (field : Text) (values : List Text) : Text :=
  '^' :: trailerPrefix field ++ pattern field ++ ": (".toList ++ Text.join ['|'] (values.map pattern) ++ ")$".toList

end FieldedSearch.History
