import FieldedSearch.Rule

namespace FieldedSearch.Rule

def needsQuotes (value : Text) : Bool :=
  value.isEmpty || Clause.openingQuote value != .bare || value.any isBlank

-- A quoted value cannot hold an odd run of backslashes before a double quote or at its end, so there one more is written.
-- `odd` tells whether such a run may be ending.
def writeQuoted (odd : Bool) : Text → Text
  | [] => if odd then ['\\'] else []
  | '\\' :: r => '\\' :: writeQuoted (!odd) r
  | '"' :: r => (if odd then ['\\'] else []) ++ '\\' :: '"' :: writeQuoted false r
  | c :: r => c :: writeQuoted false r

def writtenValue (value : Text) : Text :=
  if needsQuotes value then '"' :: writeQuoted false value ++ ['"'] else value

def writtenClause (name value : Text) : Text := name ++ ':' :: writtenValue value

def written (rule : Rule) : Text :=
  Text.join [' '] (rule.fields.flatMap fun f => f.values.map (writtenClause f.name))

end FieldedSearch.Rule
