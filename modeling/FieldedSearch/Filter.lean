import FieldedSearch.Options
import FieldedSearch.Rule
import FieldedSearch.Token

namespace FieldedSearch

inductive Comparator where
  | equal
  | like
  deriving DecidableEq, Repr

def Comparator.sign : Comparator → Text
  | .equal => "=".toList
  | .like => "LIKE".toList

structure Comparison where
  column : Text
  comparator : Comparator
  -- Ready to stand between double quotes.
  pattern : Text
  deriving DecidableEq, Repr

namespace Comparison

-- Only what would end the string, or stand for any character under `LIKE`, is protected.
def ofField (case : CaseMode) (f : Field) : Comparison :=
  let tokens := Token.ofValue f.first
  let pattern := (Tokens.likePattern tokens).substitute '"' "\\\"".toList
  if Tokens.hasWildcard tokens then ⟨case.apply f.name,.like,pattern.substitute '_' "\\_".toList⟩
  else ⟨case.apply f.name,.equal,pattern⟩

def text (comparison : Comparison) : Text :=
  '`' :: comparison.column.substitute '`' "``".toList ++ "` ".toList ++ comparison.comparator.sign ++
    " \"".toList ++ comparison.pattern ++ ['"']

end Comparison

namespace Filter

def comparisons (case : CaseMode) (rule : Rule) : List Comparison := rule.fields.map (Comparison.ofField case)

def text : List Comparison → Text
  | [] => "(1)".toList
  | comparisons => '(' :: Text.join " AND ".toList (comparisons.map Comparison.text) ++ [')']

def ofRule (case : CaseMode) (rule : Rule) : Text := text (comparisons case rule)

end Filter
end FieldedSearch
