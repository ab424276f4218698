import FieldedSearch.Text.Lowercase

namespace FieldedSearch

inductive CaseMode where
  | fold
  | preserve
  deriving DecidableEq, Repr

namespace CaseMode

def apply : CaseMode → Text → Text
  | .fold,s => s.lowercase
  | .preserve,s => s

def name : CaseMode → Text
  | .fold => "fold".toList
  | .preserve => "preserve".toList

end CaseMode

structure HistoryOptions where
  case : CaseMode
  -- Asks the history search itself to ignore case.
  ignoreCase : Bool
  deriving DecidableEq, Repr

-- Matching folds. The texts that are handed on leave folding to whoever reads them.
structure Options where
  matching : CaseMode
  history : HistoryOptions
  filter : CaseMode
  deriving DecidableEq, Repr

def Options.defaults : Options := ⟨.fold,⟨.preserve,true⟩,.preserve⟩

end FieldedSearch
