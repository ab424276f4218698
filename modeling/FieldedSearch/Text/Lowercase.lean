import FieldedSearch.Text.CaseTables
import FieldedSearch.Text

namespace FieldedSearch.Text

-- Ignorable characters (accents, apostrophes) do not separate a letter from a sigma.
def meetsCased (s : Text) : Bool :=
  match s.dropWhile CaseTables.ignorable.holds with
  | c :: _ => CaseTables.cased.holds c
  | [] => false

-- A capital sigma at the end of a word, and not alone in it, becomes the final form.
def lowerSigma (before after : Text) : Char :=
  if meetsCased before && !meetsCased after then 'ς' else 'σ'

-- `before` holds the characters already passed, nearest first.
def lowerFrom (before : Text) : Text → Text
  | [] => []
  | c :: r =>
      let lowered :=
        if c = 'Σ' then [lowerSigma before r]
        else if c = 'İ' then ['i','\u0307']
        else [mapChar CaseTables.lower c]
      lowered ++ lowerFrom (c :: before) r

def lowercase (s : Text) : Text := lowerFrom [] s

end FieldedSearch.Text
