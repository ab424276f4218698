import FieldedSearch.Glob
import FieldedSearch.Options
import FieldedSearch.Rule
import FieldedSearch.Text.Folding

namespace FieldedSearch

-- Names with texts, as they were given. A later pair hides an earlier one of the same name.
abbrev Record := List (Text × Text)

-- Which patterns the engine of regular expressions builds. It refuses those that grow too large.
structure Engine where
  builds : CaseMode → Text → Bool

def Engine.unlimited : Engine := ⟨fun _ _ => true⟩

namespace Record

def lookup? (case : CaseMode) (record : Record) (name : Text) : Option Text :=
  (record.reverse.find? fun pair => case.apply pair.1 = case.apply name).map Prod.snd

-- A glob compares character by character, so here folding may not change their number.
def globMatches : CaseMode → List Token → Text → Bool
  | .fold,tokens,actual => Glob.accepts (tokens.map (·.mapText (·.map foldChar))) (actual.map foldChar)
  | .preserve,tokens,actual => Glob.accepts tokens actual

-- A pattern that is not built matches nothing.
def valueMatches (engine : Engine) (case : CaseMode) (expected actual : Text) : Bool :=
  let tokens := Token.ofValue expected
  if Tokens.hasWildcard tokens then engine.builds case (Tokens.regex tokens) && globMatches case tokens actual
  else case.apply (Tokens.literalText tokens) = case.apply actual

-- The first value written for a field is the one that counts.
def satisfies (engine : Engine) (case : CaseMode) (record : Record) (rule : Rule) : Bool :=
  rule.fields.all fun f =>
    match record.lookup? case f.name with
    | some actual => valueMatches engine case f.first actual
    | none => false

def satisfiesAny (engine : Engine) (case : CaseMode) (record : Record) (rules : List Rule) : Bool :=
  rules.any (record.satisfies engine case)

end Record
end FieldedSearch
