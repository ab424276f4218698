import FieldedSearch.DateText

namespace FieldedSearch.History

inductive DateBound where
  | after (day : Date)
  | before (day : Date)
  | fromStart (day : Date)
  | toEnd (day : Date)
  deriving DecidableEq

inductive DateComparison where
  | less
  | lessOrEqual
  | greater
  | greaterOrEqual
  | within
  deriving DecidableEq, Repr

namespace DateBound

def Admits (day : Date) : DateBound → Prop
  | .after bound => bound.before day
  | .before bound => day.before bound
  | .fromStart bound => ¬day.before bound
  | .toEnd bound => ¬bound.before day

-- The operator counts only in front of everything, blanks included.
def takeComparison : Text → DateComparison × Text
  | '<' :: '=' :: s => (.lessOrEqual,s)
  | '>' :: '=' :: s => (.greaterOrEqual,s)
  | '<' :: s => (.less,s)
  | '>' :: s => (.greater,s)
  | s => (.within,s)

def side? (context : DateContext) (s : Text) : Option Days :=
  let s := s.trim
  if s.isEmpty || s = ['*'] then none else (DateText.resolve context s).toOption

-- The search excludes the day that it is given, so an inclusive bound is widened by a day, or left out where there is no
-- day to widen to.
def notBefore (day : Date) : List DateBound := ((day.addDays? (-1)).map .after).toList
def notAfter (day : Date) : List DateBound := ((day.addDays? 1).map .before).toList

def ofComparison (days : Days) : DateComparison → List DateBound
  | .less => [.before days.first]
  | .lessOrEqual => notAfter days.last
  | .greater => [.after days.last]
  | .greaterOrEqual => notBefore days.first
  | .within => [.fromStart days.first,.toEnd days.last]

def ofValue (context : DateContext) (value : Text) : List DateBound :=
  match Text.splitOnce "..".toList value with
  | some (lower,upper) =>
      ((side? context lower).map fun days => notBefore days.first).getD [] ++
        ((side? context upper).map fun days => notAfter days.last).getD []
  | none =>
      let (comparison,s) := takeComparison value
      ((side? context s).map fun days => ofComparison days comparison).getD []

end DateBound
end FieldedSearch.History
