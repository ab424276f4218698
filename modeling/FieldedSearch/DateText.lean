import FieldedSearch.DateText.Duration
import FieldedSearch.DateText.Keyword
import FieldedSearch.DateText.Layout
import FieldedSearch.DateText.Moment
import FieldedSearch.Text.Shown

namespace FieldedSearch

structure DateContext where
  today : Date
  zone : Zone

-- By a clock that counts billionths of a second since 1970 in UTC. None once the calendar has ended.
def DateContext.ofClock? (now : Int) (zone : Zone) : Option DateContext :=
  (Moment.dayIn? zone (86400 * 1000000000 * Date.unixEpoch.dayNumber + now)).map fun today => ⟨today,zone⟩

inductive DateError where
  | missing
  | unrecognized
  -- A readable duration that leaves the calendar.
  | outOfRange
  deriving DecidableEq, Repr

def DateError.message : DateError → Text
  | .missing => "date requires a value".toList
  | .unrecognized => "unrecognized date literal".toList
  | .outOfRange => "relative date out of range".toList

def DateError.report (error : DateError) (raw : Text) : Text := error.message ++ ": ".toList ++ raw.shown

namespace DateText

-- An instant that is too early or too late may still be read for its written day.
def moment? (context : DateContext) (s : Text) : Option Date := do
  let moment ← Moment.read? s
  match moment.instant? with
  | some instant => Moment.dayIn? context.zone instant
  | none => moment.civilDate?

-- The readings are tried in this order. A keyword whose span leaves the calendar is not final.
def resolve (context : DateContext) (raw : Text) : Except DateError Days :=
  let s := raw.trim
  if s.isEmpty then .error .missing
  else
    match (DateKeyword.read? s).bind (·.days? context.today) with
    | some days => .ok days
    | none =>
        match (DateLayout.date? s).or (moment? context s) with
        | some date => .ok (.single date)
        | none =>
            match Duration.read? s with
            | some duration =>
                match duration.addTo? context.today with
                | some date => .ok (.single date)
                | none => .error .outOfRange
            | none => .error .unrecognized

end DateText
end FieldedSearch
