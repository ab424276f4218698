import FieldedSearch.Calendar
import FieldedSearch.Text.Blank

namespace FieldedSearch

inductive TimeUnit where
  | year
  | month
  | week
  | day
  | hour
  | minute
  | second
  | millisecond
  | microsecond
  | nanosecond
  deriving DecidableEq, Repr

namespace TimeUnit

def rank : TimeUnit → Nat
  | .year => 0
  | .month => 1
  | .week => 2
  | .day => 3
  | .hour => 4
  | .minute => 5
  | .second => 6
  | .millisecond => 7
  | .microsecond => 8
  | .nanosecond => 9

-- Zero for units that have no fixed length as a time.
def nanoseconds : TimeUnit → Nat
  | .year => 0
  | .month => 0
  | .week => 0
  | .day => 0
  | .hour => 3600000000000
  | .minute => 60000000000
  | .second => 1000000000
  | .millisecond => 1000000
  | .microsecond => 1000
  | .nanosecond => 1

def isDivisible (unit : TimeUnit) : Bool := 1 < unit.nanoseconds

-- The largest count that can span the calendar, or that fits a signed 64-bit word.
def limit : TimeUnit → Nat
  | .year => 19998
  | .month => 239976
  | .week => 1043497
  | .day => 7304484
  | .hour => 175307616
  | .minute => 10518456960
  | .second => 631107417600
  | .millisecond => 631107417600000
  | .microsecond => 631107417600000000
  | .nanosecond => 9223372036854775807

-- Longer spellings first, so that the first fit is the longest.
def spellings : List (Text × TimeUnit) :=
  [("years".toList,.year),("year".toList,.year),("yrs".toList,.year),("yr".toList,.year),("y".toList,.year),
   ("months".toList,.month),("month".toList,.month),("mos".toList,.month),("mo".toList,.month),
   ("weeks".toList,.week),("week".toList,.week),("wks".toList,.week),("wk".toList,.week),("w".toList,.week),
   ("days".toList,.day),("day".toList,.day),("d".toList,.day),
   ("hours".toList,.hour),("hour".toList,.hour),("hrs".toList,.hour),("hr".toList,.hour),("h".toList,.hour),
   ("minutes".toList,.minute),("minute".toList,.minute),("mins".toList,.minute),("min".toList,.minute),
   ("milliseconds".toList,.millisecond),("millisecond".toList,.millisecond),("millis".toList,.millisecond),
   ("milli".toList,.millisecond),("msecs".toList,.millisecond),("msec".toList,.millisecond),
   ("ms".toList,.millisecond),
   ("microseconds".toList,.microsecond),("microsecond".toList,.microsecond),("micros".toList,.microsecond),
   ("micro".toList,.microsecond),("usecs".toList,.microsecond),("usec".toList,.microsecond),
   ("us".toList,.microsecond),("µsecs".toList,.microsecond),("µsec".toList,.microsecond),
   ("µs".toList,.microsecond),("m".toList,.minute),
   ("seconds".toList,.second),("second".toList,.second),("secs".toList,.second),("sec".toList,.second),
   ("s".toList,.second),
   ("nanoseconds".toList,.nanosecond),("nanosecond".toList,.nanosecond),("nanos".toList,.nanosecond),
   ("nano".toList,.nanosecond),("nsecs".toList,.nanosecond),("nsec".toList,.nanosecond),
   ("ns".toList,.nanosecond)]

def takeSpelling (s : Text) : Option (TimeUnit × Text) :=
  (spellings.find? fun (spelling,_) => spelling.isPrefixOf s).map fun (spelling,unit) =>
    (unit,s.drop spelling.length)

end TimeUnit

structure Amount where
  unit : TimeUnit
  count : Nat
  fraction : Option Nat
  deriving DecidableEq, Repr

structure Duration where
  negative : Bool
  amounts : List Amount
  deriving DecidableEq, Repr

namespace Amount

def isValid (amount : Amount) : Bool :=
  amount.count ≤ amount.unit.limit && (amount.fraction.isNone || amount.unit.isDivisible)

def nanoseconds (amount : Amount) : Nat :=
  amount.count * amount.unit.nanoseconds + amount.fraction.getD 0 * amount.unit.nanoseconds / 1000000000

def months (amount : Amount) : Nat :=
  match amount.unit with
  | .year => 12 * amount.count
  | .month => amount.count
  | _ => 0

def days (amount : Amount) : Nat :=
  match amount.unit with
  | .week => 7 * amount.count
  | .day => amount.count
  | _ => 0

def total (part : Amount → Nat) : List Amount → Nat
  | [] => 0
  | amount :: r => part amount + total part r

-- Larger units first, a fraction only at the end.
def inOrder : List Amount → Bool
  | [] => true
  | [_] => true
  | a :: b :: r => a.unit.rank < b.unit.rank && a.fraction.isNone && inOrder (b :: r)

end Amount

namespace Duration

def sign (span : Duration) : Int := if span.negative then -1 else 1

-- Years and months first. Then weeks and days, and the whole days that the time units add up to.
def addTo? (span : Duration) (today : Date) : Option Date := do
  let moved ← today.addMonths? (span.sign * Amount.total Amount.months span.amounts)
  let time := Amount.total Amount.nanoseconds span.amounts / 86400000000000
  moved.addDays? (span.sign * (Amount.total Amount.days span.amounts + time))

def takeSign : Text → Option Bool × Text
  | '-' :: s => (some true,s)
  | '+' :: s => (some false,s)
  | s => (none,s)

-- At most 21 digits, leading zeros included. No unit fits one more digit behind them.
def takeCount (s : Text) : Option (Nat × Text) :=
  (Text.takeUpTo 21 s).map fun (digits,rest) => (Text.number digits,rest)

-- ISO 8601. A designator means a month before the `T` and a minute after it.

def isoUnit (inTime : Bool) (c : Char) : Option TimeUnit :=
  match inTime,c.toUpper with
  | false,'Y' => some .year
  | false,'M' => some .month
  | false,'W' => some .week
  | false,'D' => some .day
  | true,'H' => some .hour
  | true,'M' => some .minute
  | true,'S' => some .second
  | _,_ => none

def isoAmounts (inTime : Bool) : Text → Option (List Amount)
  | [] => some []
  | c :: r =>
      if !inTime && c.toUpper = 'T' then
        if r.isEmpty then none else isoAmounts true r
      else
        match takeCount (c :: r) with
        | some (count,after) =>
            match Text.takeFraction after with
            | some (fraction,designator :: rest) =>
                match isoUnit inTime designator with
                | some unit =>
                    if rest.length < (c :: r).length then (isoAmounts inTime rest).map (⟨unit,count,fraction⟩ :: ·)
                    else none
                | none => none
            | _ => none
        | none => none
termination_by s => s.length
decreasing_by
  · exact Nat.lt_succ_self _
  · assumption

def iso? (s : Text) : Option Duration :=
  match takeSign s with
  | (sign,c :: rest) =>
      if c.toUpper = 'P' && !rest.isEmpty then (isoAmounts false rest).map fun amounts => ⟨sign = some true,amounts⟩
      else none
  | _ => none

def dropSpace (s : Text) : Text := s.dropWhile isAsciiBlank

def takeClock (hours : Nat) : Text → Option (List Amount × Text)
  | ':' :: s => do
      let (minutes,s) ← takeCount s
      match s with
      | ':' :: s =>
          let (seconds,s) ← takeCount s
          let (fraction,s) ← Text.takeFraction s
          some ([⟨.hour,hours,none⟩,⟨.minute,minutes,none⟩,⟨.second,seconds,fraction⟩],s)
      | _ => none
  | _ => none

-- A comma needs a blank behind it and promises another amount.
def takeComma : Text → Option (Bool × Text)
  | ',' :: c :: s => if isAsciiBlank c then some (true,s) else none
  | [','] => none
  | s => some (false,s)

def takeAmounts (s : Text) : Option (List Amount × Text) :=
  match takeCount s with
  | none => none
  | some (count,after) =>
      match takeClock count after with
      | some clock => some clock
      | none => do
          let (fraction,after) ← Text.takeFraction after
          let (unit,after) ← TimeUnit.takeSpelling (dropSpace after)
          let (comma,after) ← takeComma after
          let amount : Amount := ⟨unit,count,fraction⟩
          let next := dropSpace after
          if fraction.isNone && (takeCount next).isSome then
            if next.length < s.length then (takeAmounts next).map fun (amounts,rest) => (amount :: amounts,rest)
            else none
          else if comma then none
          else some ([amount],after)
termination_by s.length
decreasing_by assumption

def worded? (s : Text) : Option Duration := do
  let (sign,s) := takeSign s
  let (amounts,rest) ← takeAmounts s
  match rest with
  | [] => some ⟨sign = some true,amounts⟩
  | c :: rest =>
      if isAsciiBlank c && dropSpace rest = "ago".toList && sign.isNone then some ⟨true,amounts⟩
      else none

def read? (s : Text) : Option Duration :=
  let first := (takeSign s).2.head?
  let span? := if first = some 'P' || first = some 'p' then iso? s else worded? s
  span?.filter fun span => span.amounts.all Amount.isValid && Amount.inOrder span.amounts

end Duration
end FieldedSearch
