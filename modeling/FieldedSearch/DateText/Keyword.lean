import FieldedSearch.Calendar

namespace FieldedSearch

inductive DateKeyword where
  | today
  | yesterday
  | thisWeek
  | lastWeek
  | thisMonth
  | lastMonth
  | thisYear
  | lastYear
  | pastWeek
  | pastMonth
  | pastYear
  deriving DecidableEq, Repr

namespace DateKeyword

def word : DateKeyword → Text
  | .today => "today".toList
  | .yesterday => "yesterday".toList
  | .thisWeek => "thisweek".toList
  | .lastWeek => "lastweek".toList
  | .thisMonth => "thismonth".toList
  | .lastMonth => "lastmonth".toList
  | .thisYear => "thisyear".toList
  | .lastYear => "lastyear".toList
  | .pastWeek => "pastweek".toList
  | .pastMonth => "pastmonth".toList
  | .pastYear => "pastyear".toList

def all : List DateKeyword :=
  [.today,.yesterday,.thisWeek,.lastWeek,.thisMonth,.lastMonth,.thisYear,.lastYear,.pastWeek,.pastMonth,.pastYear]

def read? (s : Text) : Option DateKeyword := all.find? fun keyword => keyword.word = s.lowerAscii

-- Weeks run from Monday to Sunday. `back` counts whole weeks.
def week? (today : Date) (back : Int) : Option Days := do
  let first ← today.addDays? (-(today.weekday + 7 * back))
  let last ← first.addDays? 6
  some ⟨first,last⟩

def month? (year : Int) (month : Nat) : Option Days := do
  let first ← Date.of? year month 1
  let last ← Date.of? year month (Calendar.monthLength year month)
  some ⟨first,last⟩

def year? (year : Int) : Option Days := do
  let first ← Date.of? year 1 1
  let last ← Date.of? year 12 31
  some ⟨first,last⟩

def trailing? (today : Date) (days : Int) : Option Days := do
  let first ← today.addDays? (-days)
  some ⟨first,today⟩

def days? (today : Date) : DateKeyword → Option Days
  | .today => some (.single today)
  | .yesterday => (today.addDays? (-1)).map .single
  | .thisWeek => week? today 0
  | .lastWeek => week? today 1
  | .thisMonth => month? today.year today.month
  | .lastMonth => if today.month = 1 then month? (today.year - 1) 12 else month? today.year (today.month - 1)
  | .thisYear => year? today.year
  | .lastYear => year? (today.year - 1)
  | .pastWeek => trailing? today 7
  | .pastMonth => trailing? today 30
  | .pastYear => trailing? today 365

end DateKeyword
end FieldedSearch
