import FieldedSearch.Text.Digits

namespace FieldedSearch

namespace Calendar

def isLeapYear (year : Int) : Bool := year % 4 = 0 && (year % 100 ≠ 0 || year % 400 = 0)

def monthLength (year : Int) (month : Nat) : Nat :=
  if month = 2 then if isLeapYear year then 29 else 28
  else if month = 4 || month = 6 || month = 9 || month = 11 then 30
  else 31

-- Floor divisions, so the formula holds before the year zero as well.
def daysBeforeYear (year : Int) : Int :=
  365 * year + (year + 3) / 4 - (year + 99) / 100 + (year + 399) / 400

def daysBeforeMonth (year : Int) : Nat → Nat
  | 0 => 0
  | 1 => 0
  | month + 2 => daysBeforeMonth year (month + 1) + monthLength year (month + 1)

-- The mean year misses the year of a day by one at most.
def yearOfDay (day : Int) : Int :=
  let guess := 400 * day / 146097
  if day < daysBeforeYear guess then guess - 1
  else if daysBeforeYear (guess + 1) ≤ day then guess + 1
  else guess

theorem yearOfDay_bounds (day : Int) :
    daysBeforeYear (yearOfDay day) ≤ day ∧ day < daysBeforeYear (yearOfDay day + 1) := by
  unfold yearOfDay
  dsimp only
  split
  · next early => exact ⟨by unfold daysBeforeYear; omega,by rw [Int.sub_add_cancel]; exact early⟩
  · split
    · next late => exact ⟨late,by unfold daysBeforeYear; omega⟩
    · omega

def monthOfDay (year : Int) : List Nat → Nat → Option (Nat × Nat)
  | [],_ => none
  | month :: later,day =>
      if day < monthLength year month then some (month,day + 1)
      else monthOfDay year later (day - monthLength year month)

def months : List Nat := [1,2,3,4,5,6,7,8,9,10,11,12]

end Calendar

structure Date where
  year : Int
  month : Nat
  day : Nat
  year_range : -9999 ≤ year ∧ year ≤ 9999
  month_range : 1 ≤ month ∧ month ≤ 12
  day_range : 1 ≤ day ∧ day ≤ Calendar.monthLength year month
  deriving DecidableEq

namespace Date

def of? (year : Int) (month day : Nat) : Option Date :=
  if known : (-9999 ≤ year ∧ year ≤ 9999) ∧ (1 ≤ month ∧ month ≤ 12) ∧
      1 ≤ day ∧ day ≤ Calendar.monthLength year month then
    some ⟨year,month,day,known.1,known.2.1,known.2.2⟩
  else none

def dayNumber (d : Date) : Int :=
  Calendar.daysBeforeYear d.year + Calendar.daysBeforeMonth d.year d.month + d.day - 1

def ofDayNumber? (number : Int) : Option Date :=
  let year := Calendar.yearOfDay number
  match Calendar.monthOfDay year Calendar.months (number - Calendar.daysBeforeYear year).toNat with
  | some (month,day) => of? year month day
  | none => none

def addDays? (d : Date) (days : Int) : Option Date := ofDayNumber? (d.dayNumber + days)

-- A day that the new month lacks becomes its last.
def addMonths? (d : Date) (months : Int) : Option Date :=
  let total := 12 * d.year + (d.month - 1 : Int) + months
  let year := total / 12
  let month := (total % 12).toNat + 1
  of? year month (min d.day (Calendar.monthLength year month))

-- Monday is zero. The day zero was a Saturday.
def weekday (d : Date) : Int := (d.dayNumber + 5) % 7

def before (d e : Date) : Prop := d.dayNumber < e.dayNumber

def unixEpoch : Date := ⟨1970,1,1,by decide,by decide,by decide⟩

def text (d : Date) : Text :=
  (if d.year < 0 then '-' :: Text.padded 6 d.year.natAbs else Text.padded 4 d.year.natAbs) ++
    '-' :: Text.padded 2 d.month ++ '-' :: Text.padded 2 d.day

end Date

structure Days where
  first : Date
  last : Date
  deriving DecidableEq

def Days.single (d : Date) : Days := ⟨d,d⟩

end FieldedSearch
