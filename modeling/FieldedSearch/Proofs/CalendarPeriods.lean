import FieldedSearch.Proofs.Calendar

namespace FieldedSearch
namespace Calendar

-- The number of a day of any year, whether or not the year has dates.
def numberOf (year : Int) (month day : Nat) : Int := daysBeforeYear year + daysBeforeMonth year month + day - 1

inductive Period where
  | week
  | month
  | year
  deriving DecidableEq, Repr

namespace Period

-- A week begins with a Monday, and the day zero was a Saturday.
def Runs (first last : Int) : Period → Prop
  | .week => (first + 5) % 7 = 0 ∧ last = first + 6
  | .month => ∃ year month, (1 ≤ month ∧ month ≤ 12) ∧
      first = numberOf year month 1 ∧ last = numberOf year month (monthLength year month)
  | .year => ∃ year, first = numberOf year 1 1 ∧ last = numberOf year 12 31

def Around (day first last : Int) (period : Period) : Prop := period.Runs first last ∧ first ≤ day ∧ day ≤ last

def Ahead (day first last : Int) (period : Period) : Prop :=
  period.Runs first last ∧ ∃ next finish, period.Around day next finish ∧ last + 1 = next

end Period

variable {year day first last other finish : Int} {month : Nat} {period : Period}

theorem year_first (year : Int) : numberOf year 1 1 = daysBeforeYear year := by
  unfold numberOf
  simp only [daysBeforeMonth]
  omega

theorem year_last (year : Int) : numberOf year 12 31 + 1 = daysBeforeYear (year + 1) := by
  have december : daysBeforeMonth year 13 = daysBeforeMonth year 12 + 31 := rfl
  rw [daysBeforeYear_succ,december]
  unfold numberOf
  omega

theorem month_last (year : Int) (positive : 1 ≤ month) :
    numberOf year month (monthLength year month) + 1 = numberOf year (month + 1) 1 := by
  unfold numberOf
  rw [daysBeforeMonth_succ year positive]
  omega

theorem day_inside {day : Nat} (months : 1 ≤ month ∧ month ≤ 12) (days : 1 ≤ day ∧ day ≤ monthLength year month) :
    daysBeforeYear year ≤ numberOf year month day ∧ numberOf year month day < daysBeforeYear (year + 1) := by
  have inside := daysBeforeMonth_lt year months.1 (show month < 13 from Nat.lt_succ_of_le months.2)
  rw [daysBeforeYear_succ]
  unfold numberOf
  omega

theorem month_inside (year : Int) (months : 1 ≤ month ∧ month ≤ 12) : daysBeforeYear year ≤ numberOf year month 1 ∧
    numberOf year month (monthLength year month) < daysBeforeYear (year + 1) := by
  have long : 1 ≤ monthLength year month := Nat.le_trans (by decide) (monthLength_range year month).1
  exact ⟨(day_inside months ⟨Nat.le_refl 1,long⟩).1,(day_inside months ⟨long,Nat.le_refl _⟩).2⟩

theorem month_lt (year : Int) {later : Nat} (positive : 1 ≤ month) (order : month < later) :
    numberOf year month (monthLength year month) < numberOf year later 1 := by
  have months := daysBeforeMonth_lt year positive order
  unfold numberOf
  omega

theorem year_agree {second : Int} (own : daysBeforeYear year ≤ day ∧ day < daysBeforeYear (year + 1))
    (same : daysBeforeYear second ≤ day ∧ day < daysBeforeYear (second + 1)) : second = year :=
  (yearOfDay_unique same.1 same.2).symm.trans (yearOfDay_unique own.1 own.2)

theorem Period.Runs.order (runs : period.Runs first last) : first ≤ last := by
  cases period with
  | week => obtain ⟨_,rfl⟩ := runs; omega
  | month =>
      obtain ⟨year,month,_,rfl,rfl⟩ := runs
      have long := (monthLength_range year month).1
      unfold numberOf
      omega
  | year =>
      obtain ⟨year,rfl,rfl⟩ := runs
      rw [year_first]
      unfold numberOf
      omega

theorem Period.Around.unique (own : period.Around day first last) (same : period.Around day other finish) :
    other = first ∧ finish = last := by
  obtain ⟨runs,starts,ends⟩ := own
  obtain ⟨others,begins,stops⟩ := same
  cases period with
  | week =>
      obtain ⟨monday,rfl⟩ := runs
      obtain ⟨first,rfl⟩ := others
      omega
  | month =>
      obtain ⟨year,month,known,rfl,rfl⟩ := runs
      obtain ⟨second,later,range,rfl,rfl⟩ := others
      have left := month_inside year known
      have right := month_inside second range
      have years : second = year := year_agree ⟨Int.le_trans left.1 starts,Int.lt_of_le_of_lt ends left.2⟩ (by omega)
      subst years
      have months : later = month := by
        rcases Nat.lt_trichotomy later month with early | same | late
        · have := month_lt second range.1 early
          omega
        · exact same
        · have := month_lt second known.1 late
          omega
      rw [months]
      exact ⟨rfl,rfl⟩
  | year =>
      obtain ⟨year,rfl,rfl⟩ := runs
      obtain ⟨second,rfl,rfl⟩ := others
      have left := And.intro (year_first year) (year_last year)
      have right := And.intro (year_first second) (year_last second)
      have inside : daysBeforeYear year ≤ day ∧ day < daysBeforeYear (year + 1) := by omega
      have years : second = year := year_agree inside (by omega)
      rw [years]
      exact ⟨rfl,rfl⟩

theorem Period.around_exact (own : period.Around day first last) (other finish : Int) :
    period.Around day other finish ↔ other = first ∧ finish = last := by
  refine ⟨own.unique,?_⟩
  intro same
  obtain ⟨rfl,rfl⟩ := same
  exact own

theorem Period.ahead_exact (own : period.Around day (last + 1) finish) (runs : period.Runs first last)
    (other stop : Int) : period.Ahead day other stop ↔ other = first ∧ stop = last := by
  refine ⟨?_,?_⟩
  · intro ahead
    obtain ⟨others,next,ends,around,joins⟩ := ahead
    have begins := (own.unique around).1
    have same : stop = last := by omega
    subst same
    -- Two periods that end on one day have that day in common.
    have left : period.Around stop first stop := ⟨runs,runs.order,Int.le_refl _⟩
    exact left.unique ⟨others,others.order,Int.le_refl _⟩
  · intro same
    obtain ⟨rfl,rfl⟩ := same
    exact ⟨runs,_,_,own,rfl⟩

end Calendar

namespace Date
open Calendar

theorem of?_number {year : Int} {month day : Nat} (months : 1 ≤ month ∧ month ≤ 12)
    (days : 1 ≤ day ∧ day ≤ monthLength year month) (d : Date) :
    of? year month day = some d ↔ d.dayNumber = numberOf year month day := by
  rw [of?_exact]
  refine ⟨?_,?_⟩
  · intro spelled
    obtain ⟨rfl,rfl,rfl⟩ := spelled
    rfl
  · intro number
    -- The year has dates, since `d` lies in it.
    obtain ⟨starts,ends⟩ := day_inside months days
    have years : d.year = year := by
      rw [← d.yearOfDay_dayNumber,number,yearOfDay_unique starts ends]
    subst years
    have same := eq_of_dayNumber (d := d) (e := ⟨d.year,month,day,d.year_range,months,days⟩) number
    rw [same]
    exact ⟨rfl,rfl,rfl⟩

end Date
end FieldedSearch
