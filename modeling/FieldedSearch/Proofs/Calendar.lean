import FieldedSearch.Calendar

namespace FieldedSearch
namespace Calendar

variable {year : Int}

theorem monthLength_range (year : Int) (month : Nat) : 28 ≤ monthLength year month ∧ monthLength year month ≤ 31 := by
  unfold monthLength
  repeat' split
  all_goals omega

theorem daysBeforeMonth_succ (year : Int) {month : Nat} (positive : 1 ≤ month) :
    daysBeforeMonth year (month + 1) = daysBeforeMonth year month + monthLength year month := by
  cases month with
  | zero => cases positive
  | succ month => rfl

theorem daysBeforeMonth_mono (year : Int) {month later : Nat} (positive : 1 ≤ month) (order : month ≤ later) :
    daysBeforeMonth year month ≤ daysBeforeMonth year later := by
  induction order with
  | refl => exact Nat.le_refl _
  | step order ih => rw [daysBeforeMonth_succ year (Nat.le_trans positive order)]; omega

theorem daysBeforeMonth_lt (year : Int) {month later : Nat} (positive : 1 ≤ month) (order : month < later) :
    daysBeforeMonth year month + monthLength year month ≤ daysBeforeMonth year later := by
  rw [← daysBeforeMonth_succ year positive]
  exact daysBeforeMonth_mono year (Nat.le_succ_of_le positive) order

theorem daysBeforeYear_succ (year : Int) :
    daysBeforeYear (year + 1) = daysBeforeYear year + daysBeforeMonth year 13 := by
  have months : (daysBeforeMonth year 13 : Int) = 337 + monthLength year 2 := by
    simp [daysBeforeMonth,monthLength]
    omega
  rw [months]
  cases leap : isLeapYear year with
  | true =>
      have length : monthLength year 2 = 29 := by simp [monthLength,leap]
      simp only [isLeapYear,Bool.and_eq_true,Bool.or_eq_true,decide_eq_true_eq] at leap
      rw [length]
      unfold daysBeforeYear
      omega
  | false =>
      have length : monthLength year 2 = 28 := by simp [monthLength,leap]
      simp only [isLeapYear,Bool.and_eq_false_iff,Bool.or_eq_false_iff,decide_eq_false_iff_not] at leap
      rw [length]
      unfold daysBeforeYear
      omega

theorem daysBeforeYear_mono {later : Int} (order : year ≤ later) : daysBeforeYear year ≤ daysBeforeYear later := by
  unfold daysBeforeYear
  omega

theorem yearOfDay_unique {day : Int} (starts : daysBeforeYear year ≤ day) (ends : day < daysBeforeYear (year + 1)) :
    yearOfDay day = year := by
  obtain ⟨own,next⟩ := yearOfDay_bounds day
  rcases Int.lt_trichotomy (yearOfDay day) year with early | same | late
  · have := daysBeforeYear_mono (show yearOfDay day + 1 ≤ year by omega)
    omega
  · exact same
  · have := daysBeforeYear_mono (show year + 1 ≤ yearOfDay day by omega)
    omega

-- The search for a month runs through consecutive ones, and `n` counts from the first of them.
theorem monthOfDay_exact (year : Int) (count first n month day : Nat) (positive : 1 ≤ first) :
    monthOfDay year (List.range' first count) n = some (month,day) ↔ (first ≤ month ∧ month < first + count) ∧
      n + daysBeforeMonth year first + 1 = daysBeforeMonth year month + day ∧
      1 ≤ day ∧ day ≤ monthLength year month := by
  induction count generalizing first n with
  | zero =>
      refine iff_of_false (by simp [monthOfDay]) ?_
      intro placed
      omega
  | succ count ih =>
      have step := daysBeforeMonth_succ year positive
      rw [List.range'_succ,monthOfDay]
      split
      · next inside =>
          simp only [Option.some.injEq,Prod.mk.injEq]
          constructor
          · rintro ⟨rfl,rfl⟩
            omega
          · rintro ⟨⟨low,_⟩,position,_,_⟩
            have same : first = month := by
              rcases Nat.eq_or_lt_of_le low with same | later
              · exact same
              · have := daysBeforeMonth_lt year positive later
                omega
            subst same
            omega
      · next outside =>
          rw [ih (first + 1) _ (Nat.le_succ_of_le positive)]
          constructor
          · rintro ⟨range,position,rest⟩
            omega
          · rintro ⟨⟨low,high⟩,position,rest⟩
            have later : first ≠ month := by
              rintro rfl
              omega
            omega

theorem monthOfDay_some (year : Int) (count first n : Nat) (positive : 1 ≤ first)
    (inside : n + daysBeforeMonth year first < daysBeforeMonth year (first + count)) :
    ∃ month day, monthOfDay year (List.range' first count) n = some (month,day) := by
  induction count generalizing first n with
  | zero => exact absurd inside (by rw [Nat.add_zero]; omega)
  | succ count ih =>
      rw [List.range'_succ,monthOfDay]
      split
      · exact ⟨_,_,rfl⟩
      · apply ih (first + 1) _ (Nat.le_succ_of_le positive)
        have step := daysBeforeMonth_succ year positive
        rw [show first + 1 + count = first + (count + 1) by omega]
        omega

end Calendar

namespace Date
open Calendar

theorem of?_exact (year : Int) (month day : Nat) (d : Date) :
    of? year month day = some d ↔ d.year = year ∧ d.month = month ∧ d.day = day := by
  unfold of?
  split
  · constructor
    · intro same; cases same; exact ⟨rfl,rfl,rfl⟩
    · rintro ⟨rfl,rfl,rfl⟩; rfl
  · next unknown =>
      constructor
      · intro same; cases same
      · rintro ⟨rfl,rfl,rfl⟩
        exact absurd ⟨d.year_range,d.month_range,d.day_range⟩ unknown

theorem daysBeforeMonth_day (d : Date) : daysBeforeMonth d.year d.month + d.day ≤ daysBeforeMonth d.year 13 := by
  have month := daysBeforeMonth_lt d.year d.month_range.1 (show d.month < 13 from Nat.lt_succ_of_le d.month_range.2)
  have day := d.day_range.2
  omega

theorem dayNumber_year (d : Date) :
    daysBeforeYear d.year ≤ d.dayNumber ∧ d.dayNumber < daysBeforeYear (d.year + 1) := by
  have inside := d.daysBeforeMonth_day
  have day := d.day_range.1
  rw [daysBeforeYear_succ]
  unfold dayNumber
  omega

theorem yearOfDay_dayNumber (d : Date) : yearOfDay d.dayNumber = d.year :=
  yearOfDay_unique d.dayNumber_year.1 d.dayNumber_year.2

theorem ofDayNumber?_exact (number : Int) (d : Date) : ofDayNumber? number = some d ↔ d.dayNumber = number := by
  have search := monthOfDay_exact (yearOfDay number) 12 1
    (number - daysBeforeYear (yearOfDay number)).toNat d.month d.day (Nat.le_refl 1)
  obtain ⟨starts,_⟩ := yearOfDay_bounds number
  constructor
  · intro found
    unfold ofDayNumber? at found
    dsimp only at found
    split at found
    · next month day position =>
        obtain ⟨year,rfl,rfl⟩ := (of?_exact _ _ _ _).mp found
        have placed := (search.mp position).2.1
        rw [← year] at placed starts
        simp only [daysBeforeMonth] at placed
        unfold dayNumber
        omega
    · cases found
  · rintro rfl
    have position : monthOfDay (yearOfDay d.dayNumber) months
        (d.dayNumber - daysBeforeYear (yearOfDay d.dayNumber)).toNat = some (d.month,d.day) := by
      refine search.mpr ⟨⟨d.month_range.1,Nat.lt_succ_of_le d.month_range.2⟩,?_,d.day_range.1,?_⟩
      · have day := d.day_range.1
        rw [yearOfDay_dayNumber]
        simp only [daysBeforeMonth]
        unfold dayNumber
        omega
      · rw [yearOfDay_dayNumber]; exact d.day_range.2
    unfold ofDayNumber?
    simp only [position]
    exact (of?_exact _ _ _ _).mpr ⟨d.yearOfDay_dayNumber.symm,rfl,rfl⟩

theorem eq_of_dayNumber {d e : Date} (same : d.dayNumber = e.dayNumber) : d = e := by
  have found := (ofDayNumber?_exact e.dayNumber d).mpr same
  rw [(ofDayNumber?_exact e.dayNumber e).mpr rfl] at found
  exact (Option.some.inj found).symm

def firstNumber : Int := daysBeforeYear (-9999)
def endNumber : Int := daysBeforeYear 10000

theorem dayNumber_range (d : Date) : firstNumber ≤ d.dayNumber ∧ d.dayNumber < endNumber := by
  have year := d.year_range
  exact ⟨Int.le_trans (daysBeforeYear_mono year.1) d.dayNumber_year.1,
    Int.lt_of_lt_of_le d.dayNumber_year.2 (daysBeforeYear_mono (by omega))⟩

theorem exists_dayNumber {number : Int} (starts : firstNumber ≤ number) (ends : number < endNumber) :
    ∃ d : Date, d.dayNumber = number := by
  obtain ⟨own,next⟩ := yearOfDay_bounds number
  have range : -9999 ≤ yearOfDay number ∧ yearOfDay number ≤ 9999 := by
    constructor
    · apply Int.le_of_not_gt
      intro early
      have := daysBeforeYear_mono (show yearOfDay number + 1 ≤ -9999 by omega)
      exact absurd starts (by unfold firstNumber; omega)
    · apply Int.le_of_not_gt
      intro late
      have := daysBeforeYear_mono (show 10000 ≤ yearOfDay number by omega)
      exact absurd ends (by unfold endNumber; omega)
  have inside : (number - daysBeforeYear (yearOfDay number)).toNat < daysBeforeMonth (yearOfDay number) 13 := by
    rw [daysBeforeYear_succ] at next
    omega
  obtain ⟨month,day,position⟩ := monthOfDay_some (yearOfDay number) 12 1
    (number - daysBeforeYear (yearOfDay number)).toNat (Nat.le_refl 1) inside
  obtain ⟨months,placed,days⟩ := (monthOfDay_exact _ 12 1 _ _ _ (Nat.le_refl 1)).mp position
  have month_range : 1 ≤ month ∧ month ≤ 12 := by omega
  refine ⟨⟨_,month,day,range,month_range,days⟩,?_⟩
  simp only [daysBeforeMonth] at placed
  unfold dayNumber
  dsimp only
  omega

theorem addDays?_exact (d e : Date) (days : Int) : d.addDays? days = some e ↔ e.dayNumber = d.dayNumber + days :=
  ofDayNumber?_exact _ _

theorem addDays?_none (d : Date) (days : Int) (lost : d.addDays? days = none) :
    d.dayNumber + days < firstNumber ∨ endNumber ≤ d.dayNumber + days := by
  rcases Int.lt_or_le (d.dayNumber + days) firstNumber with early | starts
  · exact .inl early
  · rcases Int.lt_or_le (d.dayNumber + days) endNumber with ends | late
    · obtain ⟨e,number⟩ := exists_dayNumber starts ends
      rw [(d.addDays?_exact e days).mpr number] at lost
      cases lost
    · exact .inr late

def Earlier (d e : Date) : Prop :=
  d.year < e.year ∨ d.year = e.year ∧ (d.month < e.month ∨ d.month = e.month ∧ d.day < e.day)

theorem before_of_earlier {d e : Date} (order : d.Earlier e) : d.before e := by
  unfold before
  rcases order with year | ⟨year,month | ⟨month,day⟩⟩
  · have := daysBeforeYear_mono (show d.year + 1 ≤ e.year by omega)
    have := d.dayNumber_year.2
    have := e.dayNumber_year.1
    omega
  · have := daysBeforeMonth_lt e.year d.month_range.1 month
    have := d.day_range.2
    have := e.day_range.1
    unfold dayNumber
    rw [year] at *
    omega
  · unfold dayNumber
    rw [year,month]
    omega

theorem before_exact (d e : Date) : d.before e ↔ d.Earlier e := by
  constructor
  · intro order
    apply Classical.byContradiction
    intro not
    have cases : e.Earlier d ∨ d.year = e.year ∧ d.month = e.month ∧ d.day = e.day := by
      unfold Earlier at not ⊢
      omega
    unfold before at order
    rcases cases with other | ⟨year,month,day⟩
    · have := before_of_earlier other
      unfold before at this
      omega
    · unfold dayNumber at order
      rw [year,month,day] at order
      omega
  · exact before_of_earlier

end Date
end FieldedSearch
