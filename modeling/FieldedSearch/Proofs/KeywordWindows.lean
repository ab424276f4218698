import FieldedSearch.Proofs.CalendarPeriods
import FieldedSearch.Proofs.Covering
import FieldedSearch.Proofs.DateReadings

namespace FieldedSearch

open Calendar (Period numberOf)

namespace DateKeyword

-- By the numbers of the first and the last day.
def Window (today first last : Int) : DateKeyword → Prop
  | .today => first = today ∧ last = today
  | .yesterday => first = today - 1 ∧ last = today - 1
  | .thisWeek => Period.week.Around today first last
  | .lastWeek => Period.week.Ahead today first last
  | .thisMonth => Period.month.Around today first last
  | .lastMonth => Period.month.Ahead today first last
  | .thisYear => Period.year.Around today first last
  | .lastYear => Period.year.Ahead today first last
  | .pastWeek => first = today - 7 ∧ last = today
  | .pastMonth => first = today - 30 ∧ last = today
  | .pastYear => first = today - 365 ∧ last = today

-- There is one window, in order, and its days are the ones that are found.
def Spans (window : Int → Int → Prop) (days? : Option Days) : Prop :=
  ∃ first last, (∀ other finish, window other finish ↔ other = first ∧ finish = last) ∧ first ≤ last ∧
    ∀ days, days? = some days ↔ days.first.dayNumber = first ∧ days.last.dayNumber = last

variable {s : Text} {month : Nat} {day first last next finish : Int} {period : Period} {days? : Option Days}

theorem single_exact {day? : Option Date} {number : Int} (exact : ∀ d, day? = some d ↔ d.dayNumber = number)
    (days : Days) : day?.map .single = some days ↔ days.first.dayNumber = number ∧ days.last.dayNumber = number := by
  refine ⟨?_,?_⟩
  · intro found
    obtain ⟨d,known,rfl⟩ := Option.map_eq_some_iff.mp found
    exact ⟨(exact d).mp known,(exact d).mp known⟩
  · intro numbers
    obtain ⟨first,last⟩ := days
    have same : last = first := Date.eq_of_dayNumber (numbers.2.trans numbers.1.symm)
    rw [(exact first).mpr numbers.1,same]
    rfl

theorem pair_exact (first? : Option Date) (last? : Date → Option Date) (days : Days) :
    (first?.bind fun first => (last? first).bind fun last => some (Days.mk first last)) = some days ↔
      first? = some days.first ∧ last? days.first = some days.last := by
  simp only [Option.bind_eq_some_iff,Option.some.injEq]
  refine ⟨?_,?_⟩
  · intro found
    obtain ⟨first,start,last,finish,rfl⟩ := found
    exact ⟨start,finish⟩
  · intro found
    exact ⟨_,found.1,_,found.2,rfl⟩

theorem trailing?_exact (today : Date) (count : Int) (days : Days) : trailing? today count = some days ↔
    days.first.dayNumber = today.dayNumber - count ∧ days.last.dayNumber = today.dayNumber := by
  refine (pair_exact (today.addDays? (-count)) (fun _ => some today) days).trans ?_
  rw [Date.addDays?_exact,Int.sub_eq_add_neg]
  refine and_congr_right fun _ => ⟨?_,?_⟩
  · intro same
    rw [Option.some.inj same]
  · intro number
    rw [Date.eq_of_dayNumber number]

theorem week?_exact (today : Date) (back : Int) (days : Days) : week? today back = some days ↔
    days.first.dayNumber = today.dayNumber - today.weekday - 7 * back ∧
      days.last.dayNumber = today.dayNumber - today.weekday - 7 * back + 6 := by
  refine (pair_exact (today.addDays? (-(today.weekday + 7 * back))) (·.addDays? 6) days).trans ?_
  rw [Date.addDays?_exact,Date.addDays?_exact]
  omega

theorem month?_exact (year : Int) (months : 1 ≤ month ∧ month ≤ 12) (days : Days) : month? year month = some days ↔
    days.first.dayNumber = numberOf year month 1 ∧
      days.last.dayNumber = numberOf year month (Calendar.monthLength year month) := by
  have long : 1 ≤ Calendar.monthLength year month := Nat.le_trans (by decide) (Calendar.monthLength_range year month).1
  refine (pair_exact (Date.of? year month 1) (fun _ => Date.of? year month _) days).trans ?_
  rw [Date.of?_number months ⟨Nat.le_refl 1,long⟩,Date.of?_number months ⟨long,Nat.le_refl _⟩]

theorem year?_exact (year : Int) (days : Days) : year? year = some days ↔
    days.first.dayNumber = numberOf year 1 1 ∧ days.last.dayNumber = numberOf year 12 31 := by
  refine (pair_exact (Date.of? year 1 1) (fun _ => Date.of? year 12 31) days).trans ?_
  rw [Date.of?_number (by decide) (by simp [Calendar.monthLength]),
    Date.of?_number (by decide) (by simp [Calendar.monthLength])]

theorem week_runs (today : Date) (back : Int) : Period.week.Runs (today.dayNumber - today.weekday - 7 * back)
    (today.dayNumber - today.weekday - 7 * back + 6) := by
  unfold Date.weekday
  exact ⟨by omega,rfl⟩

theorem week_around (today : Date) : Period.week.Around today.dayNumber (today.dayNumber - today.weekday - 7 * 0)
    (today.dayNumber - today.weekday - 7 * 0 + 6) := by
  refine ⟨week_runs today 0,?_⟩
  unfold Date.weekday
  omega

theorem month_around (today : Date) : Period.month.Around today.dayNumber (numberOf today.year today.month 1)
    (numberOf today.year today.month (Calendar.monthLength today.year today.month)) := by
  have day := today.day_range
  refine ⟨⟨_,_,today.month_range,rfl,rfl⟩,?_⟩
  unfold numberOf Date.dayNumber
  omega

theorem year_around (today : Date) : Period.year.Around today.dayNumber (numberOf today.year 1 1)
    (numberOf today.year 12 31) := by
  have inside := today.dayNumber_year
  have last := Calendar.year_last today.year
  refine ⟨⟨_,rfl,rfl⟩,?_⟩
  rw [Calendar.year_first]
  omega

theorem spans_around (around : period.Around day first last)
    (found : ∀ days, days? = some days ↔ days.first.dayNumber = first ∧ days.last.dayNumber = last) :
    Spans (fun first last => period.Around day first last) days? :=
  ⟨first,last,Period.around_exact around,around.1.order,found⟩

theorem spans_ahead (around : period.Around day next finish) (runs : period.Runs first last) (joins : last + 1 = next)
    (found : ∀ days, days? = some days ↔ days.first.dayNumber = first ∧ days.last.dayNumber = last) :
    Spans (fun first last => period.Ahead day first last) days? := by
  subst joins
  exact ⟨first,last,Period.ahead_exact around runs,runs.order,found⟩

theorem spans_day {day? : Option Date} (exact : ∀ d, day? = some d ↔ d.dayNumber = day) :
    Spans (fun first last => first = day ∧ last = day) (day?.map .single) :=
  ⟨day,day,fun _ _ => Iff.rfl,Int.le_refl _,single_exact exact⟩

theorem spans_trailing (today : Date) {count : Int} (back : 0 ≤ count) :
    Spans (fun first last => first = today.dayNumber - count ∧ last = today.dayNumber) (trailing? today count) :=
  ⟨_,_,fun _ _ => Iff.rfl,by omega,trailing?_exact today count⟩

theorem days?_spans (today : Date) (keyword : DateKeyword) :
    Spans (keyword.Window today.dayNumber) (keyword.days? today) := by
  cases keyword with
  | today =>
      show Spans _ ((some today).map .single)
      refine spans_day fun d => ⟨?_,?_⟩
      · intro same
        rw [Option.some.inj same]
      · intro number
        rw [Date.eq_of_dayNumber number]
  | yesterday => exact spans_day fun d => today.addDays?_exact d (-1)
  | thisWeek => exact spans_around (week_around today) (week?_exact today 0)
  | lastWeek => exact spans_ahead (week_around today) (week_runs today 1) (by omega) (week?_exact today 1)
  | thisMonth => exact spans_around (month_around today) (month?_exact _ today.month_range)
  | lastMonth =>
      rw [days?]
      split
      · next january =>
          have december : (1 : Nat) ≤ 12 ∧ 12 ≤ 12 := by decide
          refine spans_ahead (month_around today) ⟨_,_,december,rfl,rfl⟩ ?_ (month?_exact (today.year - 1) december)
          rw [show Calendar.monthLength (today.year - 1) 12 = 31 from rfl,Calendar.year_last,january,
            Calendar.year_first,Int.sub_add_cancel]
      · next later =>
          have known := today.month_range
          have months : 1 ≤ today.month - 1 ∧ today.month - 1 ≤ 12 := by omega
          refine spans_ahead (month_around today) ⟨_,_,months,rfl,rfl⟩ ?_ (month?_exact _ months)
          rw [Calendar.month_last _ months.1,Nat.sub_add_cancel known.1]
  | thisYear => exact spans_around (year_around today) (year?_exact _)
  | lastYear =>
      refine spans_ahead (year_around today) ⟨_,rfl,rfl⟩ ?_ (year?_exact _)
      rw [Calendar.year_last,Calendar.year_first,Int.sub_add_cancel]
  | pastWeek => exact spans_trailing today (by decide)
  | pastMonth => exact spans_trailing today (by decide)
  | pastYear => exact spans_trailing today (by decide)

-- Nothing is found exactly where a day of the window is missing.
theorem missing_exact (order : first ≤ last)
    (found : ∀ days, days? = some days ↔ days.first.dayNumber = first ∧ days.last.dayNumber = last) :
    days? = none ↔ ∃ day, first ≤ day ∧ day ≤ last ∧ ∀ d : Date, d.dayNumber ≠ day := by
  refine ⟨?_,?_⟩
  · intro lost
    by_cases starts : ∃ d : Date, d.dayNumber = first
    · obtain ⟨d,start⟩ := starts
      refine ⟨last,order,Int.le_refl _,?_⟩
      intro e finish
      have some := (found ⟨d,e⟩).mpr ⟨start,finish⟩
      rw [lost] at some
      cases some
    · exact ⟨first,Int.le_refl _,order,fun d start => starts ⟨d,start⟩⟩
  · intro outside
    obtain ⟨day,starts,ends,missing⟩ := outside
    cases same : days? with
    | none => rfl
    | some days =>
        obtain ⟨start,finish⟩ := (found days).mp same
        have low := days.first.dayNumber_range.1
        have high := days.last.dayNumber_range.2
        obtain ⟨d,number⟩ : ∃ d : Date, d.dayNumber = day := Date.exists_dayNumber (by omega) (by omega)
        exact absurd number (missing d)

theorem isAlpha_of_lowered {c : Char} (lower : c.toLower.isLower = true) : c.isAlpha = true := by
  refine Bool.or_eq_true_iff.mpr ?_
  unfold Char.toLower at lower
  split at lower
  · next capital => exact .inl (decide_eq_true capital)
  · exact .inr lower

theorem isAlpha_named {c : Char} (letter : c.isAlpha = true) : isNameStart c = true := by
  rw [isNameStart,Char.isAlphanum,letter]
  rfl

-- Letters are ASCII here, so a table of them settles what they are not.
theorem isAlpha_apart {c : Char} (letter : c.isAlpha = true) :
    Unnumbered c ∧ DateLayout.isSeparator c = false ∧ (c.toUpper = 'T' → c.toLower = 't') := by
  have named : isNameChar c = true := by
    rw [isNameChar_or,isAlpha_named letter]
    rfl
  exact Clause.isNameChar_table (p := fun c => c.isAlpha = true → Unnumbered c ∧ DateLayout.isSeparator c = false ∧
    (c.toUpper = 'T' → c.toLower = 't')) (by decide) named letter

-- What begins with a `p` is still no ISO duration.
theorem word_begins (keyword : DateKeyword) : ∃ c d r, keyword.word = c :: d :: r ∧ d ≠ 't' := by
  cases keyword <;> exact ⟨_,_,_,rfl,by decide⟩

theorem read?_word (keyword : DateKeyword) (spelled : s.lowerAscii = keyword.word) : read? s = some keyword := by
  rw [read?,spelled]
  cases keyword <;> rfl

theorem letters_spelled (keyword : DateKeyword) (spelled : s.lowerAscii = keyword.word) : ∀ c ∈ s, c.isAlpha = true := by
  intro c member
  have lowered : c.toLower ∈ s.lowerAscii := List.mem_map_of_mem member
  exact isAlpha_of_lowered (keyword.word_letters _ (spelled ▸ lowered))

-- No later reading gets anything out of a keyword.
theorem resolve_spelled (context : DateContext) (keyword : DateKeyword) (spelled : s.lowerAscii = keyword.word) :
    DateText.resolve context s = (keyword.days? context.today).elim (.error .unrecognized) .ok := by
  have letters := letters_spelled keyword spelled
  have trimmed : s.trim = s :=
    Text.trim_of_solid fun c member => Clause.isNameStart_solid c (isAlpha_named (letters c member))
  have apart := fun c member => isAlpha_apart (letters c member)
  have read := read?_word keyword spelled
  obtain ⟨c,d,r,word,untimed⟩ := keyword.word_begins
  rw [word,Text.lowerAscii,List.map_eq_cons_iff] at spelled
  obtain ⟨first,rest,rfl,_,tail⟩ := spelled
  have filled : first :: rest ≠ [] := List.cons_ne_nil _ _
  have unnumbered := (apart first List.mem_cons_self).1
  cases found : keyword.days? context.today with
  | some days =>
      refine DateText.resolve_keyword filled trimmed ?_
      rw [read,Option.bind_some,found]
  | none =>
      refine DateText.resolve_refused filled trimmed ?_ ?_ ?_ ?_
      · rw [read,Option.bind_some,found]
      · exact DateLayout.date?_unseparated fun c member => (apart c member).2.1
      · exact Moment.read?_unnumbered unnumbered rest
      · refine Duration.read?_unnumbered unnumbered rest ?_
        intro _ second later same
        subst same
        obtain ⟨other,_,timed⟩ := apart second (by simp)
        exact ⟨other,fun time => untimed ((List.cons.inj tail).1.symm.trans (timed time))⟩

theorem keyword_window (context : DateContext) (keyword : DateKeyword) {lead trail : Text}
    (front : lead.OnlyBlank) (behind : trail.OnlyBlank) (spelled : s.lowerAscii = keyword.word) :
    ∃ first last,
      (∀ other finish, keyword.Window context.today.dayNumber other finish ↔ other = first ∧ finish = last) ∧
      first ≤ last ∧
      (∀ days, DateText.resolve context (lead ++ s ++ trail) = .ok days ↔
        days.first.dayNumber = first ∧ days.last.dayNumber = last) ∧
      ∀ error, DateText.resolve context (lead ++ s ++ trail) = .error error ↔ error = .unrecognized ∧
        ∃ day, first ≤ day ∧ day ≤ last ∧ ∀ d : Date, d.dayNumber ≠ day := by
  obtain ⟨first,last,window,order,found⟩ := days?_spans context.today keyword
  have missing := missing_exact order found
  refine ⟨first,last,window,order,?_,?_⟩
  all_goals rw [DateText.resolve_surrounded context front behind,resolve_spelled context keyword spelled]
  · intro days
    rw [← found]
    cases keyword.days? context.today <;> simp
  · intro error
    rw [← missing]
    cases keyword.days? context.today <;> simp [eq_comm]

-- In a January the month before is one of the year before.
theorem keyword_window_december : ∃ days,
    Text.OnlyBlank "\t".toList ∧ Text.OnlyBlank " \n".toList ∧ Text.lowerAscii "LastMonth".toList = lastMonth.word ∧
    Date.of? 1969 12 1 = some days.first ∧ Date.of? 1969 12 31 = some days.last ∧
    DateText.resolve ⟨Date.unixEpoch,.utc⟩ ("\t".toList ++ "LastMonth".toList ++ " \n".toList) = .ok days ∧
    lastMonth.Window Date.unixEpoch.dayNumber days.first.dayNumber days.last.dayNumber := by
  have front : Text.OnlyBlank "\t".toList := by decide
  have behind : Text.OnlyBlank " \n".toList := by decide
  have spelled : Text.lowerAscii "LastMonth".toList = lastMonth.word := rfl
  let december : Days := ⟨⟨1969,12,1,by decide,by decide,by decide⟩,⟨1969,12,31,by decide,by decide,by decide⟩⟩
  have resolved : DateText.resolve ⟨Date.unixEpoch,.utc⟩ ("\t".toList ++ "LastMonth".toList ++ " \n".toList) =
      .ok december := rfl
  obtain ⟨first,last,window,_,found,_⟩ := keyword_window ⟨Date.unixEpoch,.utc⟩ lastMonth front behind spelled
  exact ⟨december,front,behind,spelled,rfl,rfl,resolved,(window _ _).mpr ((found december).mp resolved)⟩

end DateKeyword
end FieldedSearch
