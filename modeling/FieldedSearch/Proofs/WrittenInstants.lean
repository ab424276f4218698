import FieldedSearch.Proofs.InstantTexts
import FieldedSearch.Proofs.LeadingNumbers

namespace FieldedSearch

namespace Moment

open Duration (EndsNumber)

theorem yearText_cut (d : Date) (long : Bool) : ∃ sign digits, yearText d long = sign ++ digits ∧ IsSign sign ∧
    (∀ c ∈ digits, c.isDigit = true) ∧ (sign = [] ∧ digits.length = 4 ∨ digits.length = 6) := by
  have wide : d.year.natAbs < Nat.pow 10 6 := Nat.lt_trans (year_fits d) (by decide)
  have six := Text.length_padded (by decide) wide
  unfold yearText
  split
  · exact ⟨['-'],_,rfl,.inr (.inl rfl),Text.padded_digits _ _,.inr six⟩
  · split
    · exact ⟨['+'],_,rfl,.inr (.inr rfl),Text.padded_digits _ _,.inr six⟩
    · exact ⟨[],_,rfl,.inl rfl,Text.padded_digits _ _,.inl ⟨rfl,Text.length_padded (by decide) (year_fits d)⟩⟩

theorem Clock.text_begins {hourCount secondCount : Nat} (short : hourCount ≤ 100) (clock : Clock hourCount secondCount)
    (colons : Bool) : ∃ d r, clock.text colons = d :: r ∧ d.isDigit = true := by
  have begins : ∀ h : Fin hourCount, ∃ d r, Text.padded 2 h = d :: r ∧ d.isDigit = true := fun h =>
    Text.padded_begins (by decide) (Nat.lt_of_lt_of_le h.isLt short)
  cases clock with
  | hour h => exact begins h
  | minute h m =>
      obtain ⟨d,r,same,digit⟩ := begins h
      exact ⟨d,_,by rw [text,same]; rfl,digit⟩
  | second h m s fraction =>
      obtain ⟨d,r,same,digit⟩ := begins h
      exact ⟨d,_,by rw [text,same]; rfl,digit⟩

theorem Clock.text_solid {hourCount secondCount : Nat} (clock : Clock hourCount secondCount) (colons : Bool) :
    ∀ c ∈ clock.text colons, isBlank c = false := by
  have number : ∀ n, ∀ c ∈ Text.padded 2 n, isBlank c = false := fun n c member =>
    (isDigit_apart (Text.padded_digits 2 n c member)).1
  have between : ∀ c ∈ joint colons, isBlank c = false := by
    cases colons with
    | false => exact fun c member => nomatch member
    | true => exact List.forall_mem_singleton.mpr rfl
  have behind : ∀ fraction, ∀ c ∈ fractionText fraction, isBlank c = false := by
    intro fraction c member
    cases fraction with
    | none => cases member
    | some fraction =>
        rcases List.mem_cons.mp member with rfl | digit
        · rcases fraction.known with point | comma
          · rw [point]; rfl
          · rw [comma]; rfl
        · exact (isDigit_apart (fraction.decimal c digit)).1
  cases clock with
  | hour h => exact number h
  | minute h m =>
      simp only [text,List.forall_mem_append]
      exact ⟨⟨number h,between⟩,number m⟩
  | second h m s fraction =>
      simp only [text,List.forall_mem_append]
      exact ⟨⟨⟨⟨⟨number h,between⟩,number m⟩,between⟩,number s⟩,behind fraction⟩

theorem WrittenOffset.text_solid (offset : WrittenOffset) :
    offset.text ≠ [] ∧ ∀ c ∈ offset.text, isBlank c = false := by
  cases offset with
  | utc mark known =>
      refine ⟨List.cons_ne_nil _ _,List.forall_mem_singleton.mpr ?_⟩
      rcases known with rfl | rfl <;> rfl
  | fixed west colons clock =>
      refine ⟨List.cons_ne_nil _ _,List.forall_mem_cons.mpr ⟨?_,clock.text_solid colons⟩⟩
      cases west <;> rfl

namespace WrittenInstant

structure Opening (s sign digits : Text) (c : Char) (rest : Text) : Prop where
  cut : s = sign ++ (digits ++ c :: rest)
  signs : IsSign sign
  filled : digits ≠ []
  short : digits.length ≤ 21
  all : ∀ c ∈ digits, c.isDigit = true
  ends : EndsNumber c rest
  undated : DateLayout.date? s = none

variable {s sign digits rest : Text} {c : Char}

theorem Opening.begins (opening : Opening s sign digits c rest) :
    ∃ d r, s = d :: r ∧ isBlank d = false ∧ d.toLower.isLower = false := by
  obtain ⟨d,r,begins⟩ := List.exists_cons_of_ne_nil opening.filled
  obtain ⟨solid,_,_,_,_,unlettered⟩ := isDigit_apart (opening.all d (begins ▸ List.mem_cons_self))
  rw [opening.cut,begins]
  rcases opening.signs with rfl | rfl | rfl
  · exact ⟨d,_,rfl,solid,unlettered⟩
  · exact ⟨'-',_,rfl,by decide,by decide⟩
  · exact ⟨'+',_,rfl,by decide,by decide⟩

-- Without dashes the digits of all three numbers are one.
theorem opening_undashed (d : Date) (long : Bool) (ends : EndsNumber c rest) :
    ∃ sign digits, Opening (dateText d long false ++ c :: rest) sign digits c rest := by
  obtain ⟨sign,year,cut,signs,all,lengths⟩ := yearText_cut d long
  have months := Text.length_padded (by decide : 0 < 2) (month_fits d)
  have days := Text.length_padded (by decide : 0 < 2) (day_fits d)
  have length : (year ++ Text.padded 2 d.month ++ Text.padded 2 d.day).length = year.length + 4 := by
    simp only [List.length_append]
    omega
  have digits : ∀ c ∈ year ++ Text.padded 2 d.month ++ Text.padded 2 d.day, c.isDigit = true := by
    simp only [List.forall_mem_append]
    exact ⟨⟨all,Text.padded_digits _ _⟩,Text.padded_digits _ _⟩
  have whole : dateText d long false ++ c :: rest =
      sign ++ (year ++ Text.padded 2 d.month ++ Text.padded 2 d.day ++ c :: rest) := by simp [dateText,dash,cut]
  refine ⟨_,_,whole,signs,?_,by omega,digits,ends,?_⟩
  · exact List.ne_nil_of_length_pos (by omega)
  · rw [whole]
    exact DateLayout.date?_overrun signs (by omega) digits _

theorem opening_dashed (d : Date) (long : Bool) (ends : EndsNumber c rest) :
    ∃ sign digits tail, Opening (dateText d long true ++ c :: rest) sign digits '-' tail := by
  obtain ⟨sign,year,cut,signs,all,lengths⟩ := yearText_cut d long
  have filled : year ≠ [] := List.ne_nil_of_length_pos (by omega)
  have whole : dateText d long true ++ c :: rest =
      sign ++ (year ++ '-' :: (Text.padded 2 d.month ++ '-' :: (Text.padded 2 d.day ++ c :: rest))) := by
    simp [dateText,dash,cut]
  refine ⟨_,_,_,whole,signs,filled,by omega,all,.inl rfl,?_⟩
  rw [whole]
  rcases lengths with ⟨rfl,length⟩ | length
  · exact DateLayout.date?_timed ⟨filled,Nat.le_of_eq length,all⟩ length
      (DateLayout.numeral_padded (by decide) (month_fits d)) (DateLayout.numeral_padded (by decide) (day_fits d))
      ends.apart.1 rest
  · exact DateLayout.date?_overrun signs (by omega) all _

theorem opening (written : WrittenInstant) : ∃ sign digits c rest, Opening written.text sign digits c rest := by
  obtain ⟨date,long,dashed,mark,marked,colons,clock,offset⟩ := written
  obtain ⟨d,r,begins,digit⟩ := clock.text_begins (by decide) colons
  have ends : EndsNumber mark (clock.text colons ++ offset.text) :=
    .inr ⟨marked,d,r ++ offset.text,by rw [begins]; rfl,digit⟩
  cases dashed with
  | false =>
      obtain ⟨sign,digits,opening⟩ := opening_undashed date long ends
      exact ⟨sign,digits,_,_,opening⟩
  | true =>
      obtain ⟨sign,digits,tail,opening⟩ := opening_dashed date long ends
      exact ⟨sign,digits,_,tail,opening⟩

theorem text_trim (written : WrittenInstant) : written.text.trim = written.text := by
  obtain ⟨sign,digits,c,rest,opening⟩ := written.opening
  obtain ⟨d,r,begins,solid,_⟩ := opening.begins
  refine Text.trim_of_ends ⟨d,r,begins,solid⟩ ?_
  obtain ⟨filled,last⟩ := written.offset.text_solid
  have ends : Text.StartsSolid written.offset.text.reverse := by
    obtain ⟨e,t,same⟩ := List.exists_cons_of_ne_nil (List.reverse_ne_nil_iff.mpr filled)
    exact ⟨e,t,same,last e (List.mem_reverse.mp (same ▸ List.mem_cons_self))⟩
  rw [text,List.reverse_append,List.reverse_cons,List.reverse_append,List.append_assoc,List.append_assoc]
  exact ends.append _

-- Far enough from both ends of the calendar for every zone.
def Timely (written : WrittenInstant) : Prop :=
  written.offset.seconds.natAbs ≤ 93599 ∧ earliestInstant * 1000000000 ≤ written.instant ∧
    written.instant < (latestInstant + 1) * 1000000000

instance (written : WrittenInstant) : Decidable written.Timely := inferInstanceAs (Decidable (_ ∧ _ ∧ _))

def localDay (zone : Zone) (instant : Int) : Int :=
  (instant + zone.offsetAt instant * 1000000000) / (86400 * 1000000000)

theorem resolve_text (context : DateContext) (written : WrittenInstant) : DateText.resolve context written.text =
    (DateText.moment? context written.text).elim (.error .unrecognized) fun d => .ok (.single d) := by
  obtain ⟨sign,digits,c,rest,opening⟩ := written.opening
  obtain ⟨d,r,begins,_,unlettered⟩ := opening.begins
  refine DateText.resolve_moment ?_ written.text_trim ?_ opening.undated ?_
  · rw [begins]
    exact List.cons_ne_nil d r
  · rw [begins]
    exact DateKeyword.read?_unlettered unlettered r
  · rw [opening.cut]
    exact Duration.read?_dated opening.signs opening.filled opening.short opening.all opening.ends

theorem instant?_text (written : WrittenInstant) :
    instant? ⟨written.date,some (written.clock.whole * 1000000000 + written.clock.billionths),
      some written.offset.zone⟩ = if written.Timely then some written.instant else none := by
  have read : ∀ instant : Int,
      instant = (written.date.dayNumber * 86400 - written.offset.seconds) * 1000000000 +
        ((written.clock.whole * 1000000000 + written.clock.billionths : Nat) : Int) →
      instant? ⟨written.date,some (written.clock.whole * 1000000000 + written.clock.billionths),
        some written.offset.zone⟩ =
        if 93599 < written.offset.seconds.natAbs then none
        else if earliestInstant * 1000000000 ≤ instant ∧ instant < (latestInstant + 1) * 1000000000 then some instant
        else none := by
    intro instant same
    rw [same]
    rfl
  have same : written.instant = (written.date.dayNumber * 86400 - written.offset.seconds) * 1000000000 +
      ((written.clock.whole * 1000000000 + written.clock.billionths : Nat) : Int) := by
    unfold instant second
    omega
  rw [read written.instant same]
  by_cases far : 93599 < written.offset.seconds.natAbs
  · rw [if_pos far,if_neg fun timely => Nat.not_lt.mpr timely.1 far]
  · rw [if_neg far]
    simp only [Timely,Nat.not_lt.mp far,true_and]

theorem moment?_text (context : DateContext) (written : WrittenInstant) : DateText.moment? context written.text =
    if written.Timely then dayIn? context.zone written.instant
    else if written.offset.zone = .utc then none else some written.date := by
  have read := written.read?_text
  have instant := written.instant?_text
  rw [DateText.moment?,read]
  simp only [Option.bind_eq_bind,Option.bind_some]
  rw [instant]
  by_cases timely : written.Timely
  · rw [if_pos timely,if_pos timely]
  · rw [if_neg timely,if_neg timely]
    simp only [civilDate?,Option.some.injEq]

theorem dayIn?_timely (zone : Zone) {written : WrittenInstant} (timely : written.Timely) :
    ∃ day : Date, day.dayNumber = localDay zone written.instant ∧ dayIn? zone written.instant = some day := by
  obtain ⟨_,early,late⟩ := timely
  have zoned := zone.bounded written.instant
  have first : Date.firstNumber = -3652059 := rfl
  have last : Date.endNumber = 3652425 := rfl
  unfold earliestInstant at early
  unfold latestInstant at late
  obtain ⟨day,number⟩ : ∃ day : Date, day.dayNumber = localDay zone written.instant := by
    refine Date.exists_dayNumber ?_ ?_
    · rw [first,localDay]
      omega
    · rw [last,localDay]
      omega
  exact ⟨day,number,(Date.ofDayNumber?_exact _ day).mpr number⟩

theorem resolve_untimely (context : DateContext) {written : WrittenInstant} (untimely : ¬written.Timely) :
    DateText.resolve context written.text =
      if written.offset.zone = .utc then .error .unrecognized else .ok (.single written.date) := by
  rw [resolve_text,moment?_text,if_neg untimely]
  split <;> rfl

theorem resolve_timely (context : DateContext) {written : WrittenInstant} (timely : written.Timely) :
    ∃ day : Date, day.dayNumber = localDay context.zone written.instant ∧
      DateText.resolve context written.text = .ok (.single day) := by
  obtain ⟨day,number,found⟩ := dayIn?_timely context.zone timely
  refine ⟨day,number,?_⟩
  rw [resolve_text,moment?_text,if_pos timely,found]
  rfl

-- An instant that is nearer to an end of the calendar is an error with a `Z`. With a numeric offset it is still read then,
-- as the day that is written, whatever the offset and the zone.
theorem instant_resolves (context : DateContext) (written : WrittenInstant) {lead trail : Text}
    (front : lead.OnlyBlank) (behind : trail.OnlyBlank) :
    (written.Timely → ∃ day : Date, day.dayNumber = localDay context.zone written.instant ∧
      DateText.resolve context (lead ++ written.text ++ trail) = .ok (.single day)) ∧
    (¬written.Timely → DateText.resolve context (lead ++ written.text ++ trail) =
      if written.offset.zone = .utc then .error .unrecognized else .ok (.single written.date)) ∧
    ∀ other : WrittenInstant, written.Timely → other.Timely → other.instant = written.instant →
      DateText.resolve context other.text = DateText.resolve context (lead ++ written.text ++ trail) := by
  rw [DateText.resolve_surrounded context front behind]
  refine ⟨resolve_timely context,resolve_untimely context,?_⟩
  intro other timely known same
  obtain ⟨day,number,resolved⟩ := resolve_timely context timely
  obtain ⟨next,again,alike⟩ := resolve_timely context known
  rw [same] at again
  rw [resolved,alike,Date.eq_of_dayNumber (again.trans number.symm)]

-- In UTC, as it is usually written.
def ofMinute (date : Date) (hour : Fin 24) (minute : Fin 60) : WrittenInstant :=
  ⟨date,false,true,'T',rfl,true,.minute hour minute,.utc 'Z' (.inl rfl)⟩

-- The last half hour of a year, an hour west of the reader.
def lateInstant : WrittenInstant :=
  ⟨⟨2019,12,31,by decide,by decide,by decide⟩,false,false,'t',rfl,false,.minute 23 30,.fixed true false (.hour 1)⟩

theorem instant_resolves_next_year : ∃ day : Date, Text.OnlyBlank "\t".toList ∧ Text.OnlyBlank " \n".toList ∧
    lateInstant.Timely ∧ lateInstant.text = "20191231t2330-01".toList ∧ Date.of? 2020 1 1 = some day ∧
    DateText.resolve ⟨Date.unixEpoch,.utc⟩ ("\t".toList ++ lateInstant.text ++ " \n".toList) = .ok (.single day) := by
  have front : Text.OnlyBlank "\t".toList := by decide
  have behind : Text.OnlyBlank " \n".toList := by decide
  have timely : lateInstant.Timely := by decide
  obtain ⟨resolved,_⟩ := instant_resolves ⟨Date.unixEpoch,.utc⟩ lateInstant front behind
  obtain ⟨day,number,found⟩ := resolved timely
  have next : day = ⟨2020,1,1,by decide,by decide,by decide⟩ := Date.eq_of_dayNumber (number.trans (by decide))
  exact ⟨day,front,behind,timely,rfl,by rw [next]; rfl,found⟩

-- One instant of the last days, written with two offsets. Eight hours west it falls on the earlier of the days.
def lastInstant : WrittenInstant :=
  ⟨⟨9999,12,31,by decide,by decide,by decide⟩,false,true,'T',rfl,true,
    .second 0 0 0 none,.fixed false true (.minute 0 0)⟩

def shiftedInstant : WrittenInstant :=
  ⟨⟨9999,12,30,by decide,by decide,by decide⟩,false,true,'T',rfl,true,
    .second 16 0 0 none,.fixed true true (.minute 8 0)⟩

theorem instant_astray :
    lastInstant.text = "9999-12-31T00:00:00+00:00".toList ∧ shiftedInstant.text = "9999-12-30T16:00:00-08:00".toList ∧
      lastInstant.instant = shiftedInstant.instant ∧
      localDay (.fixed (-28800)) lastInstant.instant = shiftedInstant.date.dayNumber ∧
      DateText.resolve ⟨Date.unixEpoch,.fixed (-28800)⟩ lastInstant.text = .ok (.single lastInstant.date) ∧
      DateText.resolve ⟨Date.unixEpoch,.fixed (-28800)⟩ shiftedInstant.text = .ok (.single shiftedInstant.date) ∧
      lastInstant.date ≠ shiftedInstant.date := by
  have last : ¬lastInstant.Timely := by decide
  have shifted : ¬shiftedInstant.Timely := by decide
  refine ⟨rfl,rfl,by decide,by decide,?_,?_,by decide⟩
  · exact resolve_untimely ⟨Date.unixEpoch,.fixed (-28800)⟩ last
  · exact resolve_untimely ⟨Date.unixEpoch,.fixed (-28800)⟩ shifted

end WrittenInstant
end Moment
end FieldedSearch
