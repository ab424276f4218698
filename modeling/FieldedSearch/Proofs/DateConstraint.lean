import FieldedSearch.Proofs.Blank
import FieldedSearch.Proofs.BoundText
import FieldedSearch.Proofs.WrittenInstants

namespace FieldedSearch.History

theorem resolve_star (context : DateContext) : DateText.resolve context ['*'] = .error .unrecognized :=
  DateText.resolve_strange (by decide) (by decide) (by decide) (by decide) []

-- An empty side and a star are only two of the texts that denote nothing.
theorem side?_exact (context : DateContext) (s : Text) :
    DateBound.side? context s = (DateText.resolve context s).toOption := by
  simp only [DateBound.side?]
  rw [DateText.resolve_trim]
  split
  · next left =>
      rw [← DateText.resolve_trim]
      rw [Bool.or_eq_true,List.isEmpty_iff,decide_eq_true_eq] at left
      rcases left with none | star
      · have failed : DateText.resolve context [] = .error .missing := rfl
        rw [none,failed]
        rfl
      · rw [star,resolve_star]
        rfl
  · rfl

-- Every day of the calendar has what is asked for by a bound that would lie outside it.
theorem shifted_exact {bound : Date → DateBound} {condition : Prop} {days : Int} (d day : Date)
    (moved : ∀ e : Date, e.dayNumber = d.dayNumber + days → ((bound e).Admits day ↔ condition))
    (lost : d.dayNumber + days < Date.firstNumber ∨ Date.endNumber ≤ d.dayNumber + days → condition) :
    (∀ emitted ∈ ((d.addDays? days).map bound).toList, emitted.Admits day) ↔ condition := by
  cases found : d.addDays? days with
  | none =>
      have always := lost (d.addDays?_none days found)
      simpa using always
  | some e =>
      have same := moved e ((d.addDays?_exact e days).mp found)
      simpa using same

theorem notBefore_exact (d day : Date) : (∀ bound ∈ DateBound.notBefore d, bound.Admits day) ↔ ¬day.before d := by
  have own := d.dayNumber_range
  have other := day.dayNumber_range
  refine shifted_exact d day ?_ ?_
  · intro e number
    simp only [DateBound.Admits,Date.before]
    omega
  · unfold Date.before
    omega

theorem notAfter_exact (d day : Date) : (∀ bound ∈ DateBound.notAfter d, bound.Admits day) ↔ ¬d.before day := by
  have own := d.dayNumber_range
  have other := day.dayNumber_range
  refine shifted_exact d day ?_ ?_
  · intro e number
    simp only [DateBound.Admits,Date.before]
    omega
  · unfold Date.before
    omega

example : DateBound.notAfter ⟨9999,12,31,by decide,by decide,by decide⟩ = [] := by decide

def DateComparison.sign : DateComparison → Text
  | .less => ['<']
  | .lessOrEqual => ['<','=']
  | .greater => ['>']
  | .greaterOrEqual => ['>','=']
  | .within => []

inductive DateConstraint where
  | range (lower upper : Text)
  | compared (comparison : DateComparison) (date : Text)

namespace DateConstraint

def text : DateConstraint → Text
  | .range lower upper => lower ++ "..".toList ++ upper
  | .compared comparison date => comparison.sign ++ date

-- A date text that does not run into the marks around it.
structure Plain (s : Text) : Prop where
  undotted : ¬"..".toList <:+: s
  start : ∀ c r, s = c :: r → c ≠ '<' ∧ c ≠ '>' ∧ c ≠ '=' ∧ c ≠ '.'
  finish : ∀ r, s ≠ r ++ ['.']

def HasPlainDates : DateConstraint → Prop
  | .range lower upper => Plain lower ∧ Plain upper
  | .compared _ date => Plain date

-- What a side asks of a day. Empty, a star or without a denotation it asks nothing.
def Asks (context : DateContext) (s : Text) (condition : Days → Prop) : Prop :=
  s ≠ [] → s ≠ ['*'] → ∀ days, DateText.resolve context s = .ok days → condition days

def Denotes (context : DateContext) (day : Date) : DateConstraint → Prop
  | .range lower upper => Asks context lower (fun days => ¬day.Earlier days.first) ∧
      Asks context upper fun days => ¬days.last.Earlier day
  | .compared .less date => Asks context date fun days => day.Earlier days.first
  | .compared .lessOrEqual date => Asks context date fun days => ¬days.last.Earlier day
  | .compared .greater date => Asks context date fun days => days.last.Earlier day
  | .compared .greaterOrEqual date => Asks context date fun days => ¬day.Earlier days.first
  | .compared .within date => Asks context date fun days => ¬day.Earlier days.first ∧ ¬days.last.Earlier day

variable {lower upper date s : Text} {mark : Text}

theorem splitOnce_none (filled : mark ≠ []) (absent : ¬mark <:+: s) : Text.splitOnce mark s = none := by
  induction s with
  | nil => simp [Text.splitOnce,filled]
  | cons c r ih =>
      rw [List.infix_cons_iff,not_or] at absent
      have unmarked : mark.isPrefixOf (c :: r) = false := by
        rw [← Bool.not_eq_true,List.isPrefixOf_iff_prefix]
        exact absent.1
      simp [Text.splitOnce,unmarked,ih absent.2]

-- Two dots are first where they were put, unless the text before them ends in a dot.
theorem splitOnce_dots (undotted : ¬"..".toList <:+: lower) (finish : ∀ r, lower ≠ r ++ ['.']) (upper : Text) :
    Text.splitOnce "..".toList (lower ++ "..".toList ++ upper) = some (lower,upper) := by
  induction lower with
  | nil => rfl
  | cons c r ih =>
      rw [List.infix_cons_iff,not_or] at undotted
      have unmarked : "..".toList.isPrefixOf (c :: (r ++ "..".toList ++ upper)) = false := by
        cases r with
        | nil =>
            have other : c ≠ '.' := fun same => finish [] (by rw [same]; rfl)
            simp [List.isPrefixOf,Ne.symm other]
        | cons d t =>
            have apart : ¬('.' = c ∧ '.' = d) := by
              rintro ⟨rfl,rfl⟩
              exact undotted.1 (by simp)
            simpa [List.isPrefixOf] using apart
      have inner := ih undotted.2 fun t same => finish (c :: t) (by rw [same]; rfl)
      rw [List.cons_append,List.cons_append,Text.splitOnce,if_neg (Bool.eq_false_iff.mp unmarked),inner]
      rfl

theorem undotted_cons {c : Char} (other : c ≠ '.') (undotted : ¬"..".toList <:+: s) : ¬"..".toList <:+: c :: s := by
  rw [List.infix_cons_iff,not_or]
  exact ⟨fun front => other (List.cons_prefix_cons.mp front).1.symm,undotted⟩

theorem sign_undotted (undotted : ¬"..".toList <:+: date) (comparison : DateComparison) :
    ¬"..".toList <:+: comparison.sign ++ date := by
  cases comparison with
  | less => exact undotted_cons (by decide) undotted
  | lessOrEqual => exact undotted_cons (by decide) (undotted_cons (by decide) undotted)
  | greater => exact undotted_cons (by decide) undotted
  | greaterOrEqual => exact undotted_cons (by decide) (undotted_cons (by decide) undotted)
  | within => exact undotted

theorem takeComparison_sign (plain : Plain date) (comparison : DateComparison) :
    DateBound.takeComparison (comparison.sign ++ date) = (comparison,date) := by
  cases date with
  | nil => cases comparison <;> rfl
  | cons c r =>
      obtain ⟨less,greater,equal,_⟩ := plain.start c r rfl
      cases comparison <;> simp [DateComparison.sign,DateBound.takeComparison,less,greater,equal]

theorem plain_of_undotted {c : Char} {r : Text} (undotted : '.' ∉ c :: r) (start : c ≠ '<' ∧ c ≠ '>' ∧ c ≠ '=') :
    Plain (c :: r) := by
  refine ⟨fun inside => undotted (List.IsInfix.mem (show '.' ∈ "..".toList by decide) inside),?_,?_⟩
  · rintro d t ⟨⟩
    exact ⟨start.1,start.2.1,start.2.2,fun same => undotted (by rw [same]; exact List.mem_cons_self)⟩
  · intro t same
    exact undotted (by rw [same]; simp)

theorem asks_exact (context : DateContext) (s : Text) (condition : Days → Prop) :
    Asks context s condition ↔ ∀ days, DateText.resolve context s = .ok days → condition days := by
  constructor
  · intro asks days denoted
    refine asks ?_ ?_ days denoted
    · rintro rfl; cases denoted
    · rintro rfl; rw [resolve_star] at denoted; cases denoted
  · intro asks _ _ days denoted
    exact asks days denoted

theorem side_exact {bounds : Days → List DateBound} {condition : Days → Prop} {day : Date}
    (exact : ∀ days, (∀ bound ∈ bounds days, bound.Admits day) ↔ condition days) (context : DateContext) (s : Text) :
    (∀ bound ∈ ((DateBound.side? context s).map bounds).getD [],bound.Admits day) ↔ Asks context s condition := by
  rw [asks_exact,side?_exact]
  cases DateText.resolve context s with
  | error error => simp [Except.toOption]
  | ok days => simpa [Except.toOption] using exact days

theorem ofComparison_exact (days : Days) (comparison : DateComparison) (day : Date) :
    (∀ bound ∈ DateBound.ofComparison days comparison, bound.Admits day) ↔ match comparison with
      | .less => day.before days.first
      | .lessOrEqual => ¬days.last.before day
      | .greater => days.last.before day
      | .greaterOrEqual => ¬day.before days.first
      | .within => ¬day.before days.first ∧ ¬days.last.before day := by
  cases comparison with
  | less => simp [DateBound.ofComparison,DateBound.Admits]
  | lessOrEqual => exact notAfter_exact days.last day
  | greater => simp [DateBound.ofComparison,DateBound.Admits]
  | greaterOrEqual => exact notBefore_exact days.first day
  | within => simp [DateBound.ofComparison,DateBound.Admits]

theorem ofValue_exact (context : DateContext) (constraint : DateConstraint) (plain : constraint.HasPlainDates)
    (day : Date) :
    (∀ bound ∈ DateBound.ofValue context constraint.text, bound.Admits day) ↔ constraint.Denotes context day := by
  cases constraint with
  | range lower upper =>
      have low := side_exact (fun days : Days => notBefore_exact days.first day) context lower
      have high := side_exact (fun days : Days => notAfter_exact days.last day) context upper
      simp only [Date.before_exact] at low high
      simp only [DateBound.ofValue,text,splitOnce_dots plain.1.undotted plain.1.finish,List.forall_mem_append,low,high,
        Denotes]
  | compared comparison date =>
      have side := side_exact (fun days : Days => ofComparison_exact days comparison day) context date
      have single := splitOnce_none (by decide) (sign_undotted plain.undotted comparison)
      simp only [DateBound.ofValue,text,single,takeComparison_sign plain,side]
      cases comparison <;> simp only [Denotes,Date.before_exact]

end DateConstraint

-- The days that the arguments of a search let through, by their texts.
def Selects (arguments : List Argument) (day : Date) : Prop :=
  ∀ argument ∈ arguments, ∀ bound, readBound? argument.text = some bound → bound.Admits day

theorem role_date (case : CaseMode) : role (case.apply "date".toList) = .date := by
  cases case <;> decide

theorem arguments_date (options : HistoryOptions) (context : DateContext) (value : Text) :
    arguments options context (Rule.ofPairs [("date".toList,value)]) =
      (if options.ignoreCase then [.ignoreCase] else []) ++ [.allMatch,.extended] ++
        (DateBound.ofValue context value).map .date := by
  have fields : (Rule.ofPairs [("date".toList,value)]).fields = [⟨"date".toList,value,[]⟩] := rfl
  simp only [arguments,fields,ruleArguments,role_date]
  simp [fieldArguments,Field.values]

theorem selects_exact (options : HistoryOptions) (context : DateContext) (value : Text) (day : Date) :
    Selects (arguments options context (Rule.ofPairs [("date".toList,value)])) day ↔
      ∀ bound ∈ DateBound.ofValue context value, bound.Admits day := by
  have flags : ∀ argument ∈ (if options.ignoreCase then [Argument.ignoreCase] else []) ++ [.allMatch,.extended],
      readBound? argument.text = none := by
    cases options.ignoreCase <;> decide
  rw [arguments_date]
  constructor
  · intro selects bound member
    exact selects (.date bound) (by simp [member]) bound (readBound?_text bound)
  · intro admits argument member bound read
    rcases List.mem_append.mp member with flag | emitted
    · rw [flags argument flag] at read
      cases read
    · obtain ⟨own,inside,rfl⟩ := List.mem_map.mp emitted
      cases (readBound?_text own).symm.trans read
      exact admits _ inside

theorem date_selects_exact (options : HistoryOptions) (context : DateContext) (constraint : DateConstraint)
    (plain : constraint.HasPlainDates) (day : Date) :
    Selects (arguments options context (Rule.ofPairs [("date".toList,constraint.text)])) day ↔
      constraint.Denotes context day := by
  rw [selects_exact]
  exact DateConstraint.ofValue_exact context constraint plain day

-- Half past four in UTC. Between two such nights clocks go forward, from five hours behind UTC to four.
def nightInstant (day : Date) : Moment.WrittenInstant := .ofMinute day ⟨4,by decide⟩ ⟨30,by decide⟩

def forwardZone : Zone := .ofOffsets fun instant =>
  if instant < (nightInstant ⟨2024,3,10,by decide,by decide,by decide⟩).instant + 9000000000000 then -18000 else -14400

def nights : DateConstraint := .range "2024-03-10T04:30Z".toList "2024-03-11T04:30Z".toList

theorem nights_plain : nights.HasPlainDates :=
  ⟨DateConstraint.plain_of_undotted (by decide) (by decide),DateConstraint.plain_of_undotted (by decide) (by decide)⟩

theorem resolve_night (day own : Date) (timely : (nightInstant day).Timely)
    (same : own.dayNumber = Moment.WrittenInstant.localDay forwardZone (nightInstant day).instant) :
    DateText.resolve ⟨Date.unixEpoch,forwardZone⟩ (nightInstant day).text = .ok (.single own) := by
  obtain ⟨found,number,resolved⟩ :=
    Moment.WrittenInstant.resolve_timely ⟨Date.unixEpoch,forwardZone⟩ timely
  rw [resolved,Date.eq_of_dayNumber (number.trans same.symm)]

-- The first night is still the ninth there, the second one no longer the tenth. No fixed offset makes this of them.
theorem date_selects_clock_change :
    nights.HasPlainDates ∧
    DateBound.ofValue ⟨Date.unixEpoch,forwardZone⟩ nights.text =
      [.after ⟨2024,3,8,by decide,by decide,by decide⟩,.before ⟨2024,3,12,by decide,by decide,by decide⟩] ∧
    ∀ day : Date, (Selects (arguments Options.defaults.history ⟨Date.unixEpoch,forwardZone⟩
      (Rule.ofPairs [("date".toList,nights.text)])) day ↔
        day.year = 2024 ∧ day.month = 3 ∧ 9 ≤ day.day ∧ day.day ≤ 11) := by
  have lower := resolve_night ⟨2024,3,10,by decide,by decide,by decide⟩ ⟨2024,3,9,by decide,by decide,by decide⟩
    (by decide) (by decide)
  have upper := resolve_night ⟨2024,3,11,by decide,by decide,by decide⟩ ⟨2024,3,11,by decide,by decide,by decide⟩
    (by decide) (by decide)
  have first : (nightInstant ⟨2024,3,10,by decide,by decide,by decide⟩).text = "2024-03-10T04:30Z".toList := rfl
  have second : (nightInstant ⟨2024,3,11,by decide,by decide,by decide⟩).text = "2024-03-11T04:30Z".toList := rfl
  rw [first] at lower
  rw [second] at upper
  refine ⟨nights_plain,?_,fun day => ?_⟩
  · have cut := DateConstraint.splitOnce_dots nights_plain.1.undotted nights_plain.1.finish "2024-03-11T04:30Z".toList
    rw [nights,DateConstraint.text,DateBound.ofValue,cut]
    simp only [side?_exact,lower,upper]
    rfl
  · rw [date_selects_exact _ _ _ nights_plain]
    simp only [nights,DateConstraint.Denotes,DateConstraint.asks_exact,lower,upper,Except.ok.injEq,forall_eq',Days.single,
      Date.Earlier]
    omega

end FieldedSearch.History
