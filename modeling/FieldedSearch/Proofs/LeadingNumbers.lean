import FieldedSearch.Proofs.WrittenDates

namespace FieldedSearch

variable {s rest sign digits : Text} {c mark : Char}

def IsSign (sign : Text) : Prop := sign = [] ∨ sign = ['-'] ∨ sign = ['+']

theorem Text.takeUpTo_full {limit : Nat} (positive : 0 < limit) (length : digits.length = limit)
    (all : ∀ c ∈ digits, c.isDigit = true) (rest : Text) : takeUpTo limit (digits ++ rest) = some (digits,rest) := by
  have front : (digits ++ rest).take limit = digits := List.take_left' length
  have read : digits.takeWhile Char.isDigit = digits := by
    simpa using @List.takeWhile_append_of_pos _ _ digits [] all
  have filled : digits ≠ [] := by
    rintro rfl
    exact Nat.ne_of_lt positive length
  simp [takeUpTo,front,read,filled]

namespace DateLayout

variable {separator d : Char} {spelled next : Spelled} {part : DatePart} {r : Text}

theorem takeAll_stopped (other : d ≠ separator) (read : takePart spelled s part = some (next,d :: r))
    (later : DatePart) (layout : DateLayout) : takeAll separator spelled s (part :: later :: layout) = none := by
  rw [takeAll,read]
  exact if_neg other

theorem takeAll_overrun (known : isSeparator separator = true) (digit : d.isDigit = true)
    (read : takePart spelled s part = some (next,d :: r)) (later : DatePart) (layout : DateLayout) :
    takeAll separator spelled s (part :: later :: layout) = none := by
  refine takeAll_stopped ?_ read later layout
  rintro rfl
  rw [undigited known] at digit
  cases digit

theorem takeNumber_overrun {limit : Nat} (positive : 0 < limit) (long : limit < digits.length)
    (all : ∀ c ∈ digits, c.isDigit = true) (rest : Text) :
    ∃ n d r, takeNumber limit (digits ++ rest) = some (n,d :: r) ∧ d.isDigit = true := by
  obtain ⟨first,later,begins⟩ := List.exists_cons_of_length_pos (Nat.lt_trans positive long)
  have solid : (digits ++ rest).dropWhile isAsciiBlank = digits ++ rest := by
    have digit := all first (begins ▸ List.mem_cons_self)
    rw [begins]
    exact dropWhile_digit digit (later ++ rest)
  obtain ⟨d,r,behind⟩ := List.exists_cons_of_length_pos (l := digits.drop limit) (by rw [List.length_drop]; omega)
  have front : (digits.take limit).length = limit := List.length_take_of_le (Nat.le_of_lt long)
  have read := Text.takeUpTo_full positive front (fun c member => all c (List.mem_of_mem_take member)) (d :: r ++ rest)
  rw [← behind,← List.append_assoc,List.take_append_drop,behind] at read
  refine ⟨Text.number (digits.take limit),d,r ++ rest,?_,all d (List.mem_of_mem_drop (behind ▸ List.mem_cons_self))⟩
  rw [takeNumber,solid,read]
  rfl

theorem takePart_overrun (long : width part < digits.length) (all : ∀ c ∈ digits, c.isDigit = true)
    (spelled : Spelled) (rest : Text) :
    ∃ next d r, takePart spelled (digits ++ rest) part = some (next,d :: r) ∧ d.isDigit = true := by
  cases part with
  | year =>
      obtain ⟨n,d,r,read,digit⟩ := takeNumber_overrun (by decide : 0 < 4) long all rest
      obtain ⟨first,later,begins⟩ := List.exists_cons_of_length_pos (Nat.lt_of_le_of_lt (Nat.zero_le _) long)
      obtain ⟨_,_,_,minus,plus,_⟩ := isDigit_apart (all first (begins ▸ List.mem_cons_self))
      refine ⟨{ spelled with year := n },d,r,?_,digit⟩
      rw [begins,List.cons_append] at read ⊢
      simp [takePart,takeYear,minus,plus,read]
  | month =>
      obtain ⟨n,d,r,read,digit⟩ := takeNumber_overrun (by decide : 0 < 2) long all rest
      exact ⟨{ spelled with month := n },d,r,by rw [takePart,read]; rfl,digit⟩
  | day =>
      obtain ⟨n,d,r,read,digit⟩ := takeNumber_overrun (by decide : 0 < 2) long all rest
      exact ⟨{ spelled with day := n },d,r,by rw [takePart,read]; rfl,digit⟩

theorem takePart_signed (signed : sign = ['-'] ∨ sign = ['+']) (long : 4 < digits.length)
    (all : ∀ c ∈ digits, c.isDigit = true) (spelled : Spelled) (rest : Text) (part : DatePart) :
    takePart spelled (sign ++ (digits ++ rest)) part = none ∨
      ∃ next d r, takePart spelled (sign ++ (digits ++ rest)) part = some (next,d :: r) ∧ d.isDigit = true := by
  obtain ⟨n,d,r,read,digit⟩ := takeNumber_overrun (by decide) long all rest
  have absent : ∀ s, Text.takeUpTo 2 (sign ++ s) = none := by
    intro s
    rcases signed with rfl | rfl <;> exact Text.takeUpTo_undigited (by decide) 1 s
  have solid : ∀ s, (sign ++ s).dropWhile isAsciiBlank = sign ++ s := by
    intro s
    rcases signed with rfl | rfl <;> rfl
  cases part with
  | year =>
      right
      rcases signed with rfl | rfl
      · exact ⟨{ spelled with year := -(n : Int) },d,r,by simp [takePart,takeYear,read],digit⟩
      · exact ⟨{ spelled with year := n },d,r,by simp [takePart,takeYear,read],digit⟩
  | month => exact .inl (by rw [takePart,takeNumber,solid,absent]; rfl)
  | day => exact .inl (by rw [takePart,takeNumber,solid,absent]; rfl)

theorem date?_overrun (signs : IsSign sign) (long : 4 < digits.length) (all : ∀ c ∈ digits, c.isDigit = true)
    (rest : Text) : date? (sign ++ (digits ++ rest)) = none := by
  refine date?_refused fun separator known => ?_
  have stuck : ∀ spelled part later layout,
      takeAll separator spelled (sign ++ (digits ++ rest)) (part :: later :: layout) = none := by
    intro spelled part later layout
    have taken : takePart spelled (sign ++ (digits ++ rest)) part = none ∨
        ∃ next d r, takePart spelled (sign ++ (digits ++ rest)) part = some (next,d :: r) ∧ d.isDigit = true := by
      rcases signs with rfl | signed
      · have wide : width part ≤ 4 := by cases part <;> decide
        exact .inr (takePart_overrun (Nat.lt_of_le_of_lt wide long) all spelled rest)
      · exact takePart_signed signed long all spelled rest part
    rcases taken with none | ⟨next,d,r,read,digit⟩
    · rw [takeAll,none]
      rfl
    · exact takeAll_overrun known digit read later layout
  unfold ofSeparator
  split <;> simp [stuck]

-- Where the year fits, the whole date may, but there is something behind it.
theorem date?_timed {year month day : Text} (first : Numeral 4 year) (full : year.length = 4) (second : Numeral 2 month)
    (third : Numeral 2 day) (undigit : mark.isDigit = false) (rest : Text) :
    date? (year ++ '-' :: (month ++ '-' :: (day ++ mark :: rest))) = none := by
  refine date?_refused fun separator known => ?_
  have dashed : ∀ s c r, '-' :: s = c :: r → c.isDigit = false := by
    rintro s c r ⟨⟩
    rfl
  have stuck : ∀ part, width part = 2 → ∀ later layout, takeAll separator ⟨0,0,0⟩
      (year ++ '-' :: (month ++ '-' :: (day ++ mark :: rest))) (part :: later :: layout) = none := by
    intro part narrow later layout
    have long : width part < year.length := by rw [narrow,full]; decide
    obtain ⟨next,d,r,read,digit⟩ := takePart_overrun long first.digits ⟨0,0,0⟩
      ('-' :: (month ++ '-' :: (day ++ mark :: rest)))
    exact takeAll_overrun known digit read later layout
  have whole : takeAll separator ⟨0,0,0⟩ (year ++ '-' :: (month ++ '-' :: (day ++ mark :: rest)))
      [.year,.month,.day] = none := by
    have years := takePart_append (show Numeral (width .year) year from first)
      (dashed (month ++ '-' :: (day ++ mark :: rest))) ⟨0,0,0⟩
    by_cases own : '-' = separator
    · subst own
      have stops : ∀ c r, mark :: rest = c :: r → c.isDigit = false := by
        rintro c r ⟨⟩
        exact undigit
      have months := takePart_append (show Numeral (width .month) month from second) (dashed (day ++ mark :: rest))
      have days := takePart_append (show Numeral (width .day) day from third) stops
      simp [takeAll,years,months,days]
    · exact takeAll_stopped own years .month [.day]
  have month := stuck .month rfl
  have day := stuck .day rfl
  unfold ofSeparator
  split <;> simp [whole,month,day]

end DateLayout

namespace Duration

def StartsUnit (c : Char) : Bool := !(c.isDigit || c = '-' || c = 'T' || c = 't')

theorem takeSpelling_absent (other : StartsUnit c = false) (rest : Text) :
    TimeUnit.takeSpelling (c :: rest) = none := by
  have begins : ∀ entry ∈ TimeUnit.spellings, entry.1.head?.any StartsUnit = true := by decide
  rw [TimeUnit.takeSpelling,List.find?_eq_none.mpr]
  · rfl
  · rintro ⟨spelling,unit⟩ member fits
    have starts := begins _ member
    cases spelling with
    | nil => cases starts
    | cons d r =>
        have same : d = c := (List.cons_prefix_cons.mp (List.isPrefixOf_iff_prefix.mp fits)).1
        subst same
        exact Bool.false_ne_true (other.symm.trans starts)

def EndsNumber (c : Char) (rest : Text) : Prop :=
  c = '-' ∨ Moment.isTimeMark c = true ∧ ∃ d r, rest = d :: r ∧ d.isDigit = true

theorem EndsNumber.apart (ends : EndsNumber c rest) :
    c.isDigit = false ∧ c ≠ ':' ∧ c ≠ '.' ∧ c ≠ ',' := by
  rcases ends with rfl | ⟨mark,_⟩
  · decide
  · simp only [Moment.isTimeMark,Bool.or_eq_true,decide_eq_true_eq] at mark
    rcases mark with (rfl | rfl) | rfl <;> decide

theorem EndsNumber.unspelled (ends : EndsNumber c rest) : TimeUnit.takeSpelling (dropSpace (c :: rest)) = none := by
  rcases ends with rfl | ⟨mark,d,r,rfl,digit⟩
  · exact takeSpelling_absent (by decide) rest
  · simp only [Moment.isTimeMark,Bool.or_eq_true,decide_eq_true_eq] at mark
    rcases mark with (rfl | rfl) | rfl
    · exact takeSpelling_absent (by decide) (d :: r)
    · exact takeSpelling_absent (by decide) (d :: r)
    · have solid : dropSpace (' ' :: d :: r) = d :: r := dropWhile_digit digit r
      rw [solid]
      exact takeSpelling_absent (by simp [StartsUnit,digit]) r

theorem takeAmounts_dated (filled : digits ≠ []) (short : digits.length ≤ 21) (all : ∀ c ∈ digits, c.isDigit = true)
    (ends : EndsNumber c rest) : takeAmounts (digits ++ c :: rest) = none := by
  obtain ⟨undigit,colon,point,comma⟩ := ends.apart
  have count : takeCount (digits ++ c :: rest) = some (Text.number digits,c :: rest) := by
    rw [takeCount,Text.takeUpTo_append filled short all (by rintro d r ⟨⟩; exact undigit)]
    rfl
  have clock : takeClock (Text.number digits) (c :: rest) = none := by simp [takeClock,colon]
  have fraction : Text.takeFraction (c :: rest) = some (none,c :: rest) := by simp [Text.takeFraction,point,comma]
  rw [takeAmounts,count]
  simp [clock,fraction,ends.unspelled]

theorem read?_dated (signs : IsSign sign) (filled : digits ≠ []) (short : digits.length ≤ 21)
    (all : ∀ c ∈ digits, c.isDigit = true) (ends : EndsNumber c rest) :
    read? (sign ++ (digits ++ c :: rest)) = none := by
  have amounts := takeAmounts_dated filled short all ends
  obtain ⟨d,r,rfl⟩ := List.exists_cons_of_ne_nil filled
  have digit := all d List.mem_cons_self
  obtain ⟨_,_,_,minus,plus,_⟩ := isDigit_apart digit
  have signed : (takeSign (sign ++ (d :: r ++ c :: rest))).2 = d :: r ++ c :: rest := by
    rcases signs with rfl | rfl | rfl
    · simp [takeSign,minus,plus]
    · rfl
    · rfl
  have unmarked : d ≠ 'P' ∧ d ≠ 'p' := by
    refine ⟨?_,?_⟩ <;> rintro rfl <;> cases digit
  have worded : worded? (sign ++ (d :: r ++ c :: rest)) = none := by
    simp only [worded?,signed,amounts]
    rfl
  rw [read?,signed,worded]
  simp [unmarked]

end Duration

end FieldedSearch
