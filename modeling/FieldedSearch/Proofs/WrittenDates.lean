import FieldedSearch.Proofs.Covering
import FieldedSearch.Proofs.DateReadings
import FieldedSearch.Proofs.Digits

namespace FieldedSearch

theorem isDigit_apart {c : Char} (digit : c.isDigit = true) : isBlank c = false ∧ isAsciiBlank c = false ∧
    DateLayout.isSeparator c = false ∧ c ≠ '-' ∧ c ≠ '+' ∧ c.toLower.isLower = false := by
  have named : isNameChar c = true := by simp [isNameChar,Char.isAlphanum,digit]
  exact Clause.isNameChar_table (p := fun c => c.isDigit = true → isBlank c = false ∧ isAsciiBlank c = false ∧
    DateLayout.isSeparator c = false ∧ c ≠ '-' ∧ c ≠ '+' ∧ c.toLower.isLower = false) (by decide) named digit

theorem dropWhile_digit {c : Char} (digit : c.isDigit = true) (r : Text) :
    (c :: r).dropWhile isAsciiBlank = c :: r := by
  rw [List.dropWhile_cons_of_neg]
  rw [(isDigit_apart digit).2.1]
  exact Bool.false_ne_true

namespace DateLayout

variable {d : Date} {zeroed : DatePart → Bool} {separator : Char} {s rest : Text} {limit : Nat} {part : DatePart}
  {layout : DateLayout}

-- Years have four digits. Months and days below ten may have a zero in front.
def partText (d : Date) (zeroed : DatePart → Bool) : DatePart → Text
  | .year => Text.padded 4 d.year.toNat
  | .month => if zeroed .month then Text.padded 2 d.month else Text.decimal d.month
  | .day => if zeroed .day then Text.padded 2 d.day else Text.decimal d.day

def written (d : Date) (zeroed : DatePart → Bool) (separator : Char) (layout : DateLayout) : Text :=
  Text.join [separator] (layout.map (partText d zeroed))

-- Where the year stands last, the layout that is tried first, or a day that cannot be taken for a month.
def Clear (d : Date) (separator : Char) : DateLayout → Prop
  | [.year,.month,.day] => True
  | [.day,.month,.year] => separator ≠ '/' ∨ 12 < d.day
  | [.month,.day,.year] => separator = '/' ∨ 12 < d.day
  | _ => False

structure Numeral (limit : Nat) (s : Text) : Prop where
  filled : s ≠ []
  short : s.length ≤ limit
  digits : ∀ c ∈ s, c.isDigit = true

def width : DatePart → Nat
  | .year => 4
  | .month => 2
  | .day => 2

def value (d : Date) : DatePart → Nat
  | .year => d.year.toNat
  | .month => d.month
  | .day => d.day

theorem Numeral.begins (numeral : Numeral limit s) : ∃ c r, s = c :: r ∧ c.isDigit = true := by
  obtain ⟨c,r,rfl⟩ := List.exists_cons_of_ne_nil numeral.filled
  exact ⟨c,r,rfl,numeral.digits c List.mem_cons_self⟩

theorem numeral_padded {n : Nat} (filled : 0 < limit) (fits : n < Nat.pow 10 limit) :
    Numeral limit (Text.padded limit n) := by
  have length := Text.length_padded filled fits
  refine ⟨?_,Nat.le_of_eq length,Text.padded_digits limit n⟩
  intro none
  rw [none] at length
  exact Nat.ne_of_lt filled length

theorem numeral_decimal {n : Nat} (filled : 0 < limit) (fits : n < Nat.pow 10 limit) :
    Numeral limit (Text.decimal n) := by
  obtain ⟨c,r,begins,_⟩ := Text.decimal_begins n
  refine ⟨?_,(Nat.length_toDigits_le_iff (by decide) filled).mpr fits,Text.decimal_digits n⟩
  rw [begins]
  exact List.cons_ne_nil c r

theorem value_fits (d : Date) (part : DatePart) : value d part < Nat.pow 10 (width part) := by
  cases part with
  | year =>
      have range := d.year_range
      show d.year.toNat < 10000
      omega
  | month => exact Nat.lt_of_le_of_lt d.month_range.2 (by decide)
  | day =>
      have length := (Calendar.monthLength_range d.year d.month).2
      exact Nat.lt_of_le_of_lt (Nat.le_trans d.day_range.2 length) (by decide)

theorem partText_numeral (d : Date) (zeroed : DatePart → Bool) (part : DatePart) :
    Numeral (width part) (partText d zeroed part) := by
  have fits := value_fits d part
  cases part with
  | year => exact numeral_padded (by decide) fits
  | month => exact iteInduction (fun _ => numeral_padded (by decide) fits) fun _ => numeral_decimal (by decide) fits
  | day => exact iteInduction (fun _ => numeral_padded (by decide) fits) fun _ => numeral_decimal (by decide) fits

theorem number_partText (d : Date) (zeroed : DatePart → Bool) (part : DatePart) :
    Text.number (partText d zeroed part) = value d part := by
  cases part <;> simp [partText,value,apply_ite Text.number,Text.number_padded,Text.number_decimal]

def Spelled.put (spelled : Spelled) (n : Nat) : DatePart → Spelled
  | .year => { spelled with year := n }
  | .month => { spelled with month := n }
  | .day => { spelled with day := n }

theorem takeNumber_append (numeral : Numeral limit s) (ends : ∀ c r, rest = c :: r → c.isDigit = false) :
    takeNumber limit (s ++ rest) = some (Text.number s,rest) := by
  obtain ⟨c,r,rfl,digit⟩ := numeral.begins
  have solid : (c :: r ++ rest).dropWhile isAsciiBlank = c :: r ++ rest := dropWhile_digit digit (r ++ rest)
  rw [takeNumber,solid,Text.takeUpTo_append numeral.filled numeral.short numeral.digits ends]
  rfl

theorem takePart_append (numeral : Numeral (width part) s) (ends : ∀ c r, rest = c :: r → c.isDigit = false)
    (spelled : Spelled) : takePart spelled (s ++ rest) part = some (spelled.put (Text.number s) part,rest) := by
  have read := takeNumber_append numeral ends
  cases part with
  | year =>
      obtain ⟨c,r,rfl,digit⟩ := numeral.begins
      obtain ⟨_,_,_,minus,plus,_⟩ := isDigit_apart digit
      simp only [width] at read
      rw [List.cons_append] at read ⊢
      simp [takePart,takeYear,minus,plus,read,Spelled.put]
  | month =>
      simp only [width] at read
      simp [takePart,read,Spelled.put]
  | day =>
      simp only [width] at read
      simp [takePart,read,Spelled.put]

theorem written_cons (d : Date) (zeroed : DatePart → Bool) (separator : Char) (first second : DatePart)
    (layout : DateLayout) : written d zeroed separator (first :: second :: layout) =
      partText d zeroed first ++ separator :: written d zeroed separator (second :: layout) :=
  List.append_assoc ..

theorem undigited (known : isSeparator separator = true) : separator.isDigit = false := by
  cases digit : separator.isDigit with
  | false => rfl
  | true => rw [(isDigit_apart digit).2.2.1] at known; cases known

def fill (d : Date) (spelled : Spelled) (parts : List (DatePart × DatePart)) : Spelled :=
  parts.foldl (fun spelled part => spelled.put (value d part.2) part.1) spelled

theorem takeAll_written (known : isSeparator separator = true) (d : Date) (zeroed : DatePart → Bool)
    (parts : List (DatePart × DatePart)) (widths : ∀ part ∈ parts, width part.2 = width part.1) (spelled : Spelled) :
    takeAll separator spelled (written d zeroed separator (parts.map Prod.snd)) (parts.map Prod.fst) =
      some (fill d spelled parts) := by
  induction parts generalizing spelled with
  | nil => rfl
  | cons part parts ih =>
      have own : Numeral (width part.1) (partText d zeroed part.2) :=
        widths part List.mem_cons_self ▸ partText_numeral d zeroed part.2
      cases parts with
      | nil =>
          have stops : ∀ c r, ([] : Text) = c :: r → c.isDigit = false := fun _ _ none => nomatch none
          have read := takePart_append own stops spelled
          rw [List.append_nil,number_partText] at read
          show (takePart spelled (partText d zeroed part.2) part.1).bind _ = _
          rw [read]
          rfl
      | cons next parts =>
          have later := ih (fun part member => widths part (List.mem_cons_of_mem _ member))
            (spelled.put (value d part.2) part.1)
          have stops : ∀ c r, separator :: written d zeroed separator (next.2 :: parts.map Prod.snd) = c :: r →
              c.isDigit = false := by
            intro c r same
            rw [← (List.cons.inj same).1]
            exact undigited known
          have read := takePart_append own stops spelled
          rw [number_partText] at read
          simp only [List.map_cons] at later ⊢
          rw [written_cons,takeAll,read,Option.bind_some]
          exact (if_pos rfl).trans later

theorem find_separator (known : isSeparator separator = true) (d : Date) (zeroed : DatePart → Bool)
    (first second : DatePart) (layout : DateLayout) :
    (written d zeroed separator (first :: second :: layout)).find? isSeparator = some separator := by
  have numeral := partText_numeral d zeroed first
  have absent : (partText d zeroed first).find? isSeparator = none := by
    rw [List.find?_eq_none]
    intro c member
    rw [(isDigit_apart (numeral.digits c member)).2.2.1]
    exact Bool.false_ne_true
  rw [written_cons,List.find?_append,absent,Option.none_or,List.find?_cons_of_pos known]

theorem startsWithYear_four (length : s.length = 4) (digits : ∀ c ∈ s, c.isDigit = true)
    (known : isSeparator separator = true) (rest : Text) : startsWithYear (s ++ separator :: rest) = true := by
  have front : (s ++ separator :: rest).take 4 = s := List.take_left' length
  have behind : (s ++ separator :: rest).drop 4 = separator :: rest := List.drop_left' length
  have all : Text.allDigits s = true := List.all_eq_true.mpr digits
  simp [startsWithYear,Text.takeFixed,front,behind,length,all,known]

theorem startsWithYear_short (short : s.length < 4) (known : isSeparator separator = true) (rest : Text) :
    startsWithYear (s ++ separator :: rest) = false := by
  obtain ⟨more,count⟩ : ∃ more, 4 - s.length = more + 1 := ⟨3 - s.length,by omega⟩
  have member : separator ∈ (s ++ separator :: rest).take 4 := by
    rw [List.take_append,count,List.take_succ_cons]
    exact List.mem_append_right _ List.mem_cons_self
  have mixed : Text.allDigits ((s ++ separator :: rest).take 4) = false := by
    rw [Text.allDigits,List.all_eq_false]
    exact ⟨separator,member,by rw [undigited known]; exact Bool.false_ne_true⟩
  simp [startsWithYear,Text.takeFixed,mixed]

theorem startsWithYear_written (known : isSeparator separator = true) (d : Date) (zeroed : DatePart → Bool)
    (first second : DatePart) (layout : DateLayout) :
    startsWithYear (written d zeroed separator (first :: second :: layout)) = decide (first = .year) := by
  have numeral := partText_numeral d zeroed first
  rw [written_cons]
  cases first with
  | year =>
      have length : (partText d zeroed .year).length = 4 := Text.length_padded (by decide) (value_fits d .year)
      exact startsWithYear_four length numeral.digits known _
  | month => exact startsWithYear_short (Nat.lt_of_le_of_lt numeral.short (by decide)) known _
  | day => exact startsWithYear_short (Nat.lt_of_le_of_lt numeral.short (by decide)) known _

-- Every date is among the readings of its text, and the order of the layouts decides which one comes first.

def yearLast (monthFirst : Bool) : DateLayout :=
  if monthFirst then [.month,.day,.year] else [.day,.month,.year]

theorem candidates_order (found : s.find? isSeparator = some separator) : candidates s =
    if startsWithYear s then [[.year,.month,.day],yearLast (separator = '/'),yearLast (separator ≠ '/')]
    else [yearLast (separator = '/'),yearLast (separator ≠ '/'),[.year,.month,.day]] := by
  simp only [candidates,found,ofSeparator]
  by_cases slash : separator = '/'
  · subst slash
    cases startsWithYear s <;> rfl
  · have dayFirst : decide (separator = '/') = false := decide_eq_false slash
    have monthFirst : decide (separator ≠ '/') = true := decide_eq_true slash
    rw [if_neg slash,dayFirst,monthFirst]
    cases startsWithYear s <;> rfl

theorem read?_written (known : isSeparator separator = true) (d : Date) (zeroed : DatePart → Bool)
    (first second : DatePart × DatePart) (parts : List (DatePart × DatePart))
    (widths : ∀ part ∈ first :: second :: parts, width part.2 = width part.1) {year : Int} {month day : Nat}
    (filled : fill d ⟨0,0,0⟩ (first :: second :: parts) = ⟨year,month,day⟩) :
    read? (written d zeroed separator ((first :: second :: parts).map Prod.snd))
      ((first :: second :: parts).map Prod.fst) = Date.of? year month day := by
  have found := find_separator known d zeroed first.2 second.2 (parts.map Prod.snd)
  have read := takeAll_written known d zeroed _ widths ⟨0,0,0⟩
  rw [filled] at read
  simp only [List.map_cons] at found read ⊢
  simp [read?,found,read]

variable (nonneg : 0 ≤ d.year)
include nonneg

theorem of?_value : Date.of? (value d .year) d.month d.day = some d :=
  (Date.of?_exact ..).mpr ⟨(Int.toNat_of_nonneg nonneg).symm,rfl,rfl⟩

theorem read?_yearLast (known : isSeparator separator = true) (zeroed : DatePart → Bool) (own other : Bool) :
    read? (written d zeroed separator (yearLast own)) (yearLast other) =
      if own = other then some d else Date.of? d.year d.day d.month := by
  have year : (value d .year : Int) = d.year := Int.toNat_of_nonneg nonneg
  cases own with
  | false =>
      cases other with
      | false =>
          have read := read?_written known d zeroed (.day,.day) (.month,.month) [(.year,.year)] (by decide) rfl
          exact read.trans (of?_value nonneg)
      | true =>
          have read := read?_written known d zeroed (.month,.day) (.day,.month) [(.year,.year)] (by decide) rfl
          rwa [year] at read
  | true =>
      cases other with
      | false =>
          have read := read?_written known d zeroed (.day,.month) (.month,.day) [(.year,.year)] (by decide) rfl
          rwa [year] at read
      | true =>
          have read := read?_written known d zeroed (.month,.month) (.day,.day) [(.year,.year)] (by decide) rfl
          exact read.trans (of?_value nonneg)

theorem date?_yearFirst (known : isSeparator separator = true) (zeroed : DatePart → Bool) :
    date? (written d zeroed separator [.year,.month,.day]) = some d := by
  have found := find_separator known d zeroed .year .month [.day]
  have begins := startsWithYear_written known d zeroed .year .month [.day]
  have read : read? (written d zeroed separator [.year,.month,.day]) [.year,.month,.day] = some d :=
    (read?_written known d zeroed (.year,.year) (.month,.month) [(.day,.day)] (by decide) rfl).trans (of?_value nonneg)
  simp [date?,candidates_order found,begins,read]

-- In the other order the two parts are taken for each other wherever that gives a date.
theorem date?_yearLast (known : isSeparator separator = true) (zeroed : DatePart → Bool) (monthFirst : Bool) :
    date? (written d zeroed separator (yearLast monthFirst)) =
      if monthFirst = decide (separator = '/') then some d else (Date.of? d.year d.day d.month).or (some d) := by
  have found : (written d zeroed separator (yearLast monthFirst)).find? isSeparator = some separator := by
    cases monthFirst with
    | false => exact find_separator known d zeroed .day .month [.year]
    | true => exact find_separator known d zeroed .month .day [.year]
  have begins : startsWithYear (written d zeroed separator (yearLast monthFirst)) = false := by
    cases monthFirst with
    | false => exact startsWithYear_written known d zeroed .day .month [.year]
    | true => exact startsWithYear_written known d zeroed .month .day [.year]
  have first := read?_yearLast nonneg known zeroed monthFirst (separator = '/')
  have second := read?_yearLast nonneg known zeroed monthFirst (separator ≠ '/')
  rw [date?,candidates_order found,begins,if_neg Bool.false_ne_true,List.findSome?_cons,List.findSome?_cons,first]
  by_cases usual : monthFirst = decide (separator = '/')
  · rw [if_pos usual,if_pos usual]
  · have other : monthFirst = decide (separator ≠ '/') := by
      rw [decide_not]
      exact Bool.eq_not_of_ne usual
    rw [if_neg usual,if_neg usual,second,if_pos other]
    cases Date.of? d.year d.day d.month <;> rfl

theorem date?_yearLast_exact (known : isSeparator separator = true) (zeroed : DatePart → Bool) (monthFirst : Bool) :
    date? (written d zeroed separator (yearLast monthFirst)) = some d ↔
      monthFirst = decide (separator = '/') ∨ 12 < d.day ∨ d.day = d.month := by
  rw [date?_yearLast nonneg known]
  split
  · next usual => exact iff_of_true rfl (.inl usual)
  · next other =>
      have month := d.month_range
      have day := d.day_range
      cases swapped : Date.of? d.year d.day d.month with
      | none =>
          refine iff_of_true rfl (.inr (.inl ?_))
          refine Nat.lt_of_not_le fun early => ?_
          have length := (Calendar.monthLength_range d.year d.day).1
          have exchanged := (Date.of?_exact d.year d.day d.month
            ⟨d.year,d.day,d.month,d.year_range,⟨day.1,early⟩,⟨month.1,by omega⟩⟩).mpr ⟨rfl,rfl,rfl⟩
          rw [swapped] at exchanged
          cases exchanged
      | some e =>
          obtain ⟨_,months,days⟩ := (Date.of?_exact _ _ _ _).mp swapped
          have range := e.month_range
          refine ⟨?_,?_⟩
          · intro same
            rw [Option.some.inj same] at months
            exact .inr (.inr months.symm)
          · intro clear
            have same : d.day = d.month := by
              rcases clear with usual | late | same
              · exact absurd usual other
              · omega
              · exact same
            have own : Date.of? d.year d.month d.day = some d := (Date.of?_exact _ _ _ _).mpr ⟨rfl,rfl,rfl⟩
            rw [same] at own swapped
            exact swapped.symm.trans own

omit nonneg

theorem written_chars (d : Date) (zeroed : DatePart → Bool) (separator : Char) (layout : DateLayout) :
    ∀ c ∈ written d zeroed separator layout, c.isDigit = true ∨ c = separator := by
  induction layout with
  | nil => intro c member; cases member
  | cons first layout ih =>
      have own := (partText_numeral d zeroed first).digits
      cases layout with
      | nil => exact fun c member => .inl (own c member)
      | cons second layout =>
          intro c member
          rw [written_cons] at member
          rcases List.mem_append.mp member with digit | behind
          · exact .inl (own c digit)
          · rcases List.mem_cons.mp behind with rfl | later
            · exact .inr rfl
            · exact ih c later

theorem written_begins (d : Date) (zeroed : DatePart → Bool) (separator : Char) (first second : DatePart)
    (layout : DateLayout) :
    ∃ c r, written d zeroed separator (first :: second :: layout) = c :: r ∧ c.isDigit = true := by
  obtain ⟨c,r,begins,digit⟩ := (partText_numeral d zeroed first).begins
  rw [written_cons,begins]
  exact ⟨c,_,rfl,digit⟩

theorem resolve_written (context : DateContext) (known : isSeparator separator = true) {e : Date}
    {first second : DatePart} (layout : DateLayout)
    (found : date? (written d zeroed separator (first :: second :: layout)) = some e) :
    DateText.resolve context (written d zeroed separator (first :: second :: layout)) = .ok (.single e) := by
  obtain ⟨c,r,begins,digit⟩ := written_begins d zeroed separator first second layout
  have solid : ∀ c ∈ written d zeroed separator (first :: second :: layout), isBlank c = false := by
    intro c member
    rcases written_chars d zeroed separator _ c member with digit | rfl
    · exact (isDigit_apart digit).1
    · simp only [isSeparator,Bool.or_eq_true,decide_eq_true_eq] at known
      rcases known with (rfl | rfl) | rfl <;> decide
  rw [begins] at found solid ⊢
  obtain ⟨_,_,_,_,_,unlettered⟩ := isDigit_apart digit
  exact DateText.resolve_layout (List.cons_ne_nil c r) (Text.trim_of_solid solid)
    (DateKeyword.read?_unlettered unlettered r) found

theorem layout_reads_back (context : DateContext) (d : Date) (nonneg : 0 ≤ d.year) (zeroed : DatePart → Bool)
    {lead trail : Text} (front : lead.OnlyBlank) (behind : trail.OnlyBlank) (known : isSeparator separator = true)
    (clear : Clear d separator layout) :
    DateText.resolve context (lead ++ written d zeroed separator layout ++ trail) = .ok (.single d) := by
  have last := date?_yearLast_exact nonneg known zeroed
  rw [DateText.resolve_surrounded context front behind]
  unfold Clear at clear
  split at clear
  · exact resolve_written context known _ (date?_yearFirst nonneg known zeroed)
  · refine resolve_written context known [.year] ((last false).mpr ?_)
    rcases clear with dashed | late
    · exact .inl (decide_eq_false dashed).symm
    · exact .inr (.inl late)
  · refine resolve_written context known [.year] ((last true).mpr ?_)
    rcases clear with slashed | late
    · exact .inl (decide_eq_true slashed).symm
    · exact .inr (.inl late)
  · exact clear.elim

-- Month first comes first with slashes, but no month has the number 31.
theorem layout_reads_back_late : ∃ d : Date, 0 ≤ d.year ∧ Text.OnlyBlank "\t".toList ∧ Text.OnlyBlank " \n".toList ∧
    isSeparator '/' = true ∧ Clear d '/' [.day,.month,.year] ∧
    written d (fun _ => false) '/' [.day,.month,.year] = "31/1/0024".toList ∧ Date.of? 24 1 31 = some d ∧
    DateText.resolve ⟨Date.unixEpoch,.utc⟩ ("\t".toList ++ "31/1/0024".toList ++ " \n".toList) = .ok (.single d) := by
  have front : Text.OnlyBlank "\t".toList := by decide
  have behind : Text.OnlyBlank " \n".toList := by decide
  have nonneg : (0 : Int) ≤ 24 := by decide
  have clear : Clear ⟨24,1,31,by decide,by decide,by decide⟩ '/' [.day,.month,.year] := Or.inr (by decide)
  exact ⟨_,nonneg,front,behind,rfl,clear,rfl,rfl,
    layout_reads_back ⟨Date.unixEpoch,.utc⟩ _ nonneg (fun _ => false) front behind rfl clear⟩

end DateLayout
end FieldedSearch
