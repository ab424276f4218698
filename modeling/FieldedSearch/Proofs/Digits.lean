import FieldedSearch.DateText.Moment
import FieldedSearch.Proofs.Calendar

namespace FieldedSearch
namespace Text

variable {width n : Nat}

theorem number_append_zeros (count : Nat) (digits : Text) :
    number (List.replicate count '0' ++ digits) = number digits := by
  have start : (List.replicate count '0').foldl (fun n c => 10 * n + (c.toNat - 48)) 0 = 0 := by
    induction count with
    | zero => rfl
    | succ count ih => rw [List.replicate_succ,List.foldl_cons]; exact ih
  rw [number,List.foldl_append,start]
  rfl

theorem number_decimal (n : Nat) : number (decimal n) = n := by
  have read := Nat.ofDigitChars_ten_toDigits (n := n)
  rw [Nat.ofDigitChars_eq_foldl] at read
  exact read

theorem decimal_digits (n : Nat) : ∀ c ∈ decimal n, c.isDigit = true :=
  fun _ member => Nat.isDigit_of_mem_toDigits (by decide) (by decide) member

theorem decimal_begins (n : Nat) : ∃ c r, decimal n = c :: r ∧ (c = '0' → n = 0 ∧ r = []) := by
  induction n using Nat.strongRecOn with
  | ind n ih =>
      by_cases small : n < 10
      · refine ⟨n.digitChar,[],Nat.toDigits_of_lt_base small,?_⟩
        have zero : ∀ m < 10, m.digitChar = '0' → m = 0 := by decide
        exact fun same => ⟨zero n small same,rfl⟩
      · obtain ⟨c,r,begins,zero⟩ := ih (n / 10) (Nat.div_lt_self (by omega) (by decide))
        have longer : decimal n = decimal (n / 10) ++ [(n % 10).digitChar] :=
          Nat.toDigits_of_base_le (by decide) (by omega)
        refine ⟨c,r ++ [(n % 10).digitChar],by rw [longer,begins]; rfl,?_⟩
        intro same
        have front := (zero same).1
        omega

theorem takeDigits_append {digits rest : Text} (all : ∀ c ∈ digits, c.isDigit = true)
    (ends : ∀ c r, rest = c :: r → c.isDigit = false) : takeDigits (digits ++ rest) = (digits,rest) := by
  have stopped : rest.takeWhile Char.isDigit = [] ∧ rest.dropWhile Char.isDigit = rest := by
    cases rest with
    | nil => exact ⟨rfl,rfl⟩
    | cons c r => simp [ends c r rfl]
  rw [takeDigits,List.takeWhile_append_of_pos all,List.dropWhile_append_of_pos all,stopped.1,stopped.2,
    List.append_nil]

theorem takeUpTo_append {limit : Nat} {digits rest : Text} (filled : digits ≠ []) (short : digits.length ≤ limit)
    (all : ∀ c ∈ digits, c.isDigit = true) (ends : ∀ c r, rest = c :: r → c.isDigit = false) :
    takeUpTo limit (digits ++ rest) = some (digits,rest) := by
  have cut : (digits ++ rest).take limit = digits ++ rest.take (limit - digits.length) := by
    rw [List.take_append,List.take_of_length_le short]
  have stops : ∀ c r, rest.take (limit - digits.length) = c :: r → c.isDigit = false := by
    intro c r same
    exact ends c (r ++ rest.drop _) (by rw [← List.cons_append,← same,List.take_append_drop])
  have read : ((digits ++ rest).take limit).takeWhile Char.isDigit = digits := by
    rw [cut]
    exact congrArg Prod.fst (takeDigits_append all stops)
  simp [takeUpTo,read,filled]

theorem number_padded (width n : Nat) : number (padded width n) = n := by
  rw [padded,number_append_zeros,number_decimal]

theorem padded_digits (width n : Nat) : ∀ c ∈ padded width n, c.isDigit = true := by
  intro c member
  rcases List.mem_append.mp member with zero | digit
  · rw [List.eq_of_mem_replicate zero]; rfl
  · exact decimal_digits n c digit

theorem length_padded (filled : 0 < width) (fits : n < Nat.pow 10 width) : (padded width n).length = width := by
  have short : (decimal n).length ≤ width := (Nat.length_toDigits_le_iff (by decide) filled).mpr fits
  rw [padded,List.length_append,List.length_replicate]
  omega

theorem takeFixed_padded (filled : 0 < width) (fits : n < Nat.pow 10 width) (rest : Text) :
    takeFixed width (padded width n ++ rest) = some (n,rest) := by
  have length := length_padded filled fits
  have front : (padded width n ++ rest).take width = padded width n := List.take_left' length
  have behind : (padded width n ++ rest).drop width = rest := List.drop_left' length
  have digits : allDigits (padded width n) = true := List.all_eq_true.mpr (padded_digits width n)
  simp [takeFixed,front,behind,length,digits,number_padded]

theorem padded_begins (filled : 0 < width) (fits : n < Nat.pow 10 width) :
    ∃ c r, padded width n = c :: r ∧ c.isDigit = true := by
  obtain ⟨c,r,begins⟩ := List.exists_cons_of_length_pos (Nat.lt_of_lt_of_eq filled (length_padded filled fits).symm)
  exact ⟨c,r,begins,padded_digits width n c (begins ▸ List.mem_cons_self)⟩

theorem padded_cons (filled : 0 < width) (fits : n < Nat.pow 10 width) :
    ∃ c r, padded width n = c :: r ∧ c ≠ '-' ∧ c ≠ '+' := by
  obtain ⟨c,r,same,digit⟩ := padded_begins filled fits
  exact ⟨c,r,same,(by rintro rfl; cases digit),(by rintro rfl; cases digit)⟩

end Text

namespace Moment

variable {n : Nat}

theorem takeYear_unsigned (fits : n < Nat.pow 10 4) (rest : Text) :
    takeYear (Text.padded 4 n ++ rest) = some ((n : Int),rest) := by
  have fixed := Text.takeFixed_padded (by decide) fits rest
  obtain ⟨c,r,same,minus,plus⟩ := Text.padded_cons (by decide) fits
  rw [same,List.cons_append] at fixed ⊢
  simp [takeYear,minus,plus,fixed]

theorem takeYear_negative (filled : 0 < n) (fits : n < Nat.pow 10 6) (rest : Text) :
    takeYear ('-' :: Text.padded 6 n ++ rest) = some (-(n : Int),rest) := by
  have fixed := Text.takeFixed_padded (by decide) fits rest
  have some : n ≠ 0 := by omega
  simp [takeYear,fixed,some]

theorem takeYear_positive (fits : n < Nat.pow 10 6) (rest : Text) :
    takeYear ('+' :: Text.padded 6 n ++ rest) = some ((n : Int),rest) := by
  have fixed := Text.takeFixed_padded (by decide) fits rest
  simp [takeYear,fixed]

-- A sign asks for six digits. Without one there are four, and the year is not negative.
def yearText (d : Date) (long : Bool) : Text :=
  if d.year < 0 then '-' :: Text.padded 6 d.year.natAbs
  else if long then '+' :: Text.padded 6 d.year.natAbs
  else Text.padded 4 d.year.natAbs

def dash (dashed : Bool) : Text := if dashed then ['-'] else []

def dateText (d : Date) (long dashed : Bool) : Text :=
  yearText d long ++ dash dashed ++ Text.padded 2 d.month ++ dash dashed ++ Text.padded 2 d.day

theorem year_fits (d : Date) : d.year.natAbs < Nat.pow 10 4 := by
  have range := d.year_range
  simp only [Nat.pow_eq]
  omega

theorem month_fits (d : Date) : d.month < Nat.pow 10 2 := Nat.lt_of_le_of_lt d.month_range.2 (by decide)

theorem day_fits (d : Date) : d.day < Nat.pow 10 2 := by
  have length := (Calendar.monthLength_range d.year d.month).2
  exact Nat.lt_of_le_of_lt (Nat.le_trans d.day_range.2 length) (by decide)

theorem takeYear_text (d : Date) (long : Bool) (rest : Text) :
    takeYear (yearText d long ++ rest) = some (d.year,rest) := by
  have wide : d.year.natAbs < Nat.pow 10 6 := Nat.lt_trans (year_fits d) (by decide)
  unfold yearText
  split
  · have read := takeYear_negative (by omega) wide rest
    rwa [show -(d.year.natAbs : Int) = d.year by omega] at read
  · have own : (d.year.natAbs : Int) = d.year := by omega
    split
    · exact own ▸ takeYear_positive wide rest
    · exact own ▸ takeYear_unsigned (year_fits d) rest

-- A digit is no dash, so the place behind the year shows which spelling it is.
theorem takeDash_padded (dashed : Bool) {n : Nat} (fits : n < Nat.pow 10 2) (rest : Text) :
    decide ((dash dashed ++ (Text.padded 2 n ++ rest)).head? = some '-') = dashed ∧
      takeDash dashed (dash dashed ++ (Text.padded 2 n ++ rest)) = some (Text.padded 2 n ++ rest) := by
  obtain ⟨c,r,same,minus,_⟩ := Text.padded_cons (by decide : 0 < 2) fits
  cases dashed <;> simp [dash,takeDash,same,minus]

theorem takeDate_spelled (d : Date) (long dashed : Bool) (rest : Text) :
    takeDate (dateText d long dashed ++ rest) = some (d,rest) := by
  have year := takeYear_text d long
  have month := fun behind => Text.takeFixed_padded (by decide) (month_fits d) behind
  have day := Text.takeFixed_padded (by decide) (day_fits d) rest
  have first := takeDash_padded dashed (month_fits d)
  have second := takeDash_padded dashed (day_fits d)
  have known : Date.of? d.year d.month d.day = some d := (Date.of?_exact _ _ _ _).mpr ⟨rfl,rfl,rfl⟩
  simp only [takeDate,dateText,List.append_assoc,year,first,second,month,day,known,Option.bind_eq_bind,Option.bind_some]

theorem takeDate_text (d : Date) (rest : Text) : takeDate (d.text ++ rest) = some (d,rest) := by
  have spelled : d.text = dateText d false true := by simp [Date.text,dateText,yearText,dash]
  rw [spelled,takeDate_spelled]

end Moment
end FieldedSearch
