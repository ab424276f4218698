import FieldedSearch.Proofs.Digits

namespace FieldedSearch

namespace Moment

variable {rest : Text} {hourCount secondCount : Nat}

structure Fraction where
  mark : Char
  digits : Text
  known : mark = '.' ∨ mark = ','
  filled : digits ≠ []
  short : digits.length ≤ 9
  decimal : ∀ c ∈ digits, c.isDigit = true

namespace Fraction

def text (fraction : Fraction) : Text := fraction.mark :: fraction.digits

def billionths (fraction : Fraction) : Nat :=
  Text.number fraction.digits * Nat.pow 10 (9 - fraction.digits.length)

end Fraction

-- As exact as it is written. A count of 61 seconds leaves room for a leap second.
inductive Clock (hourCount secondCount : Nat) where
  | hour (h : Fin hourCount)
  | minute (h : Fin hourCount) (m : Fin 60)
  | second (h : Fin hourCount) (m : Fin 60) (s : Fin secondCount) (fraction : Option Fraction)

def joint (colons : Bool) : Text := if colons then [':'] else []

def fractionText (fraction : Option Fraction) : Text := (fraction.map Fraction.text).getD []

namespace Clock

def text (colons : Bool) : Clock hourCount secondCount → Text
  | .hour h => Text.padded 2 h
  | .minute h m => Text.padded 2 h ++ joint colons ++ Text.padded 2 m
  | .second h m s fraction =>
      Text.padded 2 h ++ joint colons ++ Text.padded 2 m ++ joint colons ++ Text.padded 2 s ++ fractionText fraction

-- A leap second counts as the second before it.
def whole : Clock hourCount secondCount → Nat
  | .hour h => 3600 * h
  | .minute h m => 3600 * h + 60 * m
  | .second h m s _ => 3600 * h + 60 * m + min s.val 59

def billionths : Clock hourCount secondCount → Nat
  | .second _ _ _ fraction => (fraction.map Fraction.billionths).getD 0
  | _ => 0

def rounded (clock : Clock hourCount secondCount) : Nat := clock.whole + if 500000000 ≤ clock.billionths then 1 else 0

end Clock

def EndsClock (rest : Text) : Prop := ∀ c r, rest = c :: r → c.isDigit = false ∧ c ≠ ':' ∧ c ≠ '.' ∧ c ≠ ','

theorem takeBelow_padded {limit : Nat} (short : limit ≤ 100) (n : Fin limit) (rest : Text) :
    takeBelow limit (Text.padded 2 n ++ rest) = some (n.val,rest) := by
  have fits : n.val < Nat.pow 10 2 := Nat.lt_of_lt_of_le n.isLt short
  rw [takeBelow,Text.takeFixed_padded (by decide) fits]
  exact if_pos n.isLt

theorem nextPart_joint (colons : Bool) {limit : Nat} (short : limit ≤ 100) (n : Fin limit) (rest : Text) :
    decide ((joint colons ++ (Text.padded 2 n ++ rest)).head? = some ':') = colons ∧
      nextPart colons (joint colons ++ (Text.padded 2 n ++ rest)) = some (Text.padded 2 n ++ rest) := by
  have fits : n.val < Nat.pow 10 2 := Nat.lt_of_lt_of_le n.isLt short
  cases colons with
  | true => exact ⟨rfl,rfl⟩
  | false =>
      have read := Text.takeFixed_padded (by decide) fits rest
      obtain ⟨c,r,begins,digit⟩ := Text.padded_begins (by decide : 0 < 2) fits
      have other : c ≠ ':' := by rintro rfl; cases digit
      refine ⟨?_,?_⟩
      · simp [joint,begins,other]
      · simp [joint,nextPart,read]

theorem nextPart_ends (ends : EndsClock rest) (colons : Bool) :
    decide (rest.head? = some ':') = false ∧ nextPart colons rest = none := by
  cases rest with
  | nil => cases colons <;> exact ⟨rfl,rfl⟩
  | cons c r =>
      obtain ⟨undigited,other,_,_⟩ := ends c r rfl
      cases colons <;> simp [nextPart,other,Text.takeFixed,Text.allDigits,undigited]

theorem takeFraction_text (ends : EndsClock rest) (fraction : Option Fraction) :
    Text.takeFraction (fractionText fraction ++ rest) = some (fraction.map Fraction.billionths,rest) := by
  cases fraction with
  | none =>
      cases rest with
      | nil => rfl
      | cons c r =>
          obtain ⟨_,_,point,comma⟩ := ends c r rfl
          simp [fractionText,Text.takeFraction,point,comma]
  | some fraction =>
      have stops : ∀ c r, rest = c :: r → c.isDigit = false := fun c r same => (ends c r same).1
      have read := Text.takeUpTo_append fraction.filled fraction.short fraction.decimal stops
      simp [fractionText,Fraction.text,Text.takeFraction,fraction.known,read,Fraction.billionths]

theorem takeTime_text (clock : Clock 24 61) (colons : Bool) (ends : EndsClock rest) :
    takeTime (clock.text colons ++ rest) = some (clock.whole * 1000000000 + clock.billionths,rest) := by
  have hour := takeBelow_padded (by decide : 24 ≤ 100)
  have minute := takeBelow_padded (by decide : 60 ≤ 100)
  have second := takeBelow_padded (by decide : 61 ≤ 100)
  have part := fun n rest => nextPart_joint colons (by decide : 60 ≤ 100) n rest
  have last := fun n rest => nextPart_joint colons (by decide : 61 ≤ 100) n rest
  have done := nextPart_ends ends
  cases clock with
  | hour h =>
      simp only [takeTime,Clock.text,Clock.whole,Clock.billionths,hour,done,Option.bind_eq_bind,Option.bind_some,
        Nat.add_zero]
  | minute h m =>
      simp only [takeTime,Clock.text,Clock.whole,Clock.billionths,List.append_assoc,hour,minute,part,done,
        Option.bind_eq_bind,Option.bind_some,Nat.add_zero]
  | second h m s fraction =>
      simp only [takeTime,Clock.text,Clock.whole,Clock.billionths,List.append_assoc,hour,minute,second,part,last,
        takeFraction_text ends,Option.bind_eq_bind,Option.bind_some]

theorem takeFixedOffset_text (clock : Clock 26 60) (colons : Bool) (ends : EndsClock rest) :
    takeFixedOffset true (clock.text colons ++ rest) = some (clock.rounded,rest) := by
  have hour := takeBelow_padded (by decide : 26 ≤ 100)
  have minute := takeBelow_padded (by decide : 60 ≤ 100)
  have part := fun n rest => nextPart_joint colons (by decide : 60 ≤ 100) n rest
  have done := nextPart_ends ends
  cases clock with
  | hour h =>
      simp only [takeFixedOffset,Clock.text,hour,done,Option.bind_eq_bind,Option.bind_some]
      rfl
  | minute h m =>
      simp only [takeFixedOffset,Clock.text,List.append_assoc,hour,minute,part,done,if_true,Option.bind_eq_bind,
        Option.bind_some]
      rfl
  | second h m s fraction =>
      have known : min s.val 59 = s := Nat.min_eq_left (Nat.le_of_lt_succ s.isLt)
      simp only [takeFixedOffset,Clock.text,List.append_assoc,hour,minute,part,takeFraction_text ends,if_true,
        Option.bind_eq_bind,Option.bind_some,Clock.rounded,Clock.whole,Clock.billionths,known]
      rfl

inductive WrittenOffset where
  | utc (mark : Char) (known : mark = 'Z' ∨ mark = 'z')
  | fixed (west colons : Bool) (clock : Clock 26 60)

namespace WrittenOffset

def text : WrittenOffset → Text
  | .utc mark _ => [mark]
  | .fixed west colons clock => (if west then '-' else '+') :: clock.text colons

def zone : WrittenOffset → ZoneOffset
  | .utc _ _ => .utc
  | .fixed west _ clock => .fixed (if west then -(clock.rounded : Int) else clock.rounded)

def seconds (offset : WrittenOffset) : Int :=
  match offset.zone with
  | .utc => 0
  | .fixed seconds => seconds

theorem endsClock (offset : WrittenOffset) : EndsClock offset.text := by
  intro c r same
  cases offset with
  | utc mark known =>
      obtain ⟨rfl,_⟩ := List.cons.inj same
      rcases known with rfl | rfl <;> decide
  | fixed west colons clock =>
      obtain ⟨rfl,_⟩ := List.cons.inj same
      cases west <;> decide

theorem takeOffset_text (offset : WrittenOffset) : takeOffset offset.text = some (some offset.zone,[]) := by
  have ends : EndsClock [] := fun _ _ none => nomatch none
  cases offset with
  | utc mark known => rcases known with rfl | rfl <;> rfl
  | fixed west colons clock =>
      have read := takeFixedOffset_text clock colons ends
      rw [List.append_nil] at read
      cases west <;> simp [text,takeOffset,read,zone]

end WrittenOffset

structure WrittenInstant where
  date : Date
  -- A plus sign and six digits where four would do.
  long : Bool
  dashed : Bool
  mark : Char
  marked : isTimeMark mark = true
  colons : Bool
  clock : Clock 24 61
  offset : WrittenOffset

namespace WrittenInstant

def text (written : WrittenInstant) : Text :=
  dateText written.date written.long written.dashed ++ written.mark :: (written.clock.text written.colons ++
    written.offset.text)

-- Seconds since the start of the day zero in UTC: the local time that is written, less the offset.
def second (written : WrittenInstant) : Int :=
  written.date.dayNumber * 86400 + written.clock.whole - written.offset.seconds

def instant (written : WrittenInstant) : Int := written.second * 1000000000 + written.clock.billionths

theorem read?_text (written : WrittenInstant) :
    read? written.text = some ⟨written.date,some (written.clock.whole * 1000000000 + written.clock.billionths),
      some written.offset.zone⟩ := by
  have date := takeDate_spelled written.date written.long written.dashed
  have time := takeTime_text written.clock written.colons written.offset.endsClock
  have finished : onlyAnnotations [] = true := by
    have keyed : onlyKeyed [] = true := by rw [onlyKeyed]; rfl
    exact keyed
  simp only [read?,text,date,Option.bind_eq_bind,Option.bind_some,written.marked,if_true,time,
    written.offset.takeOffset_text,finished]

end WrittenInstant
end Moment
end FieldedSearch
