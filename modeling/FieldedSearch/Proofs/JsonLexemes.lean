import FieldedSearch.Json.Tree
import FieldedSearch.Proofs.Digits

namespace FieldedSearch.Json

variable {s r rest inside digits front : Text} {c d : Char} {text : Option Text} {n : Nat} {literal : NumberLiteral}

def IsCode (digits : Text) (n : Nat) : Prop := takeHex digits = some (n,[])

-- A half of a pair that has no other half beside it. The low one comes behind the high one.
def IsAlone (n : Nat) (behind : Text) : Prop :=
  isLowSurrogate n = true ∨ isHighSurrogate n = true ∧
    ∀ digits m rest, IsCode digits m → isLowSurrogate m = true → behind ≠ '\\' :: 'u' :: (digits ++ rest)

-- What may stand between the quotes, and the text that it says. With a half that stands alone there is no such text.
inductive StringText : Text → Option Text → Prop where
  | nil : StringText [] (some [])
  | plain {c : Char} {s : Text} {text : Option Text} : c ≠ '"' → c ≠ '\\' → ¬c.toNat < 0x20 → StringText s text →
      StringText (c :: s) (text.map (c :: ·))
  | letter {letter c : Char} {s : Text} {text : Option Text} : simpleEscape? letter = some c → StringText s text →
      StringText ('\\' :: letter :: s) (text.map (c :: ·))
  | code {digits s : Text} {n : Nat} {text : Option Text} : IsCode digits n → isHighSurrogate n = false →
      isLowSurrogate n = false → StringText s text →
      StringText ('\\' :: 'u' :: (digits ++ s)) (text.map (Char.ofNat n :: ·))
  | pair {high low s : Text} {m n : Nat} {text : Option Text} : IsCode high m → isHighSurrogate m = true →
      IsCode low n → isLowSurrogate n = true → StringText s text →
      StringText ('\\' :: 'u' :: (high ++ '\\' :: 'u' :: (low ++ s)))
        (text.map (Char.ofNat (0x10000 + 0x400 * (m - 0xd800) + (n - 0xdc00)) :: ·))
  | half {digits s : Text} {n : Nat} {text : Option Text} : IsCode digits n → IsAlone n s → StringText s text →
      StringText ('\\' :: 'u' :: (digits ++ s)) none

theorem takeHex_exact : takeHex s = some (n,rest) ↔ ∃ digits, IsCode digits n ∧ s = digits ++ rest := by
  constructor
  · intro read
    unfold takeHex at read
    split at read
    · next a b c d behind =>
        refine ⟨[a,b,c,d],?_,?_⟩
        · simp only [Option.bind_eq_bind,Option.bind_eq_some_iff] at read
          obtain ⟨i,first,j,second,k,third,l,fourth,same⟩ := read
          simp only [Option.some.injEq,Prod.mk.injEq] at same
          simp [IsCode,takeHex,first,second,third,fourth,same.1]
        · simp only [Option.bind_eq_bind,Option.bind_eq_some_iff] at read
          obtain ⟨_,_,_,_,_,_,_,_,same⟩ := read
          cases same
          rfl
    · cases read
  · rintro ⟨digits,code,rfl⟩
    unfold IsCode takeHex at code
    split at code
    · simp only [Option.bind_eq_bind,Option.bind_eq_some_iff] at code
      obtain ⟨i,first,j,second,k,third,l,fourth,same⟩ := code
      simp only [Option.some.injEq,Prod.mk.injEq] at same
      obtain ⟨value,rfl⟩ := same
      simp [takeHex,first,second,third,fourth,value]
    · cases code

theorem takeHex_code (code : IsCode digits n) (rest : Text) : takeHex (digits ++ rest) = some (n,rest) :=
  takeHex_exact.mpr ⟨digits,code,rfl⟩

theorem takeLowSurrogate_exact : takeLowSurrogate s = some (n,rest) ↔
    isLowSurrogate n = true ∧ ∃ digits, IsCode digits n ∧ s = '\\' :: 'u' :: (digits ++ rest) := by
  constructor
  · intro read
    unfold takeLowSurrogate at read
    split at read
    · obtain ⟨code,low⟩ := Option.filter_eq_some_iff.mp read
      obtain ⟨digits,named,rfl⟩ := takeHex_exact.mp code
      exact ⟨low,digits,named,rfl⟩
    · cases read
  · rintro ⟨low,digits,code,rfl⟩
    exact Option.filter_eq_some_iff.mpr ⟨takeHex_code code rest,low⟩

theorem StringText.coded (spelled : StringText s text) (begins : s = '\\' :: 'u' :: r) :
    ∃ digits behind n, IsCode digits n ∧ r = digits ++ behind := by
  cases spelled with
  | nil => cases begins
  | plain _ single => exact absurd (List.cons.inj begins).1 single
  | letter known =>
      obtain ⟨rfl,_⟩ := List.cons.inj (List.cons.inj begins).2
      cases known
  | code code | half code => exact ⟨_,_,_,code,(List.cons.inj (List.cons.inj begins).2).2.symm⟩
  | pair code => exact ⟨_,_,_,code,(List.cons.inj (List.cons.inj begins).2).2.symm⟩

theorem not_low (high : isHighSurrogate n = true) : isLowSurrogate n = false := by
  simp only [isHighSurrogate,isLowSurrogate,Bool.and_eq_true,Bool.and_eq_false_iff,decide_eq_true_eq,
    decide_eq_false_iff_not] at high ⊢
  omega

-- The quote that ends the string does not make a pair of it.
theorem IsAlone.quoted (alone : IsAlone n s) (high : isHighSurrogate n = true) (spelled : StringText s text)
    (rest : Text) : takeLowSurrogate (s ++ '"' :: rest) = none := by
  refine Option.eq_none_iff_forall_ne_some.mpr fun (m,left) found => ?_
  obtain ⟨low,digits,code,same⟩ := takeLowSurrogate_exact.mp found
  obtain ⟨r,rfl⟩ : ∃ r, s = '\\' :: 'u' :: r := by
    cases s with
    | nil => cases same
    | cons c s =>
        obtain ⟨rfl,second⟩ := List.cons.inj same
        cases s with
        | nil => cases second
        | cons d s =>
            obtain ⟨rfl,_⟩ := List.cons.inj second
            exact ⟨s,rfl⟩
  obtain ⟨own,behind,k,named,rfl⟩ := spelled.coded rfl
  have read : takeHex (own ++ (behind ++ '"' :: rest)) = some (m,left) := by
    rw [← List.append_assoc]
    have rests := (List.cons.inj (List.cons.inj same).2).2
    exact takeHex_exact.mpr ⟨digits,code,rests⟩
  cases (takeHex_code named _).symm.trans read
  rcases alone with other | ⟨_,apart⟩
  · rw [not_low high] at other
    cases other
  · exact apart own _ behind named low rfl

theorem takeString_closed (r : Text) : takeString ('"' :: r) = some (some [],r) := by
  rw [takeString,if_pos rfl]

theorem takeString_plain (unquoted : c ≠ '"') (single : c ≠ '\\') (printed : ¬c.toNat < 0x20) (r : Text) :
    takeString (c :: r) = (takeString r).map fun (text,rest) => (text.map (c :: ·),rest) := by
  rw [takeString,if_neg unquoted,if_neg single,if_neg printed]

theorem takeString_escape {escaped : Option Char} (escape : takeEscape r = some (escaped,rest)) :
    takeString ('\\' :: r) =
      (takeString rest).map fun (text,rest) => (escaped.bind fun d => text.map (d :: ·),rest) := by
  rw [takeString,if_neg (by decide),if_pos rfl]
  split
  · next found =>
      cases found.symm.trans escape
      rfl
  · next missing => cases missing.symm.trans escape

theorem takeEscape_letter (known : simpleEscape? c = some d) (rest : Text) : takeEscape (c :: rest) = some (some d,rest) := by
  have other : c ≠ 'u' := by
    rintro rfl
    cases known
  rw [takeEscape,if_neg other,known]
  rfl

theorem takeEscape_code (code : IsCode digits n) (high : isHighSurrogate n = false) (low : isLowSurrogate n = false)
    (rest : Text) : takeEscape ('u' :: (digits ++ rest)) = some (some (Char.ofNat n),rest) := by
  simp [takeEscape,takeHex_code code,high,low]

theorem takeEscape_pair {high low : Text} {m n : Nat} (first : IsCode high m) (front : isHighSurrogate m = true)
    (second : IsCode low n) (back : isLowSurrogate n = true) (rest : Text) :
    takeEscape ('u' :: (high ++ '\\' :: 'u' :: (low ++ rest))) =
      some (some (Char.ofNat (0x10000 + 0x400 * (m - 0xd800) + (n - 0xdc00))),rest) := by
  have behind : takeLowSurrogate ('\\' :: 'u' :: (low ++ rest)) = some (n,rest) :=
    takeLowSurrogate_exact.mpr ⟨back,low,second,rfl⟩
  simp [takeEscape,takeHex_code first,front,behind]

theorem takeEscape_half (code : IsCode digits n) (alone : IsAlone n s) (spelled : StringText s text) (rest : Text) :
    takeEscape ('u' :: (digits ++ (s ++ '"' :: rest))) = some (none,s ++ '"' :: rest) := by
  cases high : isHighSurrogate n with
  | true => simp [takeEscape,takeHex_code code,high,alone.quoted high spelled rest]
  | false =>
      have low : isLowSurrogate n = true := by
        rcases alone with low | ⟨other,_⟩
        · exact low
        · rw [high] at other
          cases other
      simp [takeEscape,takeHex_code code,high,low]

theorem StringText.takeString (spelled : StringText s text) (rest : Text) :
    takeString (s ++ '"' :: rest) = some (text,rest) := by
  induction spelled with
  | nil => exact takeString_closed rest
  | plain unquoted single printed _ ih =>
      rw [List.cons_append,takeString_plain unquoted single printed,ih]
      rfl
  | letter known _ ih =>
      rw [List.cons_append,List.cons_append,takeString_escape (takeEscape_letter known _),ih]
      rfl
  | code code high low _ ih =>
      rw [List.cons_append,List.cons_append,List.append_assoc,takeString_escape (takeEscape_code code high low _),ih]
      rfl
  | pair first front second back _ ih =>
      rw [List.cons_append,List.cons_append,List.append_assoc,List.cons_append,List.cons_append,List.append_assoc,
        takeString_escape (takeEscape_pair first front second back _),ih]
      rfl
  | half code alone spelled ih =>
      rw [List.cons_append,List.cons_append,List.append_assoc,
        takeString_escape (takeEscape_half code alone spelled rest),ih]
      rfl

theorem isAlone_of_none (high : isHighSurrogate n = true) (missing : takeLowSurrogate (s ++ rest) = none) :
    IsAlone n s := by
  refine .inr ⟨high,fun digits m behind code low same => ?_⟩
  rw [same,takeLowSurrogate_exact.mpr ⟨low,digits,code,by simp; rfl⟩] at missing
  cases missing

theorem takeEscape_sound {escaped : Option Char} (read : takeEscape r = some (escaped,inside ++ '"' :: rest))
    (spelled : StringText inside text) : ∃ whole, '\\' :: r = whole ++ '"' :: rest ∧
      StringText whole (escaped.bind fun d => text.map (d :: ·)) := by
  unfold takeEscape at read
  split at read
  · cases read
  · next c r =>
      split at read
      · next unicode =>
          subst unicode
          obtain ⟨⟨n,behind⟩,hex,same⟩ := Option.map_eq_some_iff.mp read
          obtain ⟨digits,code,rfl⟩ := takeHex_exact.mp hex
          dsimp only at same
          split at same
          · next high =>
              split at same
              · next found =>
                  cases same
                  obtain ⟨back,low,second,rfl⟩ := takeLowSurrogate_exact.mp found
                  exact ⟨_,by simp,.pair code high second back spelled⟩
              · next missing =>
                  cases same
                  exact ⟨_,by simp,.half code (isAlone_of_none high missing) spelled⟩
          · next high =>
              split at same
              · next low =>
                  cases same
                  exact ⟨_,by simp,.half code (.inl low) spelled⟩
              · next low =>
                  cases same
                  exact ⟨_,by simp,.code code (by simpa using high) (by simpa using low) spelled⟩
      · obtain ⟨d,known,same⟩ := Option.map_eq_some_iff.mp read
        cases same
        exact ⟨_,rfl,.letter known spelled⟩

theorem takeString_sound (read : takeString s = some (text,rest)) :
    ∃ inside, s = inside ++ '"' :: rest ∧ StringText inside text := by
  fun_induction takeString s generalizing text rest with
  | case1 => cases read
  | case2 r =>
      cases read
      exact ⟨[],rfl,.nil⟩
  | case3 r escaped after escape _ ih =>
      obtain ⟨⟨inner,left⟩,behind,same⟩ := Option.map_eq_some_iff.mp read
      cases same
      obtain ⟨inside,rfl,spelled⟩ := ih behind
      exact takeEscape_sound escape spelled
  | case4 => cases read
  | case5 => cases read
  | case6 c r unquoted single printed ih =>
      obtain ⟨⟨inner,left⟩,behind,same⟩ := Option.map_eq_some_iff.mp read
      cases same
      obtain ⟨inside,rfl,spelled⟩ := ih behind
      exact ⟨c :: inside,rfl,.plain unquoted single printed spelled⟩

inductive WholePart : Text → Prop where
  | zero : WholePart ['0']
  | digits {c : Char} {r : Text} : c ≠ '0' → (∀ d ∈ c :: r, d.isDigit = true) → WholePart (c :: r)

inductive FractionPart : Text → Text → Prop where
  | none : FractionPart [] []
  | digits {digits : Text} : digits ≠ [] → (∀ d ∈ digits, d.isDigit = true) → FractionPart ('.' :: digits) digits

def minusSigns : List (Text × Bool) := [([],false),(['-'],true)]
def exponentSigns : List (Text × Bool) := [([],false),(['+'],false),(['-'],true)]

inductive ExponentPart : Text → Option (Bool × Text) → Prop where
  | none : ExponentPart [] none
  | digits {mark : Char} {sign digits : Text} {negative : Bool} : mark = 'e' ∨ mark = 'E' →
      (sign,negative) ∈ exponentSigns → digits ≠ [] → (∀ d ∈ digits, d.isDigit = true) →
      ExponentPart (mark :: (sign ++ digits)) (some (negative,digits))

inductive NumberText : Text → NumberLiteral → Prop where
  | parts {sign whole point fraction mark : Text} {negative : Bool} {exponent : Option (Bool × Text)} :
      (sign,negative) ∈ minusSigns → WholePart whole → FractionPart point fraction → ExponentPart mark exponent →
      NumberText (sign ++ (whole ++ (point ++ mark))) ⟨negative,whole,fraction,exponent⟩

-- What may stand behind a number without becoming a part of it.
def EndsNumber (rest : Text) : Prop := ∀ c r, rest = c :: r → c.isDigit = false ∧ c ≠ '.' ∧ c ≠ 'e' ∧ c ≠ 'E'

theorem endsNumber_cons (ends : c.isDigit = false ∧ c ≠ '.' ∧ c ≠ 'e' ∧ c ≠ 'E') (r : Text) : EndsNumber (c :: r) := by
  intro d t same
  cases same
  exact ends

theorem endsNumber_nil : EndsNumber [] := by
  intro c r same
  cases same

theorem takeDigits_cut (s : Text) : s = (Text.takeDigits s).1 ++ (Text.takeDigits s).2 :=
  List.takeWhile_append_dropWhile.symm

theorem takeDigits_digits (s : Text) : ∀ d ∈ (Text.takeDigits s).1, d.isDigit = true :=
  List.all_eq_true.mp List.all_takeWhile

theorem takeWhole_sound {whole : Text} (read : takeWhole s = some (whole,rest)) : s = whole ++ rest ∧ WholePart whole := by
  unfold takeWhole at read
  split at read
  · cases read
  · next c r =>
      split at read
      · next zero =>
          cases read
          subst zero
          exact ⟨rfl,.zero⟩
      · next other =>
          split at read
          · next digit =>
              cases read
              refine ⟨congrArg (c :: ·) (takeDigits_cut r),.digits other ?_⟩
              exact List.forall_mem_cons.mpr ⟨digit,takeDigits_digits r⟩
          · cases read

theorem takeFractionDigits_sound {fraction : Text} (read : takeFractionDigits s = some (fraction,rest)) :
    ∃ point, s = point ++ rest ∧ FractionPart point fraction := by
  unfold takeFractionDigits at read
  split at read
  · next r =>
      split at read
      · cases read
      · next filled =>
          cases read
          refine ⟨'.' :: (Text.takeDigits r).1,congrArg ('.' :: ·) (takeDigits_cut r),.digits ?_ (takeDigits_digits r)⟩
          simpa using filled
  · cases read
    exact ⟨[],rfl,.none⟩

theorem takeExponentSign_sound (s : Text) : ∃ sign, (sign,(takeExponentSign s).1) ∈ exponentSigns ∧
    s = sign ++ (takeExponentSign s).2 := by
  unfold takeExponentSign
  split
  · exact ⟨['-'],by simp [exponentSigns],rfl⟩
  · exact ⟨['+'],by simp [exponentSigns],rfl⟩
  · exact ⟨[],by simp [exponentSigns],rfl⟩

theorem takeExponent_sound {exponent : Option (Bool × Text)} (read : takeExponent s = some (exponent,rest)) :
    ∃ mark, s = mark ++ rest ∧ ExponentPart mark exponent := by
  unfold takeExponent at read
  split at read
  · cases read
    exact ⟨[],rfl,.none⟩
  · next c r =>
      split at read
      · next marked =>
          obtain ⟨sign,known,cut⟩ := takeExponentSign_sound r
          dsimp only at read
          split at read
          · cases read
          · next filled =>
              cases read
              refine ⟨c :: (sign ++ (Text.takeDigits (takeExponentSign r).2).1),?_,.digits ?_ known ?_ (takeDigits_digits _)⟩
              · rw [List.cons_append,List.append_assoc,← takeDigits_cut,← cut]
              · simpa using marked
              · simpa using filled
      · cases read
        exact ⟨[],rfl,.none⟩

theorem takeMinus_sound (s : Text) : ∃ sign, (sign,(takeMinus s).1) ∈ minusSigns ∧ s = sign ++ (takeMinus s).2 := by
  unfold takeMinus
  split
  · exact ⟨['-'],by simp [minusSigns],rfl⟩
  · exact ⟨[],by simp [minusSigns],rfl⟩

theorem takeNumber_sound (read : takeNumber s = some (literal,rest)) :
    ∃ front, s = front ++ rest ∧ NumberText front literal := by
  obtain ⟨sign,signed,cut⟩ := takeMinus_sound s
  simp only [takeNumber,Option.bind_eq_bind,Option.bind_eq_some_iff] at read
  obtain ⟨⟨whole,t⟩,first,⟨fraction,u⟩,second,⟨exponent,v⟩,third,same⟩ := read
  cases same
  obtain ⟨front,leading⟩ := takeWhole_sound first
  obtain ⟨point,middle,broken⟩ := takeFractionDigits_sound second
  obtain ⟨mark,back,scaled⟩ := takeExponent_sound third
  dsimp only at front middle back
  refine ⟨_,?_,.parts signed leading broken scaled⟩
  rw [cut,front,middle,back]
  simp

-- The other way, part by part. Each part ends where the next one begins.

theorem ExponentPart.ends {exponent : Option (Bool × Text)} {mark : Text} (part : ExponentPart mark exponent)
    (ends : EndsNumber rest) : ∀ c r, mark ++ rest = c :: r → c.isDigit = false ∧ c ≠ '.' := by
  intro c r begins
  cases part with
  | none => exact ⟨(ends c r begins).1,(ends c r begins).2.1⟩
  | digits marked =>
      obtain ⟨rfl,_⟩ := List.cons.inj begins
      rcases marked with rfl | rfl <;> decide

theorem FractionPart.ends {point fraction : Text} (part : FractionPart point fraction)
    (ends : ∀ c r, rest = c :: r → c.isDigit = false ∧ c ≠ '.') :
    ∀ c r, point ++ rest = c :: r → c.isDigit = false := by
  intro c r begins
  cases part with
  | none => exact (ends c r begins).1
  | digits =>
      obtain ⟨rfl,_⟩ := List.cons.inj begins
      rfl

theorem WholePart.begins {whole : Text} (part : WholePart whole) (rest : Text) :
    ∃ c r, whole ++ rest = c :: r ∧ c.isDigit = true := by
  cases part with
  | zero => exact ⟨_,_,rfl,rfl⟩
  | digits _ digits => exact ⟨_,_,rfl,(List.forall_mem_cons.mp digits).1⟩

theorem WholePart.takeWhole {whole : Text} (part : WholePart whole) (ends : ∀ c r, rest = c :: r → c.isDigit = false) :
    takeWhole (whole ++ rest) = some (whole,rest) := by
  cases part with
  | zero => rfl
  | digits other digits =>
      obtain ⟨first,later⟩ := List.forall_mem_cons.mp digits
      rw [List.cons_append,Json.takeWhole,if_neg other,if_pos first,Text.takeDigits_append later ends]

theorem FractionPart.takeFractionDigits {point fraction : Text} (part : FractionPart point fraction)
    (ends : ∀ c r, rest = c :: r → c.isDigit = false ∧ c ≠ '.') :
    takeFractionDigits (point ++ rest) = some (fraction,rest) := by
  cases part with
  | none =>
      unfold Json.takeFractionDigits
      split
      · next begins => exact absurd rfl (ends _ _ begins).2
      · rfl
  | digits filled digits =>
      simp [Json.takeFractionDigits,Text.takeDigits_append digits fun c r begins => (ends c r begins).1,filled]

theorem takeExponentSign_append {sign : Text} {negative : Bool} (known : (sign,negative) ∈ exponentSigns)
    (begins : ∀ c r, rest = c :: r → c.isDigit = true) : takeExponentSign (sign ++ rest) = (negative,rest) := by
  simp only [exponentSigns,List.mem_cons,Prod.mk.injEq,List.not_mem_nil,or_false] at known
  rcases known with ⟨rfl,rfl⟩ | ⟨rfl,rfl⟩ | ⟨rfl,rfl⟩
  · rw [List.nil_append]
    unfold takeExponentSign
    split
    · exact absurd (begins _ _ rfl) (by decide)
    · exact absurd (begins _ _ rfl) (by decide)
    · rfl
  · rfl
  · rfl

theorem ExponentPart.takeExponent {mark : Text} {exponent : Option (Bool × Text)} (part : ExponentPart mark exponent)
    (ends : EndsNumber rest) : takeExponent (mark ++ rest) = some (exponent,rest) := by
  cases part with
  | none =>
      cases rest with
      | nil => rfl
      | cons c r =>
          obtain ⟨_,_,small,capital⟩ := ends c r rfl
          simp [Json.takeExponent,small,capital]
  | @digits mark sign digits negative marked known filled decimal =>
      have begins : ∀ c r, digits ++ rest = c :: r → c.isDigit = true := by
        intro c r same
        cases digits with
        | nil => exact absurd rfl filled
        | cons d digits =>
            obtain ⟨rfl,_⟩ := List.cons.inj same
            exact decimal d List.mem_cons_self
      have taken := Text.takeDigits_append decimal fun c r behind => (ends c r behind).1
      simp [Json.takeExponent,marked,takeExponentSign_append known begins,taken,filled]

theorem takeMinus_append {sign : Text} {negative : Bool} (known : (sign,negative) ∈ minusSigns)
    (begins : ∃ c r, rest = c :: r ∧ c.isDigit = true) : takeMinus (sign ++ rest) = (negative,rest) := by
  simp only [minusSigns,List.mem_cons,Prod.mk.injEq,List.not_mem_nil,or_false] at known
  rcases known with ⟨rfl,rfl⟩ | ⟨rfl,rfl⟩
  · obtain ⟨c,r,rfl,digit⟩ := begins
    rw [List.nil_append]
    unfold takeMinus
    split
    · next same =>
        obtain ⟨rfl,_⟩ := List.cons.inj same
        cases digit
    · rfl
  · rfl

theorem NumberText.takeNumber (spelled : NumberText s literal) (ends : EndsNumber rest) :
    takeNumber (s ++ rest) = some (literal,rest) := by
  cases spelled with
  | @parts sign whole point fraction mark negative exponent signed leading broken scaled =>
      have third := scaled.takeExponent ends
      have second := broken.takeFractionDigits (scaled.ends ends)
      have first := leading.takeWhole (broken.ends (scaled.ends ends))
      have front := takeMinus_append signed (leading.begins (point ++ (mark ++ rest)))
      simp only [List.append_assoc]
      rw [Json.takeNumber,front]
      simp only [first,second,third,Option.bind_eq_bind,Option.bind_some]

end FieldedSearch.Json
