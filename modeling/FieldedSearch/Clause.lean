import FieldedSearch.Text.Blank

namespace FieldedSearch

inductive Quote where
  | bare
  | single
  | double
  deriving DecidableEq, Repr

structure Clause where
  -- Accepted and reported. No use of a query acts on it.
  negated : Bool
  field : Option Text
  value : Text
  quote : Quote
  deriving DecidableEq, Repr

def Quote.delimiter : Quote → Option Char
  | .bare => none
  | .single => some '\''
  | .double => some '"'

def isNameStart (c : Char) : Bool := c.isAlphanum || c = '_'
def isNameChar (c : Char) : Bool := c.isAlphanum || c = '_' || c = '-'

def IsFieldName (s : Text) : Prop := ∃ c r, s = c :: r ∧ isNameStart c = true ∧ ∀ d ∈ r, isNameChar d = true

namespace Clause

-- Each reader below takes what it understands off the front and hands on the rest.

-- A dash before a blank or at the end is a word of its own.
def takeNegation : Text → Bool × Text
  | '-' :: c :: r => if isBlank c then (false,'-' :: c :: r) else (true,c :: r)
  | s => (false,s)

def takeName : Text → Text × Text
  | c :: r => if isNameStart c then (c :: r.takeWhile isNameChar,r.dropWhile isNameChar) else ([],c :: r)
  | [] => ([],[])

-- Backslash pairs are taken whole, so an escaped delimiter does not close the value. It alone loses its
-- backslash. Every other pair is left for the reader of wildcards.
def takeQuoted (delimiter : Char) : Text → Option (Text × Text)
  | [] => none
  | '\\' :: c :: r =>
      (takeQuoted delimiter r).map fun (value,rest) =>
        (if c = delimiter then c :: value else '\\' :: c :: value,rest)
  | c :: r =>
      if c = delimiter then some ([],r)
      else (takeQuoted delimiter r).map fun (value,rest) => (c :: value,rest)

def takeBare (s : Text) : Text × Text :=
  (s.takeWhile fun c => !isBlank c,s.dropWhile fun c => !isBlank c)

def openingQuote : Text → Quote
  | '"' :: _ => .double
  | '\'' :: _ => .single
  | _ => .bare

-- An unclosed quote is an ordinary character of a bare word.
def takeValue (s : Text) : (Text × Quote) × Text :=
  let quote := openingQuote s
  match quote.delimiter.bind fun delimiter => takeQuoted delimiter s.tail with
  | some (value,rest) => ((value,quote),rest)
  | none => (((takeBare s).1,.bare),(takeBare s).2)

-- A negated clause or a label begins here, so this is no value of a name without colon.
def startsClause (s : Text) : Bool :=
  (takeNegation s).1 || (!(takeName s).1.isEmpty && (takeName s).2.head? = some ':')

def afterLabel : Text → Option Text
  | [] => none
  | c :: r =>
      let value := Text.dropBlank r
      if c = ':' then if value.isEmpty then none else some value
      else if isBlank c then if value.isEmpty || startsClause value then none else some value
      else none

def takeLabel (s : Text) : Option (Text × Text) :=
  if (takeName s).1.isEmpty then none
  else (afterLabel (takeName s).2).map fun value => ((takeName s).1,value)

def take (s : Text) : Clause × Text :=
  let (negated,body) := takeNegation s
  match takeLabel body with
  | some (name,value) => (⟨negated,some name,(takeValue value).1.1,(takeValue value).1.2⟩,(takeValue value).2)
  | none => (⟨negated,none,(takeValue body).1.1,(takeValue body).1.2⟩,(takeValue body).2)

theorem takeName_length (s : Text) : (takeName s).2.length ≤ s.length := by
  unfold takeName
  split
  · split
    · exact Nat.le_succ_of_le (Text.length_dropWhile_le _ _)
    · exact Nat.le_refl _
  · exact Nat.le_refl _

theorem takeQuoted_length (delimiter : Char) (s : Text) (value rest : Text)
    (closed : takeQuoted delimiter s = some (value,rest)) : rest.length < s.length := by
  fun_induction takeQuoted delimiter s generalizing value rest with
  | case1 => simp at closed
  | case2 c r ih =>
      obtain ⟨⟨inner,left⟩,read,eq⟩ := Option.map_eq_some_iff.1 closed
      have shorter := ih inner left read
      simp only [Prod.mk.injEq] at eq
      simp only [List.length_cons,← eq.2]
      omega
  | case3 r =>
      simp only [Option.some.injEq,Prod.mk.injEq] at closed
      simp [← closed.2]
  | case4 c r _ _ ih =>
      obtain ⟨⟨inner,left⟩,read,eq⟩ := Option.map_eq_some_iff.1 closed
      have shorter := ih inner left read
      simp only [Prod.mk.injEq] at eq
      simp only [List.length_cons,← eq.2]
      omega

theorem takeBare_length (c : Char) (r : Text) (word : isBlank c = false) :
    (takeBare (c :: r)).2.length < (c :: r).length := by
  have shorter := Text.length_dropWhile_le (fun c => !isBlank c) r
  simp only [takeBare,List.dropWhile_cons,word,Bool.not_false,if_true,List.length_cons]
  omega

theorem takeValue_length (c : Char) (r : Text) (word : isBlank c = false) :
    (takeValue (c :: r)).2.length < (c :: r).length := by
  simp only [takeValue]
  split
  · next value rest closed =>
      obtain ⟨delimiter,_,read⟩ := Option.bind_eq_some_iff.1 closed
      have shorter := takeQuoted_length _ _ _ _ read
      simp only [List.tail_cons] at shorter
      simp only [List.length_cons]
      omega
  · exact takeBare_length c r word

theorem dropBlank_head (s : Text) (c : Char) (r : Text) (begins : Text.dropBlank s = c :: r) :
    isBlank c = false := by
  induction s with
  | nil => simp [Text.dropBlank] at begins
  | cons d t ih =>
      simp only [Text.dropBlank,List.dropWhile_cons] at begins ih
      split at begins
      · exact ih begins
      · next solid => cases begins; simpa using solid

theorem afterLabel_length (s value : Text) (found : afterLabel s = some value) :
    value.length < s.length ∧ ∃ c r, value = c :: r ∧ isBlank c = false := by
  unfold afterLabel at found
  split at found
  · simp at found
  · next c r =>
      have shorter := Text.length_dropWhile_le isBlank r
      have solid : ∀ v : Text, Text.dropBlank r = v → v.isEmpty = false → ∃ c r, v = c :: r ∧ isBlank c = false := by
        intro v same filled
        cases v with
        | nil => simp at filled
        | cons d t => exact ⟨d,t,rfl,dropBlank_head r d t same⟩
      simp only at found
      split at found
      · split at found
        · simp at found
        · next filled =>
            cases found
            exact ⟨by simp only [Text.dropBlank,List.length_cons]; omega,solid _ rfl (by simpa using filled)⟩
      · split at found
        · split at found
          · simp at found
          · next filled =>
              cases found
              simp only [Bool.or_eq_true,not_or] at filled
              exact ⟨by simp only [Text.dropBlank,List.length_cons]; omega,solid _ rfl (by simpa using filled.1)⟩
        · simp at found

theorem takeLabel_length (s name value : Text) (found : takeLabel s = some (name,value)) :
    value.length < s.length ∧ ∃ c r, value = c :: r ∧ isBlank c = false := by
  unfold takeLabel at found
  split at found
  · simp at found
  · obtain ⟨left,read,eq⟩ := Option.map_eq_some_iff.1 found
    simp only [Prod.mk.injEq] at eq
    have shorter := takeName_length s
    obtain ⟨inner,solid⟩ := afterLabel_length _ _ read
    rw [← eq.2]
    exact ⟨by omega,solid⟩

theorem take_length (c : Char) (r : Text) (word : isBlank c = false) :
    (take (c :: r)).2.length < (c :: r).length := by
  have body : ∃ d t, (takeNegation (c :: r)).2 = d :: t ∧ isBlank d = false ∧ (d :: t).length ≤ (c :: r).length := by
    unfold takeNegation
    split
    · next d t same =>
        obtain ⟨rfl,rfl⟩ := List.cons.inj same
        split
        · exact ⟨_,_,rfl,word,Nat.le_refl _⟩
        · next solid => exact ⟨_,_,rfl,by simpa using solid,by simp⟩
    · exact ⟨_,_,rfl,word,Nat.le_refl _⟩
  obtain ⟨d,t,same,solid,shorter⟩ := body
  simp only [take,same]
  split
  · next name value found =>
      obtain ⟨inner,e,u,rfl,filled⟩ := takeLabel_length _ _ _ found
      have := takeValue_length e u filled
      simp only at this ⊢
      omega
  · have := takeValue_length d t solid
    simp only at this ⊢
    omega

def scan (s : Text) : List Clause :=
  match _begins : Text.dropBlank s with
  | [] => []
  | c :: r => (take (c :: r)).1 :: scan (take (c :: r)).2
termination_by s.length
decreasing_by
  have shorter := Text.length_dropWhile_le isBlank s
  have step := take_length c r (dropBlank_head s c r _begins)
  simp only [Text.dropBlank] at _begins
  rw [_begins] at shorter
  omega

end Clause
end FieldedSearch
