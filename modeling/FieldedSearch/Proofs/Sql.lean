import FieldedSearch.Filter

namespace FieldedSearch.Sql

inductive Lexeme where
  | openBracket
  | closeBracket
  | equal
  | word (s : Text)
  | column (s : Text)
  | string (s : Text)
  deriving DecidableEq, Repr

-- A doubled backtick is one of the name.
def takeColumn : Text → Option (Text × Text)
  | [] => none
  | '`' :: '`' :: r => (takeColumn r).map fun (s,rest) => ('`' :: s,rest)
  | c :: r => if c = '`' then some ([],r) else (takeColumn r).map fun (s,rest) => (c :: s,rest)

-- A backslash gives way to the character behind it, unless that one means something to `LIKE`.
def takeString : Text → Option (Text × Text)
  | [] => none
  | '\\' :: c :: r =>
      (takeString r).map fun (s,rest) => (if c = '%' || c = '_' then '\\' :: c :: s else c :: s,rest)
  | c :: r =>
      if c = '"' then some ([],r)
      else if c = '\\' then none
      else (takeString r).map fun (s,rest) => (c :: s,rest)

def isWordChar (c : Char) : Bool := c.isAlphanum || c = '_'

def takeLexeme (c : Char) (r : Text) : Option (Lexeme × Text) :=
  match c with
  | '(' => some (.openBracket,r)
  | ')' => some (.closeBracket,r)
  | '=' => some (.equal,r)
  | '`' => (takeColumn r).map fun (s,rest) => (.column s,rest)
  | '"' => (takeString r).map fun (s,rest) => (.string s,rest)
  | c => if isWordChar c then some (.word (c :: r.takeWhile isWordChar),r.dropWhile isWordChar) else none

theorem takeColumn_length (s value rest : Text) (taken : takeColumn s = some (value,rest)) :
    rest.length ≤ s.length := by
  fun_induction takeColumn s generalizing value rest with
  | case1 => cases taken
  | case2 r ih =>
      obtain ⟨⟨inner,left⟩,read,same⟩ := Option.map_eq_some_iff.mp taken
      cases same
      have shorter := ih _ _ read
      simp only [List.length_cons]
      omega
  | case3 r _ => cases taken; simp
  | case4 c r _ _ ih =>
      obtain ⟨⟨inner,left⟩,read,same⟩ := Option.map_eq_some_iff.mp taken
      cases same
      exact Nat.le_succ_of_le (ih _ _ read)

theorem takeString_length (s value rest : Text) (taken : takeString s = some (value,rest)) :
    rest.length ≤ s.length := by
  fun_induction takeString s generalizing value rest with
  | case1 => cases taken
  | case2 c r ih =>
      obtain ⟨⟨inner,left⟩,read,same⟩ := Option.map_eq_some_iff.mp taken
      cases same
      have shorter := ih _ _ read
      simp only [List.length_cons]
      omega
  | case3 r _ => cases taken; simp
  | case4 => cases taken
  | case5 c r _ _ _ ih =>
      obtain ⟨⟨inner,left⟩,read,same⟩ := Option.map_eq_some_iff.mp taken
      cases same
      exact Nat.le_succ_of_le (ih _ _ read)

theorem takeLexeme_length (c : Char) (r : Text) (lexeme : Lexeme) (rest : Text)
    (taken : takeLexeme c r = some (lexeme,rest)) : rest.length ≤ r.length := by
  unfold takeLexeme at taken
  split at taken
  · cases taken; exact Nat.le_refl _
  · cases taken; exact Nat.le_refl _
  · cases taken; exact Nat.le_refl _
  · obtain ⟨⟨inner,left⟩,read,same⟩ := Option.map_eq_some_iff.mp taken
    cases same
    exact takeColumn_length _ _ _ read
  · obtain ⟨⟨inner,left⟩,read,same⟩ := Option.map_eq_some_iff.mp taken
    cases same
    exact takeString_length _ _ _ read
  · split at taken
    · cases taken
      exact Text.length_dropWhile_le isWordChar r
    · cases taken

def lex (s : Text) : Option (List Lexeme) :=
  match _begins : s.dropWhile (· = ' ') with
  | [] => some []
  | c :: r => match _taken : takeLexeme c r with
    | none => none
    | some (lexeme,rest) => (lex rest).map (lexeme :: ·)
termination_by s.length
decreasing_by
  have step := takeLexeme_length c r lexeme rest _taken
  have shorter := Text.length_dropWhile_le (· = ' ') s
  rw [_begins] at shorter
  simp only [List.length_cons] at shorter
  omega

-- The operand of `LIKE` is still a pattern.
structure Test where
  column : Text
  comparator : Comparator
  operand : Text
  deriving DecidableEq, Repr

def comparator? : Lexeme → Option Comparator
  | .equal => some .equal
  | .word s => if s = "LIKE".toList then some .like else none
  | _ => none

def tests? : List Lexeme → Option (List Test)
  | [.column name,sign,.string operand,.closeBracket] =>
      (comparator? sign).map fun comparator => [⟨name,comparator,operand⟩]
  | .column name :: sign :: .string operand :: .word s :: rest =>
      if s = "AND".toList then
        (comparator? sign).bind fun comparator => (tests? rest).map (⟨name,comparator,operand⟩ :: ·)
      else none
  | _ => none

-- A lone one is true, so it tests nothing.
def condition? : List Lexeme → Option (List Test)
  | .openBracket :: rest => if rest = [.word ['1'],.closeBracket] then some [] else tests? rest
  | _ => none

def read? (s : Text) : Option (List Test) := (lex s).bind condition?

inductive Like : Text → Text → Prop where
  | done : Like [] []
  | any {pattern run rest : Text} : Like pattern rest → Like ('%' :: pattern) (run ++ rest)
  | one {c : Char} {pattern rest : Text} : Like pattern rest → Like ('_' :: pattern) (c :: rest)
  | escaped {c : Char} {pattern rest : Text} : Like pattern rest → Like ('\\' :: c :: pattern) (c :: rest)
  -- At the end there is nothing left to escape.
  | backslash : Like ['\\'] ['\\']
  | plain {c : Char} {pattern rest : Text} : c ≠ '%' → c ≠ '_' → c ≠ '\\' → Like pattern rest →
      Like (c :: pattern) (c :: rest)

-- A missing column satisfies nothing.
def Test.Holds (record : List (Text × Text)) (test : Test) : Prop :=
  ∃ actual, (test.column,actual) ∈ record ∧ match test.comparator with
    | .equal => actual = test.operand
    | .like => Like test.operand actual

def Holds (record : List (Text × Text)) (tests : List Test) : Prop := ∀ test ∈ tests, test.Holds record

variable {c : Char} {s r rest text pattern operand piece read : Text} {lexeme : Lexeme}

theorem like_nil_exact : Like [] s ↔ s = [] := by
  constructor
  · intro whole
    cases whole
    rfl
  · intro same
    subst same
    exact .done

theorem like_any_exact : Like ('%' :: pattern) s ↔ ∃ run rest, s = run ++ rest ∧ Like pattern rest := by
  constructor
  · intro whole
    cases whole with
    | any later => exact ⟨_,_,rfl,later⟩
    | plain other => exact absurd rfl other
  · intro split
    obtain ⟨run,rest,rfl,later⟩ := split
    exact .any later

theorem like_char_exact (percent : c ≠ '%') (single : c ≠ '\\') :
    Like ((if c = '_' then "\\_".toList else [c]) ++ pattern) s ↔ ∃ rest, s = c :: rest ∧ Like pattern rest := by
  by_cases underscore : c = '_'
  · subst underscore
    have escaped : "\\_".toList ++ pattern = '\\' :: '_' :: pattern := rfl
    rw [if_pos rfl,escaped]
    constructor
    · intro whole
      cases whole with
      | escaped later => exact ⟨_,rfl,later⟩
      | plain _ _ other => exact absurd rfl other
    · intro split
      obtain ⟨rest,rfl,later⟩ := split
      exact .escaped later
  · rw [if_neg underscore,List.singleton_append]
    constructor
    · intro whole
      cases whole with
      | any => exact absurd rfl percent
      | one => exact absurd rfl underscore
      | escaped => exact absurd rfl single
      | backslash => exact absurd rfl single
      | plain _ _ _ later => exact ⟨_,rfl,later⟩
    · intro split
      obtain ⟨rest,rfl,later⟩ := split
      exact .plain percent underscore single later

theorem like_text_exact (percent : '%' ∉ text) (single : '\\' ∉ text) :
    Like (text.substitute '_' "\\_".toList ++ pattern) s ↔ ∃ rest, s = text ++ rest ∧ Like pattern rest := by
  induction text generalizing s with
  | nil => simp [Text.substitute]
  | cons c text ih =>
      simp only [List.mem_cons,not_or] at percent single
      rw [Text.substitute_cons,List.append_assoc,like_char_exact (Ne.symm percent.1) (Ne.symm single.1)]
      constructor
      · intro split
        obtain ⟨_,rfl,later⟩ := split
        obtain ⟨rest,rfl,last⟩ := (ih percent.2 single.2).mp later
        exact ⟨rest,rfl,last⟩
      · intro split
        obtain ⟨rest,rfl,last⟩ := split
        exact ⟨_,rfl,(ih percent.2 single.2).mpr ⟨rest,rfl,last⟩⟩

theorem lex_end (ends : s.dropWhile (· = ' ') = []) : lex s = some [] := by
  rw [lex]
  split
  · rfl
  · next same => rw [ends] at same; cases same

theorem lex_begins (begins : s.dropWhile (· = ' ') = c :: r) :
    lex s = (takeLexeme c r).bind fun (lexeme,rest) => (lex rest).map (lexeme :: ·) := by
  rw [lex]
  split
  · next same => rw [begins] at same; cases same
  · next same =>
      rw [begins] at same
      cases same
      split
      · next missing => rw [missing]; rfl
      · next found => rw [found]; rfl

theorem lex_space (s : Text) : lex (' ' :: s) = lex s := by
  cases begins : s.dropWhile (· = ' ') with
  | nil => rw [lex_end begins,lex_end (by simpa using begins)]
  | cons c r => rw [lex_begins begins,lex_begins (by simpa using begins)]

theorem lex_step (solid : c ≠ ' ') (taken : takeLexeme c r = some (lexeme,rest)) :
    lex (c :: r) = (lex rest).map (lexeme :: ·) := by
  rw [lex_begins (c := c) (r := r) (by simp [solid]),taken]
  rfl

theorem takeColumn_plain (other : c ≠ '`') (r : Text) :
    takeColumn (c :: r) = (takeColumn r).map fun (s,rest) => (c :: s,rest) := by
  rw [takeColumn.eq_3 _ _ fun _ same => absurd same other,if_neg other]

theorem takeColumn_written (name rest : Text) :
    takeColumn (name.substitute '`' "``".toList ++ '`' :: ' ' :: rest) = some (name,' ' :: rest) := by
  induction name with
  | nil => rfl
  | cons c name ih =>
      rw [Text.substitute_cons,List.append_assoc]
      by_cases tick : c = '`'
      · subst tick
        have doubled : ∀ r, takeColumn ("``".toList ++ r) = (takeColumn r).map fun (s,rest) => ('`' :: s,rest) := by
          intro r
          rfl
        rw [if_pos rfl,doubled,ih]
        rfl
      · rw [if_neg tick,List.singleton_append,takeColumn_plain tick,ih]
        rfl

theorem takeString_pair (c : Char) (r : Text) : takeString ('\\' :: c :: r) =
    (takeString r).map fun (s,rest) => ((if c = '%' || c = '_' then ['\\',c] else [c]) ++ s,rest) := by
  rw [takeString]
  by_cases kept : (c = '%' || c = '_') = true <;> simp [kept]

theorem takeString_plain (inside : c ≠ '"') (single : c ≠ '\\') (r : Text) :
    takeString (c :: r) = (takeString r).map fun (s,rest) => (c :: s,rest) := by
  rw [takeString.eq_3 _ _ fun _ _ same => absurd same single,if_neg inside,if_neg single]

-- Of all quotes behind the opening one, it is the one behind the text that ends the string.
def Closes (pattern operand : Text) : Prop := ∀ rest, takeString (pattern ++ '"' :: rest) = some (operand,rest)

theorem closes_nil : Closes [] [] := fun _ => rfl

def Reads (piece read : Text) : Prop :=
  ∀ r, takeString (piece ++ r) = (takeString r).map fun (s,rest) => (read ++ s,rest)

theorem closes_append (step : Reads piece read) (closes : Closes pattern operand) :
    Closes (piece ++ pattern) (read ++ operand) := by
  intro rest
  rw [List.append_assoc,step,closes]
  rfl

theorem closes_behind (step : Reads piece read) (closes : Closes (piece ++ pattern) operand) :
    Closes pattern (operand.drop read.length) := by
  intro rest
  have whole := closes rest
  rw [List.append_assoc,step] at whole
  obtain ⟨⟨later,left⟩,taken,same⟩ := Option.map_eq_some_iff.mp whole
  cases same
  rw [taken,List.drop_left]

def Lexeme.ofComparator : Comparator → Lexeme
  | .equal => .equal
  | .like => .word "LIKE".toList

theorem comparator?_ofComparator (comparator : Comparator) :
    comparator? (.ofComparator comparator) = some comparator := by
  cases comparator <;> rfl

theorem lex_sign (comparator : Comparator) (s : Text) :
    lex (comparator.sign ++ ' ' :: s) = (lex s).map (.ofComparator comparator :: ·) := by
  cases comparator with
  | equal =>
      have taken : takeLexeme '=' (' ' :: s) = some (.equal,' ' :: s) := rfl
      exact (lex_step (by decide) taken).trans (by rw [lex_space]; rfl)
  | like =>
      have taken : takeLexeme 'L' ('I' :: 'K' :: 'E' :: ' ' :: s) = some (.word "LIKE".toList,' ' :: s) := rfl
      exact (lex_step (by decide) taken).trans (by rw [lex_space]; rfl)

theorem lex_and (s : Text) : lex (" AND ".toList ++ s) = (lex s).map (.word "AND".toList :: ·) := by
  have taken : takeLexeme 'A' ('N' :: 'D' :: ' ' :: s) = some (.word "AND".toList,' ' :: s) := rfl
  have cut : " AND ".toList ++ s = ' ' :: 'A' :: 'N' :: 'D' :: ' ' :: s := rfl
  rw [cut,lex_space,lex_step (by decide) taken,lex_space]

theorem lex_column (name s : Text) :
    lex ('`' :: (name.substitute '`' "``".toList ++ '`' :: ' ' :: s)) = (lex s).map (.column name :: ·) := by
  have taken : takeLexeme '`' (name.substitute '`' "``".toList ++ '`' :: ' ' :: s) = some (.column name,' ' :: s) :=
    congrArg (Option.map _) (takeColumn_written name s)
  rw [lex_step (by decide) taken,lex_space]

theorem lex_string (closes : Closes pattern operand) (rest : Text) :
    lex ('"' :: (pattern ++ '"' :: rest)) = (lex rest).map (.string operand :: ·) :=
  lex_step (by decide) (congrArg (Option.map _) (closes rest))

theorem lex_comparison (comparison : Comparison) (closes : Closes comparison.pattern operand) (rest : Text) :
    lex (comparison.text ++ rest) =
      (lex rest).map (.column comparison.column :: .ofComparator comparison.comparator :: .string operand :: ·) := by
  have cut : comparison.text ++ rest = '`' :: (comparison.column.substitute '`' "``".toList ++ '`' :: ' ' ::
      (comparison.comparator.sign ++ ' ' :: '"' :: (comparison.pattern ++ '"' :: rest))) := by
    simp [Comparison.text]
  rw [cut,lex_column,lex_sign,lex_string closes]
  simp [Function.comp_def]

theorem lex_opening (s : Text) : lex ('(' :: s) = (lex s).map (.openBracket :: ·) :=
  lex_step (by decide) rfl

theorem lex_closing : lex [')'] = some [.closeBracket] := by
  rw [lex_step (by decide) (show takeLexeme ')' [] = some (.closeBracket,[]) from rfl),lex_end rfl]
  rfl

theorem lex_one : lex "(1)".toList = some [.openBracket,.word ['1'],.closeBracket] := by
  have taken : takeLexeme '1' [')'] = some (.word ['1'],[')']) := rfl
  have cut : "(1)".toList = ['(','1',')'] := rfl
  rw [cut,lex_opening,lex_step (by decide) taken,lex_closing]
  rfl

end FieldedSearch.Sql
