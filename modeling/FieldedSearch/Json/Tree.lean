import FieldedSearch.Text.Digits

namespace FieldedSearch.Json

structure NumberLiteral where
  negative : Bool
  whole : Text
  fraction : Text
  exponent : Option (Bool × Text)
  deriving DecidableEq, Repr

-- All that the grammar says and no more: numbers keep their digits, repeated keys stay, and a string that names half a
-- surrogate pair is there without its text.
inductive Tree where
  | null
  | bool (value : Bool)
  | number (literal : NumberLiteral)
  | string (text : Option Text)
  | array (items : List Tree)
  | object (members : List (Option Text × Tree))

def isSpace (c : Char) : Bool := c = ' ' || c = '\t' || c = '\n' || c = '\r'

def dropSpace (s : Text) : Text := s.dropWhile isSpace

def hexValue? (c : Char) : Option Nat :=
  if '0' ≤ c && c ≤ '9' then some (c.toNat - 48)
  else if 'a' ≤ c && c ≤ 'f' then some (c.toNat - 87)
  else if 'A' ≤ c && c ≤ 'F' then some (c.toNat - 55)
  else none

def takeHex : Text → Option (Nat × Text)
  | a :: b :: c :: d :: rest => do
      let a ← hexValue? a
      let b ← hexValue? b
      let c ← hexValue? c
      let d ← hexValue? d
      some (4096 * a + 256 * b + 16 * c + d,rest)
  | _ => none

def isHighSurrogate (n : Nat) : Bool := 0xd800 ≤ n && n < 0xdc00
def isLowSurrogate (n : Nat) : Bool := 0xdc00 ≤ n && n < 0xe000

def takeLowSurrogate : Text → Option (Nat × Text)
  | '\\' :: 'u' :: r => (takeHex r).filter fun (n,_) => isLowSurrogate n
  | _ => none

def simpleEscape? (c : Char) : Option Char :=
  if c = '"' || c = '\\' || c = '/' then some c
  else if c = 'b' then some '\x08'
  else if c = 'f' then some '\x0c'
  else if c = 'n' then some '\n'
  else if c = 'r' then some '\r'
  else if c = 't' then some '\t'
  else none

-- After the backslash. Half a pair is a well-formed escape of no character.
def takeEscape : Text → Option (Option Char × Text)
  | [] => none
  | c :: r =>
      if c = 'u' then
        (takeHex r).map fun (n,rest) =>
          if isHighSurrogate n then
            match takeLowSurrogate rest with
            | some (low,rest) => (some (Char.ofNat (0x10000 + 0x400 * (n - 0xd800) + (low - 0xdc00))),rest)
            | none => (none,rest)
          else if isLowSurrogate n then (none,rest)
          else (some (Char.ofNat n),rest)
      else (simpleEscape? c).map fun d => (some d,r)

theorem takeHex_length (s rest : Text) (n : Nat) (read : takeHex s = some (n,rest)) : rest.length < s.length := by
  unfold takeHex at read
  split at read
  · simp only [Option.bind_eq_bind,Option.bind_eq_some_iff] at read
    obtain ⟨_,_,_,_,_,_,_,_,eq⟩ := read
    simp only [Option.some.injEq,Prod.mk.injEq] at eq
    simp only [← eq.2,List.length_cons]
    omega
  · simp at read

theorem takeLowSurrogate_length (s rest : Text) (n : Nat) (read : takeLowSurrogate s = some (n,rest)) :
    rest.length < s.length := by
  unfold takeLowSurrogate at read
  split at read
  · rw [Option.filter_eq_some_iff] at read
    have shorter := takeHex_length _ _ _ read.1
    simp only [List.length_cons]
    omega
  · simp at read

theorem takeEscape_length (s rest : Text) (c : Option Char) (read : takeEscape s = some (c,rest)) :
    rest.length < s.length := by
  unfold takeEscape at read
  split at read
  · simp at read
  · split at read
    · obtain ⟨⟨n,after⟩,hex,eq⟩ := Option.map_eq_some_iff.1 read
      have shorter := takeHex_length _ _ _ hex
      simp only [List.length_cons]
      dsimp only at eq
      split at eq
      · split at eq
        · next low =>
            have shorterStill := takeLowSurrogate_length _ _ _ low
            simp only [Prod.mk.injEq] at eq
            simp only [← eq.2]
            omega
        · simp only [Prod.mk.injEq] at eq
          simp only [← eq.2]
          omega
      · split at eq <;>
        · simp only [Prod.mk.injEq] at eq
          simp only [← eq.2]
          omega
    · obtain ⟨d,_,eq⟩ := Option.map_eq_some_iff.1 read
      simp only [Prod.mk.injEq] at eq
      simp only [← eq.2,List.length_cons]
      omega

def takeString (s : Text) : Option (Option Text × Text) :=
  match s with
  | [] => none
  | c :: r =>
      if c = '"' then some (some [],r)
      else if c = '\\' then
        match _escape : takeEscape r with
        | some (escaped,rest) =>
            (takeString rest).map fun (text,rest) => (escaped.bind fun d => text.map (d :: ·),rest)
        | none => none
      else if c.toNat < 0x20 then none
      else (takeString r).map fun (text,rest) => (text.map (c :: ·),rest)
termination_by s.length
decreasing_by
  · have shorter := takeEscape_length _ _ _ _escape
    simp only [List.length_cons]
    omega
  · simp

theorem takeString_length (s rest : Text) (text : Option Text) (read : takeString s = some (text,rest)) :
    rest.length < s.length := by
  fun_induction takeString s generalizing text rest with
  | case1 => simp at read
  | case2 r =>
      simp only [Option.some.injEq,Prod.mk.injEq] at read
      simp [← read.2]
  | case3 r escaped after escape _ ih =>
      obtain ⟨⟨inner,left⟩,tail,eq⟩ := Option.map_eq_some_iff.1 read
      have shorter := ih _ _ tail
      have shorterEscape := takeEscape_length _ _ _ escape
      simp only [Prod.mk.injEq] at eq
      simp only [← eq.2,List.length_cons]
      omega
  | case4 => simp at read
  | case5 => simp at read
  | case6 c r _ _ _ ih =>
      obtain ⟨⟨inner,left⟩,tail,eq⟩ := Option.map_eq_some_iff.1 read
      have shorter := ih _ _ tail
      simp only [Prod.mk.injEq] at eq
      simp only [← eq.2,List.length_cons]
      omega

-- A zero in front stands alone.
def takeWhole : Text → Option (Text × Text)
  | [] => none
  | c :: r =>
      if c = '0' then some (['0'],r)
      else if c.isDigit then some (c :: (Text.takeDigits r).1,(Text.takeDigits r).2)
      else none

def takeFractionDigits : Text → Option (Text × Text)
  | '.' :: r => if (Text.takeDigits r).1.isEmpty then none else some (Text.takeDigits r)
  | s => some ([],s)

def takeExponentSign : Text → Bool × Text
  | '-' :: r => (true,r)
  | '+' :: r => (false,r)
  | s => (false,s)

def takeExponent : Text → Option (Option (Bool × Text) × Text)
  | [] => some (none,[])
  | c :: r =>
      if c = 'e' || c = 'E' then
        let (negative,s) := takeExponentSign r
        if (Text.takeDigits s).1.isEmpty then none
        else some (some (negative,(Text.takeDigits s).1),(Text.takeDigits s).2)
      else some (none,c :: r)

def takeMinus : Text → Bool × Text
  | '-' :: r => (true,r)
  | s => (false,s)

def takeNumber (s : Text) : Option (NumberLiteral × Text) := do
  let (negative,s) := takeMinus s
  let (whole,s) ← takeWhole s
  let (fraction,s) ← takeFractionDigits s
  let (exponent,s) ← takeExponent s
  some (⟨negative,whole,fraction,exponent⟩,s)

def words : List (Text × Tree) :=
  [("null".toList,.null),("true".toList,.bool true),("false".toList,.bool false)]

def takeScalar (s : Text) : Option (Tree × Text) :=
  match words.find? fun (word,_) => word.isPrefixOf s with
  | some (word,tree) => some (tree,s.drop word.length)
  | none => (takeNumber s).map fun (literal,rest) => (.number literal,rest)

theorem length_of_dropSpace (s r : Text) (c : Char) (begins : dropSpace s = c :: r) : r.length < s.length := by
  have shorter := Text.length_dropWhile_le isSpace s
  simp only [dropSpace] at begins
  rw [begins,List.length_cons] at shorter
  omega

mutual

def takeTree (s : Text) : Option (Tree × Text) :=
  match _begins : dropSpace s with
  | [] => none
  | c :: r =>
      if c = '"' then (takeString r).map fun (text,rest) => (.string text,rest)
      else if c = '[' then
        match dropSpace r with
        | ']' :: rest => some (.array [],rest)
        | _ => (takeItems r).map fun (items,rest) => (.array items,rest)
      else if c = '\x7b' then
        match dropSpace r with
        | '\x7d' :: rest => some (.object [],rest)
        | _ => (takeMembers r).map fun (members,rest) => (.object members,rest)
      else takeScalar (c :: r)
termination_by (s.length,0)
decreasing_by
  all_goals
    have shorter := length_of_dropSpace s r c _begins
    exact Prod.Lex.left _ _ shorter

def takeItems (s : Text) : Option (List Tree × Text) :=
  match takeTree s with
  | none => none
  | some (item,rest) =>
      match dropSpace rest with
      | ',' :: more =>
          if more.length < s.length then (takeItems more).map fun (items,rest) => (item :: items,rest) else none
      | ']' :: rest => some ([item],rest)
      | _ => none
termination_by (s.length,1)
decreasing_by
  · exact Prod.Lex.right _ Nat.zero_lt_one
  · exact Prod.Lex.left _ _ (by assumption)

def takeMembers (s : Text) : Option (List (Option Text × Tree) × Text) :=
  match _begins : dropSpace s with
  | '"' :: r =>
      match _key : takeString r with
      | none => none
      | some (key,rest) =>
          match _colon : dropSpace rest with
          | ':' :: rest =>
              match takeTree rest with
              | none => none
              | some (tree,rest) =>
                  match dropSpace rest with
                  | ',' :: more =>
                      if more.length < s.length then
                        (takeMembers more).map fun (members,rest) => ((key,tree) :: members,rest)
                      else none
                  | '\x7d' :: rest => some ([(key,tree)],rest)
                  | _ => none
          | _ => none
  | _ => none
termination_by (s.length,1)
decreasing_by
  · have first := length_of_dropSpace _ _ _ _begins
    have second := takeString_length _ _ _ _key
    have third := length_of_dropSpace _ _ _ _colon
    exact Prod.Lex.left _ _ (by omega)
  · apply Prod.Lex.left; assumption

end

def read? (s : Text) : Option Tree :=
  match takeTree s with
  | some (tree,rest) => if (dropSpace rest).isEmpty then some tree else none
  | none => none

end FieldedSearch.Json
