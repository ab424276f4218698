import FieldedSearch.Proofs.Glob

namespace FieldedSearch.Regex

inductive Atom where
  | exactly (c : Char)
  | dot
  deriving DecidableEq, Repr

inductive Sign where
  | atom (a : Atom)
  | star
  | start
  | finish
  deriving DecidableEq, Repr

inductive Item where
  | start
  | finish
  | one (a : Atom)
  | many (a : Atom)
  deriving DecidableEq, Repr

def Atom.Allows : Atom → Char → Prop
  | .exactly c,d => d = c
  | .dot,d => d ≠ '\n'

def isMark (c : Char) : Bool := "\\.+*?()|[]\x7b\x7d^$".toList.contains c

-- Every other sign of ASCII may be escaped, whether it is a mark or not.
def isEscapable (c : Char) : Bool := c.val < 128 && !c.isAlphanum && c ≠ '<' && c ≠ '>'

def sign? (c : Char) : Option Sign :=
  if c = '.' then some (.atom .dot)
  else if c = '*' then some .star
  else if c = '^' then some .start
  else if c = '$' then some .finish
  else if isMark c then none
  else some (.atom (.exactly c))

-- Groups, classes, choices and counts are left unread.
def signs? : Text → Option (List Sign)
  | [] => some []
  | '\\' :: c :: r => if isEscapable c then (signs? r).map (.atom (.exactly c) :: ·) else none
  | c :: r => (sign? c).bind fun sign => (signs? r).map (sign :: ·)

def items? : List Sign → Option (List Item)
  | [] => some []
  | .atom a :: .star :: r => (items? r).map (.many a :: ·)
  | .atom a :: r => (items? r).map (.one a :: ·)
  | .start :: r => (items? r).map (.start :: ·)
  | .finish :: r => (items? r).map (.finish :: ·)
  | .star :: _ => none

def read? (pattern : Text) : Option (List Item) := (signs? pattern).bind items?

inductive Reads : List Item → Text → Text → Prop where
  | done {before rest : Text} : Reads [] before rest
  | start {items : List Item} {rest : Text} : Reads items [] rest → Reads (.start :: items) [] rest
  | finish {items : List Item} {before : Text} : Reads items before [] → Reads (.finish :: items) before []
  | one {a : Atom} {c : Char} {items : List Item} {before rest : Text} : a.Allows c →
      Reads items (before ++ [c]) rest → Reads (.one a :: items) before (c :: rest)
  | leave {a : Atom} {items : List Item} {before rest : Text} : Reads items before rest →
      Reads (.many a :: items) before rest
  | more {a : Atom} {c : Char} {items : List Item} {before rest : Text} : a.Allows c →
      Reads (.many a :: items) (before ++ [c]) rest → Reads (.many a :: items) before (c :: rest)

-- A search may start anywhere. Only the items can hold it to the ends of the text.
def Found (items : List Item) (s : Text) : Prop := ∃ before rest, s = before ++ rest ∧ Reads items before rest

def Finds (pattern s : Text) : Prop := ∃ items, read? pattern = some items ∧ Found items s

def ofToken : Token → List Item
  | .wildcard => [.many .dot]
  | .literal s => s.map fun c => .one (.exactly c)

def ofTokens (tokens : List Token) : List Item := .start :: tokens.flatMap ofToken ++ [.finish]

def signsOf : Token → List Sign
  | .wildcard => [.atom .dot,.star]
  | .literal s => s.map fun c => .atom (.exactly c)

variable {c : Char} {s r text before rest : Text} {tokens : List Token} {items : List Item} {signs : List Sign}

theorem isEscapable_mark (mark : Token.isRegexMark c = true) : isEscapable c = true := by
  have all : "\\.+*?()|[]\x7b\x7d^$#&-~".toList.all isEscapable = true := rfl
  exact List.all_eq_true.mp all c (List.contains_iff_mem.mp mark)

theorem sign?_plain (plain : Token.isRegexMark c = false) : sign? c = some (.atom (.exactly c)) := by
  have other : ∀ d, Token.isRegexMark d = true → c ≠ d := by
    rintro d mark rfl
    simp [mark] at plain
  have marks : "\\.+*?()|[]\x7b\x7d^$".toList.all Token.isRegexMark = true := rfl
  have unmarked : isMark c = false := by
    cases mark : isMark c with
    | false => rfl
    | true => exact absurd rfl (other c (List.all_eq_true.mp marks c (List.contains_iff_mem.mp mark)))
  simp [sign?,unmarked,other '.' rfl,other '*' rfl,other '^' rfl,other '$' rfl]

theorem signs?_plain (single : c ≠ '\\') (r : Text) :
    signs? (c :: r) = (sign? c).bind fun sign => (signs? r).map (sign :: ·) :=
  signs?.eq_3 c r fun _ _ same => absurd same single

theorem signs?_escape (s r : Text) :
    signs? (Text.escape Token.isRegexMark s ++ r) = (signs? r).map (signsOf (.literal s) ++ ·) := by
  induction s with
  | nil => simp [Text.escape,signsOf]
  | cons c s ih =>
      rw [Text.escape_cons,List.append_assoc]
      cases mark : Token.isRegexMark c with
      | true => simp [signs?,isEscapable_mark mark,ih,signsOf,Function.comp_def]
      | false =>
          have single : c ≠ '\\' := by
            intro same
            subst same
            cases mark
          simp only [Bool.false_eq_true,if_false,List.singleton_append]
          rw [signs?_plain single,sign?_plain mark,ih]
          simp [signsOf,Function.comp_def]

theorem signs?_tokens (tokens : List Token) (r : Text) :
    signs? (tokens.flatMap Token.regex ++ r) = (signs? r).map (tokens.flatMap signsOf ++ ·) := by
  induction tokens with
  | nil => simp
  | cons token tokens ih =>
      simp only [List.flatMap_cons,List.append_assoc]
      cases token with
      | wildcard =>
          have dot : ∀ r, signs? (Token.regex .wildcard ++ r) = (signs? r).map (signsOf .wildcard ++ ·) := by
            intro r
            have cut : Token.regex .wildcard ++ r = '.' :: '*' :: r := rfl
            rw [cut,signs?_plain (by decide),signs?_plain (by decide)]
            simp [sign?,signsOf,Function.comp_def]
          rw [dot,ih]
          simp [Function.comp_def]
      | literal s =>
          rw [Token.regex,signs?_escape,ih]
          simp [Function.comp_def]

theorem items?_literal (s : Text) (unstarred : signs.head? ≠ some .star) :
    items? (signsOf (.literal s) ++ signs) = (items? signs).map (ofToken (.literal s) ++ ·) := by
  induction s with
  | nil => simp [signsOf,ofToken]
  | cons c s ih =>
      have plain : items? (.atom (.exactly c) :: (signsOf (.literal s) ++ signs)) =
          (items? (signsOf (.literal s) ++ signs)).map (.one (.exactly c) :: ·) := by
        cases s with
        | nil => exact items?.eq_3 _ _ fun _ same => unstarred (by simpa [signsOf] using congrArg List.head? same)
        | cons d s => rfl
      simp only [signsOf,ofToken,List.map_cons,List.cons_append] at plain ih ⊢
      rw [plain,ih]
      simp [Function.comp_def]

theorem items?_tokens (tokens : List Token) :
    items? (tokens.flatMap signsOf ++ [.finish]) = some (tokens.flatMap ofToken ++ [.finish]) ∧
      (tokens.flatMap signsOf ++ [Sign.finish]).head? ≠ some .star := by
  induction tokens with
  | nil => exact ⟨rfl,by simp⟩
  | cons token tokens ih =>
      obtain ⟨read,unstarred⟩ := ih
      simp only [List.flatMap_cons,List.append_assoc]
      cases token with
      | wildcard => exact ⟨by simp [signsOf,ofToken,items?,read],by simp [signsOf]⟩
      | literal s =>
          refine ⟨by rw [items?_literal s unstarred,read]; rfl,?_⟩
          cases s with
          | nil => exact unstarred
          | cons c s => simp [signsOf]

theorem read?_tokens (tokens : List Token) : read? (Tokens.regex tokens) = some (ofTokens tokens) := by
  have finish : signs? ['$'] = some [.finish] := rfl
  have cut : Tokens.regex tokens = '^' :: (tokens.flatMap Token.regex ++ ['$']) := rfl
  rw [read?,cut,signs?_plain (by decide),signs?_tokens,finish]
  simp [sign?,items?,items?_tokens,ofTokens]

theorem reads_literal (s : Text) :
    Reads (ofToken (.literal s) ++ items) before text ↔ ∃ rest, text = s ++ rest ∧ Reads items (before ++ s) rest := by
  induction s generalizing before text with
  | nil => simp [ofToken]
  | cons c s ih =>
      constructor
      · intro whole
        cases whole with
        | one allowed later =>
            obtain ⟨rest,rfl,more⟩ := ih.mp later
            cases allowed
            exact ⟨rest,rfl,by simpa using more⟩
      · intro split
        obtain ⟨rest,rfl,more⟩ := split
        exact .one rfl (ih.mpr ⟨rest,rfl,by simpa using more⟩)

theorem reads_wildcard :
    Reads (ofToken .wildcard ++ items) before text ↔
      ∃ run rest, text = run ++ rest ∧ '\n' ∉ run ∧ Reads items (before ++ run) rest := by
  constructor
  · intro whole
    induction text generalizing before with
    | nil => cases whole with
      | leave later => exact ⟨[],[],rfl,List.not_mem_nil,by simpa using later⟩
    | cons c text ih => cases whole with
      | leave later => exact ⟨[],c :: text,rfl,List.not_mem_nil,by simpa using later⟩
      | more allowed later =>
          obtain ⟨run,rest,rfl,line,more⟩ := ih later
          exact ⟨c :: run,rest,rfl,by simp [Ne.symm allowed,line],by simpa using more⟩
  · intro split
    obtain ⟨run,rest,rfl,line,later⟩ := split
    induction run generalizing before with
    | nil => exact .leave (by simpa using later)
    | cons c run ih =>
        simp only [List.mem_cons,not_or] at line
        exact .more (Ne.symm line.1) (ih line.2 (by simpa using later))

theorem reads_tokens : Reads (tokens.flatMap ofToken ++ [.finish]) before s ↔ Glob.Matches tokens s := by
  induction tokens generalizing before s with
  | nil =>
      rw [Glob.matches_nil_exact]
      constructor
      · intro whole
        cases whole
        rfl
      · intro same
        subst same
        exact .finish .done
  | cons token tokens ih =>
      rw [List.flatMap_cons,List.append_assoc]
      cases token with
      | wildcard => simp only [reads_wildcard,ih,Glob.matches_wildcard_exact]
      | literal text => simp only [reads_literal,ih,Glob.matches_literal_exact]

-- The anchors leave a search one place to start and one to end.
theorem found_exact (tokens : List Token) (s : Text) : Found (ofTokens tokens) s ↔ Glob.Matches tokens s := by
  constructor
  · intro found
    obtain ⟨before,rest,rfl,whole⟩ := found
    cases whole with
    | start later => exact reads_tokens.mp later
  · intro whole
    exact ⟨[],s,rfl,.start (reads_tokens.mpr whole)⟩

theorem finds_exact (tokens : List Token) (s : Text) : Finds (Tokens.regex tokens) s ↔ Glob.Matches tokens s := by
  rw [← found_exact]
  constructor
  · intro finds
    obtain ⟨items,read,found⟩ := finds
    cases (read?_tokens tokens).symm.trans read
    exact found
  · intro found
    exact ⟨_,read?_tokens tokens,found⟩

end FieldedSearch.Regex
