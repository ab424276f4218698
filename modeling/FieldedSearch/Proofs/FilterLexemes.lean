import FieldedSearch.Proofs.Backslashes
import FieldedSearch.Proofs.Sql
import FieldedSearch.Proofs.Tokens

namespace FieldedSearch.Sql

open Text (EvenRuns Paired)

def protectChar (comparator : Comparator) (c : Char) : Text :=
  if c = '"' then "\\\"".toList else if comparator = .like && c = '_' then "\\_".toList else [c]

def protect (comparator : Comparator) (s : Text) : Text := s.flatMap (protectChar comparator)

def received (comparator : Comparator) : Text → Text
  | [] => []
  | '\\' :: c :: r => (if c = '%' || c = '_' then ['\\',c] else [c]) ++ received comparator r
  | c :: r => (if comparator = .like && c = '_' then ['\\',c] else [c]) ++ received comparator r

variable {comparator : Comparator} {c : Char} {s operand : Text} {case : CaseMode} {f : Field}

theorem received_char (single : c ≠ '\\') (r : Text) : received comparator (c :: r) =
    (if comparator = .like && c = '_' then ['\\',c] else [c]) ++ received comparator r :=
  received.eq_3 _ _ _ fun _ _ same => absurd same single

theorem received_underscore (r : Text) : received .like ('_' :: r) = '\\' :: '_' :: received .like r :=
  received_char (by decide) r

theorem received_plain (single : c ≠ '\\') (underscore : c ≠ '_') (r : Text) :
    received comparator (c :: r) = c :: received comparator r := by
  simp [received_char single,underscore]

theorem received_solid (solid : '\\' ∉ s) :
    received .equal s = s ∧ received .like s = s.substitute '_' "\\_".toList := by
  induction s with
  | nil => exact ⟨rfl,rfl⟩
  | cons c s ih =>
      simp only [List.mem_cons,not_or] at solid
      obtain ⟨equal,like⟩ := ih solid.2
      rw [received_char (Ne.symm solid.1),received_char (Ne.symm solid.1),equal,like,Text.substitute_cons]
      refine ⟨by simp,?_⟩
      by_cases underscore : c = '_' <;> simp [underscore]

theorem protect_cons (c : Char) (r : Text) :
    protect comparator (c :: r) = protectChar comparator c ++ protect comparator r := by
  simp [protect]

theorem protect_like (s : Text) :
    protect .like s = (s.substitute '"' "\\\"".toList).substitute '_' "\\_".toList := by
  rw [protect,Text.substitute,Text.substitute,List.flatMap_assoc]
  refine congrArg (s.flatMap ·) (funext fun c => ?_)
  by_cases quote : c = '"'
  · subst quote
    rfl
  · by_cases underscore : c = '_' <;> simp [protectChar,quote,underscore]

theorem ofField_pattern (case : CaseMode) (f : Field) : (Comparison.ofField case f).pattern =
    protect (Comparison.ofField case f).comparator (Tokens.likePattern (Token.ofValue f.first)) := by
  cases wild : Tokens.hasWildcard (Token.ofValue f.first) with
  | true => simp [Comparison.ofField,wild,protect_like]
  | false =>
      simp only [Comparison.ofField,wild,Bool.false_eq_true,if_false,protect,Text.substitute]
      refine congrArg (List.flatMap · _) (funext fun c => ?_)
      simp [protectChar]

theorem protectChar_plain (unquoted : c ≠ '"') (free : ¬(comparator = .like && c = '_') = true) :
    protectChar comparator c = [c] := by
  rw [protectChar,if_neg unquoted,if_neg free]

theorem protectChar_underscore (underscore : (comparator = .like && c = '_') = true) :
    protectChar comparator c = ['\\','_'] ∧ c = '_' := by
  obtain ⟨like,rfl⟩ : comparator = .like ∧ c = '_' := by simpa using underscore
  subst like
  exact ⟨rfl,rfl⟩

-- The backslash in front takes the one that protects an underscore along, and both readings come to the same.
theorem reads_pair (comparator : Comparator) (unquoted : c ≠ '"') :
    Reads ('\\' :: protectChar comparator c) (if c = '%' || c = '_' then ['\\',c] else [c]) := by
  intro r
  by_cases underscore : (comparator = .like && c = '_') = true
  · obtain ⟨written,rfl⟩ := protectChar_underscore underscore
    rw [written,List.cons_append,List.cons_append,takeString_pair]
    exact (congrArg (Option.map _) (takeString_plain (by decide) (by decide) r)).trans (Option.map_map ..)
  · rw [protectChar_plain unquoted underscore]
    exact takeString_pair c r

theorem reads_char (comparator : Comparator) (single : c ≠ '\\') :
    Reads (protectChar comparator c) (if comparator = .like && c = '_' then ['\\',c] else [c]) := by
  intro r
  by_cases quote : c = '"'
  · subst quote
    have plain : ¬(comparator = .like && '"' = '_') = true := by simp
    rw [if_neg plain]
    exact takeString_pair '"' r
  · by_cases underscore : (comparator = .like && c = '_') = true
    · obtain ⟨written,rfl⟩ := protectChar_underscore underscore
      rw [written,if_pos underscore]
      exact takeString_pair '_' r
    · rw [protectChar_plain quote underscore,if_neg underscore]
      exact takeString_plain quote single r

theorem protect_pair (c : Char) (s : Text) :
    protect comparator ('\\' :: c :: s) = '\\' :: protectChar comparator c ++ protect comparator s := by
  rw [protect_cons,protect_cons,protectChar_plain (by decide) (by simp)]
  rfl

theorem closes_paired (paired : Paired '"' s) : Closes (protect comparator s) (received comparator s) := by
  induction paired with
  | nil => exact closes_nil
  | pair unquoted _ ih =>
      rw [protect_pair,received]
      exact closes_append (reads_pair comparator unquoted) ih
  | char single _ ih =>
      rw [protect_cons,received_char single]
      exact closes_append (reads_char comparator single) ih

theorem Closes.paired : ∀ s operand, Closes (protect comparator s) operand → Paired '"' s
  | [],_,_ => .nil
  | [c],operand,closes => by
      refine .char ?_ .nil
      intro single
      subst single
      -- The quote behind it is no end any more.
      have unended : takeString (protect comparator ['\\'] ++ ['"']) = none := by cases comparator <;> rfl
      cases unended.symm.trans (closes [])
  | c :: d :: s,operand,closes => by
      by_cases single : c = '\\'
      · subst single
        by_cases quote : d = '"'
        · subst quote
          -- The backslash that protects the quote is taken along instead, and the quote ends the string.
          have early : takeString (protect comparator ('\\' :: '"' :: s) ++ ['"']) =
              some (['\\'],protect comparator s ++ ['"']) := by
            rw [protect_pair]
            rfl
          have ends := early.symm.trans (closes [])
          simp at ends
        · rw [protect_pair] at closes
          exact .pair quote (Closes.paired s _ (closes_behind (reads_pair comparator quote) closes))
      · rw [protect_cons] at closes
        exact .char single (Closes.paired _ _ (closes_behind (reads_char comparator single) closes))

-- No other text ends its string where the filter does.
theorem closes_exact : (∃ operand, Closes (protect comparator s) operand) ↔ EvenRuns '"' s := by
  rw [Text.evenRuns_exact]
  constructor
  · intro ends
    obtain ⟨operand,closes⟩ := ends
    exact Closes.paired s operand closes
  · exact fun paired => ⟨_,closes_paired paired⟩

def Test.lexemes (test : Test) : List Lexeme :=
  [.column test.column,.ofComparator test.comparator,.string test.operand]

def conditionLexemes (tests : List Test) : List Lexeme :=
  .openBracket :: [Lexeme.word "AND".toList].intercalate (tests.map Test.lexemes) ++ [.closeBracket]

def Test.found (case : CaseMode) (f : Field) : Test :=
  let comparison := Comparison.ofField case f
  ⟨comparison.column,comparison.comparator,received comparison.comparator (Tokens.likePattern (Token.ofValue f.first))⟩

theorem lex_found (paired : Paired '"' (Tokens.likePattern (Token.ofValue f.first))) (rest : Text) :
    lex ((Comparison.ofField case f).text ++ rest) = (lex rest).map ((Test.found case f).lexemes ++ ·) := by
  have closes : Closes (Comparison.ofField case f).pattern (Test.found case f).operand := by
    rw [ofField_pattern]
    exact closes_paired paired
  exact lex_comparison _ closes rest

theorem lex_joined (case : CaseMode) (f : Field) (fields : List Field)
    (paired : ∀ g ∈ f :: fields, Paired '"' (Tokens.likePattern (Token.ofValue g.first))) (rest : Text) :
    lex (Text.join " AND ".toList ((f :: fields).map fun g => (Comparison.ofField case g).text) ++ rest) =
      (lex rest).map
        ([Lexeme.word "AND".toList].intercalate ((f :: fields).map fun g => (Test.found case g).lexemes) ++ ·) := by
  induction fields generalizing f with
  | nil =>
      simp only [List.map_cons,List.map_nil,Text.join,List.intercalate_singleton]
      exact lex_found (paired f List.mem_cons_self) rest
  | cons g fields ih =>
      have later := ih g fun h member => paired h (List.mem_cons_of_mem _ member)
      simp only [List.map_cons,Text.join,List.append_assoc,List.intercalate_cons_cons] at later ⊢
      rw [lex_found (paired f List.mem_cons_self),lex_and,later]
      simp [Function.comp_def]

theorem lex_ofRule (rule : Rule) (filled : rule.fields ≠ [])
    (paired : ∀ f ∈ rule.fields, Paired '"' (Tokens.likePattern (Token.ofValue f.first))) :
    lex (Filter.ofRule case rule) = some (conditionLexemes (rule.fields.map (Test.found case))) := by
  obtain ⟨f,later,fields⟩ := List.exists_cons_of_ne_nil filled
  rw [fields] at paired
  have text : Filter.ofRule case rule =
      '(' :: (Text.join " AND ".toList ((f :: later).map fun g => (Comparison.ofField case g).text) ++ [')']) := by
    simp [Filter.ofRule,Filter.comparisons,Filter.text,fields,Function.comp_def]
  rw [text,lex_opening,lex_joined case f later paired,lex_closing,fields]
  simp [conditionLexemes,Function.comp_def]

def Test.ofField (case : CaseMode) (f : Field) : Test :=
  let pattern := Tokens.likePattern (Token.ofValue f.first)
  if Tokens.hasWildcard (Token.ofValue f.first) then ⟨case.apply f.name,.like,pattern.substitute '_' "\\_".toList⟩
  else ⟨case.apply f.name,.equal,pattern⟩

theorem found_ofField (solid : '\\' ∉ Tokens.likePattern (Token.ofValue f.first)) :
    Test.found case f = Test.ofField case f := by
  obtain ⟨equal,like⟩ := received_solid solid
  cases wild : Tokens.hasWildcard (Token.ofValue f.first) with
  | true => simp [Test.found,Test.ofField,Comparison.ofField,wild,like]
  | false => simp [Test.found,Test.ofField,Comparison.ofField,wild,equal]

theorem tests?_last (test : Test) : tests? (test.lexemes ++ [.closeBracket]) = some [test] := by
  simp [Test.lexemes,tests?,comparator?_ofComparator]

theorem tests?_and (test : Test) (rest : List Lexeme) :
    tests? (test.lexemes ++ .word "AND".toList :: rest) = (tests? rest).map (test :: ·) := by
  simp [Test.lexemes,tests?,comparator?_ofComparator]

theorem tests?_joined (test : Test) (tests : List Test) :
    tests? ([Lexeme.word "AND".toList].intercalate ((test :: tests).map Test.lexemes) ++ [.closeBracket]) =
      some (test :: tests) := by
  induction tests generalizing test with
  | nil => exact tests?_last test
  | cons next tests ih =>
      have later := ih next
      simp only [List.map_cons,List.intercalate_cons_cons,List.append_assoc,List.singleton_append] at later ⊢
      rw [List.cons_append,tests?_and,later]
      rfl

theorem condition?_joined (test : Test) (tests : List Test) :
    condition? (conditionLexemes (test :: tests)) = some (test :: tests) := by
  have read := tests?_joined test tests
  have restrictive : [Lexeme.word "AND".toList].intercalate ((test :: tests).map Test.lexemes) ++ [.closeBracket] ≠
      [.word ['1'],.closeBracket] := by
    intro same
    rw [same] at read
    cases read
  rw [conditionLexemes,List.cons_append,condition?,if_neg restrictive,read]

theorem conditionLexemes_injective : ∀ tests others, conditionLexemes tests = conditionLexemes others → tests = others
  | [],[],_ => rfl
  | [],other :: others,same => by
      have read := condition?_joined other others
      rw [← same] at read
      cases read
  | test :: tests,[],same => by
      have read := condition?_joined test tests
      rw [same] at read
      cases read
  | test :: tests,other :: others,same => by
      have read := condition?_joined test tests
      rw [same,condition?_joined] at read
      exact (Option.some.inj read).symm

theorem read?_ofRule (rule : Rule) (solid : ∀ f ∈ rule.fields, '\\' ∉ Tokens.likePattern (Token.ofValue f.first)) :
    read? (Filter.ofRule case rule) = some (rule.fields.map (Test.ofField case)) := by
  cases fields : rule.fields with
  | nil =>
      rw [read?,Filter.ofRule,Filter.comparisons,fields,List.map_nil,Filter.text,lex_one]
      rfl
  | cons f later =>
      have paired : ∀ g ∈ rule.fields, Paired '"' (Tokens.likePattern (Token.ofValue g.first)) :=
        fun g member => Text.paired_of_absent (solid g member)
      have same : rule.fields.map (Test.found case) = rule.fields.map (Test.ofField case) :=
        List.map_congr_left fun g member => found_ofField (solid g member)
      rw [read?,lex_ofRule rule (by simp [fields]) paired,same,fields]
      exact condition?_joined _ _

end FieldedSearch.Sql
