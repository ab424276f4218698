import Mathlib.Data.List.Forall2
import FieldedSearch.Proofs.FilterLexemes

namespace FieldedSearch.Sql

open Text (EvenRuns Paired)

variable {comparator : Comparator} {c : Char} {s r : Text} {case : CaseMode} {f : Field} {tokens : List Token}

-- The tokens of a `LIKE` pattern. An underscore by itself is one character of any kind, which no token stands for.
def likeTokens? : Text → Option (List Token)
  | [] => some []
  | '\\' :: c :: r => (likeTokens? r).map (Token.prepend c)
  | c :: r =>
      if c = '%' then (likeTokens? r).map (.wildcard :: ·)
      else if c = '_' then none
      else (likeTokens? r).map (Token.prepend c)

def plainTokens (s : Text) : List Token := s.foldr Token.prepend []

def Test.tokens? (test : Test) : Option (List Token) :=
  match test.comparator with
  | .equal => some (plainTokens test.operand)
  | .like => likeTokens? test.operand

-- A lone backslash is lost unless `%` or `_` stands behind it.
def KeepsBackslashes (s : Text) : Prop :=
  ∀ before after, s = before ++ '\\' :: after → after.head? = some '%' ∨ after.head? = some '_'

-- What the two operators can say without change.
def Expressible (tokens : List Token) : Prop :=
  if Tokens.hasWildcard tokens then '\\' ∉ Tokens.literalText tokens ∧ '%' ∉ Tokens.literalText tokens
  else KeepsBackslashes (Tokens.literalText tokens)

theorem plainTokens_literalText (s : Text) : Tokens.literalText (plainTokens s) = s := Tokens.literalText_chars s

theorem plainTokens_likePattern (grown : Token.Grown tokens) (exact : Tokens.hasWildcard tokens = false) :
    plainTokens (Tokens.likePattern tokens) = tokens := by
  induction grown with
  | nil => rfl
  | wildcard => cases exact
  | char c _ ih =>
      rw [Tokens.hasWildcard_prepend] at exact
      rw [Tokens.likePattern_prepend]
      exact congrArg (Token.prepend c) (ih exact)

theorem received_length (paired : Paired '"' s) : (received .equal s).length ≤ s.length := by
  induction paired with
  | nil => exact Nat.le_refl _
  | pair _ _ ih =>
      rw [received,List.length_append]
      split <;> simp only [List.length_cons,List.length_nil] <;> omega
  | char single _ ih =>
      rw [received_char single]
      exact Nat.succ_le_succ ih

theorem keepsBackslashes_char (single : c ≠ '\\') : KeepsBackslashes (c :: s) ↔ KeepsBackslashes s := by
  constructor
  · intro keeps before after cut
    exact keeps (c :: before) after (congrArg (c :: ·) cut)
  · intro keeps before after cut
    cases before with
    | nil => exact absurd (List.cons.inj cut).1 single
    | cons d before => exact keeps before after (List.cons.inj cut).2

theorem keepsBackslashes_backslash : KeepsBackslashes ('\\' :: s) ↔
    (s.head? = some '%' ∨ s.head? = some '_') ∧ KeepsBackslashes s := by
  constructor
  · intro keeps
    refine ⟨keeps [] s rfl,?_⟩
    intro before after cut
    exact keeps ('\\' :: before) after (congrArg ('\\' :: ·) cut)
  · intro both before after cut
    cases before with
    | nil => exact (List.cons.inj cut).2 ▸ both.1
    | cons d before => exact both.2 before after (List.cons.inj cut).2

-- A backslash arrives only with a sign of `LIKE` behind it. Any other makes the string shorter.
theorem received_exact (paired : Paired '"' s) : received .equal s = s ↔ KeepsBackslashes s := by
  induction paired with
  | nil => exact iff_of_true rfl fun before after cut => by simp at cut
  | @pair c s _ paired ih =>
      rw [received,keepsBackslashes_backslash,List.head?_cons,Option.some.injEq,Option.some.injEq]
      by_cases kept : c = '%' ∨ c = '_'
      · have single : c ≠ '\\' := by
          rcases kept with rfl | rfl <;> decide
        rw [if_pos (by simpa using kept),keepsBackslashes_char single,and_iff_right kept,← ih]
        simp
      · rw [if_neg (by simpa using kept)]
        refine iff_of_false ?_ fun both => kept both.1
        intro same
        have length := congrArg List.length same
        have shorter := received_length paired
        simp only [List.length_append,List.length_cons,List.length_nil] at length
        omega
  | @char c s single _ ih =>
      rw [received_char single,keepsBackslashes_char single,← ih]
      simp

theorem equal_tokens (grown : Token.Grown tokens) (exact : Tokens.hasWildcard tokens = false)
    (paired : Paired '"' (Tokens.likePattern tokens)) :
    plainTokens (received .equal (Tokens.likePattern tokens)) = tokens ↔ Expressible tokens := by
  rw [Expressible,exact,if_neg Bool.false_ne_true,← Tokens.likePattern_literal exact,← received_exact paired]
  constructor
  · intro same
    have text := congrArg Tokens.literalText same
    rwa [plainTokens_literalText,← Tokens.likePattern_literal exact] at text
  · intro same
    rw [same]
    exact plainTokens_likePattern grown exact

def percentTokens (s : Text) : List Token :=
  s.foldr (fun c tokens => if c = '%' then .wildcard :: tokens else Token.prepend c tokens) []

theorem likeTokens?_escaped (c : Char) (r : Text) :
    likeTokens? ('\\' :: c :: r) = (likeTokens? r).map (Token.prepend c) := by
  rw [likeTokens?]

theorem likeTokens?_single (single : c ≠ '\\') (r : Text) : likeTokens? (c :: r) =
    if c = '%' then (likeTokens? r).map (.wildcard :: ·) else if c = '_' then none
    else (likeTokens? r).map (Token.prepend c) :=
  likeTokens?.eq_3 _ _ fun _ _ same => absurd same single

theorem likeTokens?_percent (r : Text) : likeTokens? ('%' :: r) = (likeTokens? r).map (.wildcard :: ·) :=
  likeTokens?_single (by decide) r

theorem likeTokens?_underscore (r : Text) : likeTokens? ('_' :: r) = none := likeTokens?_single (by decide) r

theorem likeTokens?_plain (percent : c ≠ '%') (underscore : c ≠ '_') (single : c ≠ '\\') (r : Text) :
    likeTokens? (c :: r) = (likeTokens? r).map (Token.prepend c) := by
  rw [likeTokens?_single single,if_neg percent,if_neg underscore]

theorem likeTokens?_received (unescaped : '\\' ∉ s) : likeTokens? (received .like s) = some (percentTokens s) := by
  induction s with
  | nil => rfl
  | cons c s ih =>
      simp only [List.mem_cons,not_or] at unescaped
      rw [percentTokens,List.foldr_cons,← percentTokens]
      by_cases underscore : c = '_'
      · subst underscore
        rw [received_underscore,likeTokens?_escaped,ih unescaped.2]
        rfl
      · rw [received_plain (Ne.symm unescaped.1) underscore]
        by_cases percent : c = '%'
        · subst percent
          rw [likeTokens?_percent,ih unescaped.2]
          rfl
        · rw [likeTokens?_plain percent underscore (Ne.symm unescaped.1),ih unescaped.2,if_neg percent]
          rfl

theorem percentTokens_likePattern (grown : Token.Grown tokens) (unlike : '%' ∉ Tokens.literalText tokens) :
    percentTokens (Tokens.likePattern tokens) = tokens := by
  induction grown with
  | nil => rfl
  | wildcard _ ih => exact congrArg (.wildcard :: ·) (ih unlike)
  | char c _ ih =>
      rw [Tokens.literalText_prepend,List.mem_cons,not_or] at unlike
      rw [Tokens.likePattern_prepend,percentTokens,List.foldr_cons,if_neg (Ne.symm unlike.1)]
      exact congrArg (Token.prepend c) (ih unlike.2)

theorem percentTokens_literalText (s : Text) : '%' ∉ Tokens.literalText (percentTokens s) := by
  induction s with
  | nil => exact List.not_mem_nil
  | cons c s ih =>
      rw [percentTokens,List.foldr_cons,← percentTokens]
      split
      · exact ih
      · next percent =>
          rw [Tokens.literalText_prepend,List.mem_cons,not_or]
          exact ⟨Ne.symm percent,ih⟩

def Within (bound : Nat) (s : Text) : Prop :=
  ∀ tokens, likeTokens? s = some tokens → (Tokens.plain tokens).length ≤ bound

theorem Within.mono {less more : Nat} (within : Within less s) (le : less ≤ more) : Within more s :=
  fun tokens read => Nat.le_trans (within tokens read) le

theorem Within.escaped {bound : Nat} (c : Char) (within : Within bound r) : Within (bound + 1) ('\\' :: c :: r) := by
  intro tokens read
  rw [likeTokens?_escaped] at read
  obtain ⟨later,known,rfl⟩ := Option.map_eq_some_iff.mp read
  rw [Tokens.plain_prepend]
  exact Nat.succ_le_succ (within later known)

theorem Within.single {bound : Nat} (single : c ≠ '\\') (within : Within bound r) : Within (bound + 1) (c :: r) := by
  intro tokens read
  rw [likeTokens?_single single] at read
  split at read
  · obtain ⟨later,known,rfl⟩ := Option.map_eq_some_iff.mp read
    exact Nat.succ_le_succ (within later known)
  · split at read
    · cases read
    · obtain ⟨later,known,rfl⟩ := Option.map_eq_some_iff.mp read
      rw [Tokens.plain_prepend]
      exact Nat.succ_le_succ (within later known)

theorem within_char {bound : Nat} (single : c ≠ '\\') (within : Within bound (received .like s)) :
    Within (bound + 1) (received .like (c :: s)) := by
  by_cases underscore : c = '_'
  · subst underscore
    rw [received_underscore]
    exact within.escaped '_'
  · rw [received_plain single underscore]
    exact within.single single

-- One of the two backslashes in a pair is lost on the way, or takes the other one along.
theorem within_pair {bound : Nat} (within : Within bound (received .like s))
    (behind : Within (bound + 1) ('\\' :: received .like s)) :
    Within (bound + 1) (received .like ('\\' :: c :: s)) := by
  rw [received]
  split
  · exact within.escaped c
  · by_cases single : c = '\\'
    · subst single
      exact behind
    · exact within.single single

-- What is behind a backslash matters too, since the string may have brought one in front.
theorem within_received (paired : Paired '"' s) :
    Within s.length (received .like s) ∧ Within (s.length + 1) ('\\' :: received .like s) := by
  induction paired with
  | nil =>
      refine ⟨?_,?_⟩
      · intro tokens read
        cases read
        exact Nat.le_refl _
      · intro tokens read
        cases read
        exact Nat.le_refl _
  | @pair c s _ _ ih =>
      refine ⟨(within_pair ih.1 ih.2).mono (Nat.le_succ _),?_⟩
      rw [received]
      split
      · next kept =>
          have single : c ≠ '\\' := by
            intro same
            subst same
            cases kept
          exact ((ih.1.single single).escaped '\\').mono (Nat.le_succ _)
      · exact (ih.1.escaped c).mono (Nat.le_add_right _ 2)
  | @char c s single _ ih =>
      refine ⟨within_char single ih.1,?_⟩
      by_cases underscore : c = '_'
      · subst underscore
        intro tokens read
        rw [received_underscore,likeTokens?_escaped,likeTokens?_underscore] at read
        cases read
      · rw [received_plain single underscore]
        exact (ih.1.escaped c).mono (Nat.le_succ _)

theorem within_backslash (paired : Paired '"' s) (inside : '\\' ∈ s) : Within (s.length - 1) (received .like s) := by
  induction paired with
  | nil => cases inside
  | pair _ paired _ =>
      obtain ⟨within,behind⟩ := within_received paired
      exact within_pair within behind
  | @char c s single _ ih =>
      have later : '\\' ∈ s := (List.mem_cons.mp inside).resolve_left (Ne.symm single)
      have filled : 0 < s.length := List.length_pos_of_mem later
      have length : (c :: s).length - 1 = s.length - 1 + 1 := (Nat.sub_add_cancel filled).symm
      rw [length]
      exact within_char single (ih later)

theorem like_tokens (grown : Token.Grown tokens) (wild : Tokens.hasWildcard tokens = true)
    (paired : Paired '"' (Tokens.likePattern tokens)) :
    likeTokens? (received .like (Tokens.likePattern tokens)) = some tokens ↔ Expressible tokens := by
  rw [Expressible,if_pos wild]
  constructor
  · intro read
    have solid : '\\' ∉ Tokens.likePattern tokens := by
      intro inside
      have shorter := within_backslash paired inside _ read
      rw [← Tokens.likePattern_length] at shorter
      exact absurd shorter (Nat.not_le_of_lt (Nat.sub_one_lt (Nat.ne_of_gt (List.length_pos_of_mem inside))))
    rw [likeTokens?_received solid] at read
    refine ⟨Tokens.likePattern_backslash.not.mp solid,?_⟩
    rw [← Option.some.inj read]
    exact percentTokens_literalText _
  · intro plain
    rw [likeTokens?_received (Tokens.likePattern_backslash.not.mpr plain.1),percentTokens_likePattern grown plain.2]

def Test.Restores (test : Test) (f : Field) : Prop := test.tokens? = some (Token.ofValue f.first)

instance (test : Test) (f : Field) : Decidable (test.Restores f) := inferInstanceAs (Decidable (_ = _))

theorem found_restores (paired : Paired '"' (Tokens.likePattern (Token.ofValue f.first))) :
    (Test.found case f).Restores f ↔ Expressible (Token.ofValue f.first) := by
  have grown := Token.ofValue_grown f.first
  rw [Test.Restores]
  cases wild : Tokens.hasWildcard (Token.ofValue f.first) with
  | true =>
      have pattern : (Test.found case f).tokens? =
          likeTokens? (received .like (Tokens.likePattern (Token.ofValue f.first))) := by
        simp [Test.found,Test.tokens?,Comparison.ofField,wild]
      rw [pattern]
      exact like_tokens grown wild paired
  | false =>
      have text : (Test.found case f).tokens? =
          some (plainTokens (received .equal (Tokens.likePattern (Token.ofValue f.first)))) := by
        simp [Test.found,Test.tokens?,Comparison.ofField,wild]
      rw [text,Option.some.injEq]
      exact equal_tokens grown wild paired

def ReadsAs (case : CaseMode) (rule : Rule) (agrees : Test → Field → Prop) : Prop :=
  ∃ tests, lex (Filter.ofRule case rule) = some (conditionLexemes tests) ∧
    List.Forall₂ (fun test f => test.column = case.apply f.name ∧ agrees test f) tests rule.fields

theorem readsAs_exact {rule : Rule} {agrees : Test → Field → Prop} (filled : rule.fields ≠ [])
    (paired : ∀ f ∈ rule.fields, Paired '"' (Tokens.likePattern (Token.ofValue f.first))) :
    ReadsAs case rule agrees ↔ ∀ f ∈ rule.fields, agrees (Test.found case f) f := by
  have column : ∀ f, (Test.found case f).column = case.apply f.name := by
    intro f
    cases wild : Tokens.hasWildcard (Token.ofValue f.first) <;> simp [Test.found,Comparison.ofField,wild]
  have found : List.Forall₂ (fun test f => test.column = case.apply f.name ∧ agrees test f)
      (rule.fields.map (Test.found case)) rule.fields ↔ ∀ f ∈ rule.fields, agrees (Test.found case f) f := by
    rw [List.forall₂_map_left_iff,List.forall₂_same]
    exact forall_congr' fun f => forall_congr' fun _ => and_iff_right (column f)
  rw [← found,ReadsAs,lex_ofRule rule filled paired]
  constructor
  · intro reads
    obtain ⟨tests,same,agree⟩ := reads
    rwa [conditionLexemes_injective _ _ (Option.some.inj same)]
  · exact fun agree => ⟨_,rfl,agree⟩

theorem filter_reads_back (case : CaseMode) (rule : Rule) :
    (∀ f ∈ rule.fields, (∃ operand, Closes (Comparison.ofField case f).pattern operand) ↔
      EvenRuns '"' (Tokens.likePattern (Token.ofValue f.first))) ∧
    (rule.fields = [] → lex (Filter.ofRule case rule) = some [.openBracket,.word ['1'],.closeBracket]) ∧
    (rule.fields ≠ [] → (∀ f ∈ rule.fields, EvenRuns '"' (Tokens.likePattern (Token.ofValue f.first))) →
      ReadsAs case rule fun test f =>
        (test.comparator = .like ↔ Tokens.hasWildcard (Token.ofValue f.first) = true) ∧
        (test.Restores f ↔ Expressible (Token.ofValue f.first))) := by
  refine ⟨?_,?_,?_⟩
  · intro f _
    rw [ofField_pattern]
    exact closes_exact
  · intro empty
    rw [Filter.ofRule,Filter.comparisons,empty,List.map_nil,Filter.text,lex_one]
  · intro filled even
    have paired := fun f member => Text.evenRuns_exact.mp (even f member)
    refine (readsAs_exact filled paired).mpr fun f member => ⟨?_,found_restores (paired f member)⟩
    cases wild : Tokens.hasWildcard (Token.ofValue f.first) <;> simp [Test.found,Comparison.ofField,wild]

theorem filter_reads_back_odd_values :
    (Rule.ofPairs [("na`me".toList,"a_\"b*".toList),("N".toList,"\\\\\\\\\"".toList)]).fields ≠ [] ∧
    (∀ f ∈ (Rule.ofPairs [("na`me".toList,"a_\"b*".toList),("N".toList,"\\\\\\\\\"".toList)]).fields,
      EvenRuns '"' (Tokens.likePattern (Token.ofValue f.first))) ∧
    ∃ first second : Test,
      lex "(`na``me` LIKE \"a\\_\\\"b%\" AND `N` = \"\\\\\\\"\")".toList = some (conditionLexemes [first,second]) ∧
      first.tokens? = some [.literal "a_\"b".toList,.wildcard] ∧
      second.tokens? ≠ some [.literal "\\\\\"".toList] := by
  have filled : (Rule.ofPairs [("na`me".toList,"a_\"b*".toList),("N".toList,"\\\\\\\\\"".toList)]).fields ≠ [] := by
    decide
  have even : ∀ f ∈ (Rule.ofPairs [("na`me".toList,"a_\"b*".toList),("N".toList,"\\\\\\\\\"".toList)]).fields,
      EvenRuns '"' (Tokens.likePattern (Token.ofValue f.first)) := by
    refine List.forall_mem_cons.mpr ⟨?_,List.forall_mem_singleton.mpr ?_⟩
    · exact Text.evenRuns_exact.mpr (Text.paired_of_absent (by decide))
    · exact Text.evenRuns_exact.mpr (.pair (c := '\\') (by decide) (.char (by decide) .nil))
  have kept : Expressible (Token.ofValue "a_\"b*".toList) := by
    rw [Expressible,if_pos (by decide)]
    decide
  have lost : ¬Expressible (Token.ofValue "\\\\\\\\\"".toList) := by
    rw [Expressible,if_neg (by decide)]
    intro keeps
    exact absurd (keeps [] "\\\"".toList rfl) (by decide)
  obtain ⟨tests,read,agree⟩ := (filter_reads_back .preserve _).2.2 filled even
  obtain ⟨first,_,left,behind,rfl⟩ := List.forall₂_cons_right_iff.mp agree
  obtain ⟨second,_,right,none,rfl⟩ := List.forall₂_cons_right_iff.mp behind
  cases none
  exact ⟨filled,even,first,second,read,left.2.2.mpr kept,fun same => lost (right.2.2.mp same)⟩

-- A lone backslash hides the closing quote or is lost, and a percent sign turns into a wildcard.
theorem filter_reads_back_unless :
    ¬ReadsAs .preserve (Rule.ofPairs [("path".toList,"C:\\".toList)]) Test.Restores ∧
    ¬ReadsAs .preserve (Rule.ofPairs [("path".toList,"C:\\a".toList)]) Test.Restores ∧
    ¬ReadsAs .preserve (Rule.ofPairs [("rate".toList,"50%*".toList)]) Test.Restores ∧
    ¬ReadsAs .preserve Rule.empty Test.Restores := by
  have changed : ∀ name value : Text,
      Paired '"' (Tokens.likePattern (Token.ofValue value)) →
      ¬(Test.found .preserve ⟨name,value,[]⟩).Restores ⟨name,value,[]⟩ →
      ¬ReadsAs .preserve (Rule.ofPairs [(name,value)]) Test.Restores := by
    intro name value paired other reads
    have filled : (Rule.ofPairs [(name,value)]).fields ≠ [] := List.cons_ne_nil _ _
    exact other ((readsAs_exact filled (List.forall_mem_singleton.mpr paired)).mp reads _ List.mem_cons_self)
  refine ⟨?_,changed _ _ ?_ (by decide),changed _ _ ?_ (by decide),?_⟩
  · intro reads
    obtain ⟨tests,read,_⟩ := reads
    have cut : Filter.ofRule .preserve (Rule.ofPairs [("path".toList,"C:\\".toList)]) =
        '(' :: '`' :: (Text.substitute "path".toList '`' "``".toList ++ '`' :: ' ' ::
          (Comparator.equal.sign ++ ' ' :: '"' :: "C:\\\")".toList)) := rfl
    rw [cut,lex_opening,lex_column,lex_sign,lex_begins rfl] at read
    cases read
  · exact .char (by decide) (.char (by decide) (.pair (c := 'a') (by decide) .nil))
  · exact Text.paired_of_absent (by decide)
  · intro reads
    obtain ⟨tests,read,agree⟩ := reads
    cases agree
    cases lex_one.symm.trans read

end FieldedSearch.Sql
