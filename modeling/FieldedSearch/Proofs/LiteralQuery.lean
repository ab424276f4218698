import FieldedSearch.Filter
import FieldedSearch.Proofs.ClauseWriting
import FieldedSearch.Proofs.Tokens
import FieldedSearch.Record

namespace FieldedSearch

open Text (Paired)

-- A value that stands for the text alone: its backslashes and stars are escaped.
def Text.starless (t : Text) : Text := t.escape fun c => c = '\\' || c = '*'

def literalQuery (name t : Text) : Text :=
  name ++ ':' :: ('"' :: t.starless.substitute '"' "\\\"".toList ++ ['"'])

variable {name u : Text} {c : Char} {record : Record} {case : CaseMode}

namespace Text

theorem starless_escaped (marked : c = '\\' ∨ c = '*') (t : Text) : starless (c :: t) = '\\' :: c :: starless t := by
  rw [starless,escape_cons,if_pos (by simpa using marked)]
  rfl

theorem starless_plain (single : c ≠ '\\') (unstarred : c ≠ '*') (t : Text) :
    starless (c :: t) = c :: starless t := by
  rw [starless,escape_cons,if_neg (by simp [single,unstarred])]
  rfl

theorem starless_paired (t : Text) : Paired '"' t.starless := by
  induction t with
  | nil => exact .nil
  | cons c t ih =>
      by_cases marked : c = '\\' ∨ c = '*'
      · rw [starless_escaped marked]
        refine .pair ?_ ih
        rcases marked with rfl | rfl <;> decide
      · rw [not_or] at marked
        rw [starless_plain marked.1 marked.2]
        exact .char marked.1 ih

end Text

theorem Token.ofValue_starless_append (t s : Text) : ofValue (t.starless ++ s) = t.foldr prepend (ofValue s) := by
  induction t with
  | nil => rfl
  | cons c t ih =>
      by_cases single : c = '\\'
      · subst single
        rw [Text.starless_escaped (.inl rfl),List.cons_append,List.cons_append,ofValue,ih]
        rfl
      · by_cases star : c = '*'
        · subst star
          rw [Text.starless_escaped (.inr rfl),List.cons_append,List.cons_append,ofValue,ih]
          rfl
        · rw [Text.starless_plain single star,List.cons_append,ofValue,if_neg star,ih]
          · rfl
          · exact fun _ same => absurd same single
          · exact fun _ same => absurd same single

theorem Token.ofValue_starless (t : Text) : ofValue t.starless = t.foldr prepend [] := by
  simpa [ofValue] using ofValue_starless_append t []

namespace Tokens

theorem hasWildcard_starless (t : Text) : hasWildcard (Token.ofValue t.starless) = false := by
  rw [Token.ofValue_starless,hasWildcard_chars]

theorem literalText_starless (t : Text) : literalText (Token.ofValue t.starless) = t := by
  rw [Token.ofValue_starless,literalText_chars]

end Tokens

theorem Clause.scan_literalQuery (named : IsFieldName name) (t : Text) :
    scan (literalQuery name t) = [⟨false,some name,t.starless,.double⟩] := by
  have admitted : Quote.double.Admits t.starless := Text.evenRuns_exact.mpr t.starless_paired
  exact scan_entry ⟨false,name,t.starless,.double,named,admitted⟩

def literalRule (name t : Text) : Rule := Rule.ofPairs [(name,t.starless)]

theorem Rule.parse?_literalQuery (named : IsFieldName name) (t : Text) :
    parse? true (literalQuery name t) = some (literalRule name t) := by
  have kept : [Clause.mk false (some name) t.starless .double].filterMap (surviving? true) = [(name,t.starless)] := by
    simp [surviving?]
  rw [parse?,Clause.scan_literalQuery named,kept]
  rfl

theorem literalRule_fields (name t : Text) : (literalRule name t).fields = [⟨name,t.starless,[]⟩] := rfl

theorem Record.valueMatches_starless (engine : Engine) (case : CaseMode) (t u : Text) :
    valueMatches engine case t.starless u = true ↔ case.apply t = case.apply u := by
  rw [valueMatches,Tokens.hasWildcard_starless,if_neg Bool.false_ne_true,Tokens.literalText_starless,
    decide_eq_true_iff]

theorem Record.satisfiesAny_literalRule (engine : Engine) (found : record.lookup? case name = some u) (t : Text) :
    record.satisfiesAny engine case [literalRule name t] = true ↔ case.apply t = case.apply u := by
  rw [satisfiesAny,List.any_cons,List.any_nil,Bool.or_false,satisfies,literalRule_fields,List.all_cons,List.all_nil,
    Bool.and_true]
  simp only [found,valueMatches_starless]

theorem Comparison.ofField_starless (case : CaseMode) (name t : Text) :
    ofField case ⟨name,t.starless,[]⟩ = ⟨case.apply name,.equal,t.substitute '"' "\\\"".toList⟩ := by
  have pattern : Tokens.likePattern (Token.ofValue t.starless) = t := by
    rw [Tokens.likePattern_literal (Tokens.hasWildcard_starless t),Tokens.literalText_starless]
  simp only [ofField,Tokens.hasWildcard_starless,pattern]
  rfl

-- Whatever the text holds, the query asks one field for it: the matcher compares by equality, with and without
-- letter case, and so does the filter.
theorem literalQuery_exact (named : IsFieldName name) (t : Text) : ∃ rule value,
    Rule.parse? true (literalQuery name t) = some rule ∧ rule.fields = [⟨name,value,[]⟩] ∧
    (∀ engine (record : Record) u, record.lookup? .preserve name = some u →
      (record.satisfiesAny engine .preserve [rule] = true ↔ t = u)) ∧
    (∀ engine (record : Record) u, record.lookup? .fold name = some u →
      (record.satisfiesAny engine .fold [rule] = true ↔ t.lowercase = u.lowercase)) ∧
    ∀ case, Filter.ofRule case rule = Filter.text [⟨case.apply name,.equal,t.substitute '"' "\\\"".toList⟩] := by
  refine ⟨literalRule name t,t.starless,Rule.parse?_literalQuery named t,literalRule_fields name t,?_,?_,?_⟩
  · intro engine record u found
    exact Record.satisfiesAny_literalRule engine found t
  · intro engine record u found
    exact Record.satisfiesAny_literalRule engine found t
  · intro case
    rw [Filter.ofRule,Filter.comparisons,literalRule_fields,List.map_singleton,Comparison.ofField_starless]

theorem literalQuery_exact_odd_text : IsFieldName "x-9".toList ∧
    literalQuery "x-9".toList "\\\"*\\A".toList = "x-9:\"\\\\\\\"\\*\\\\A\"".toList ∧
    ∃ rule, Rule.parse? true "x-9:\"\\\\\\\"\\*\\\\A\"".toList = some rule ∧
      Record.satisfiesAny .unlimited .preserve [("x-9".toList,"\\\"*\\A".toList)] [rule] = true ∧
      ¬Record.satisfiesAny .unlimited .preserve [("x-9".toList,"\\\"*\\a".toList)] [rule] = true ∧
      Record.satisfiesAny .unlimited .fold [("X-9".toList,"\\\"*\\a".toList)] [rule] = true ∧
      Filter.ofRule .preserve rule = "(`x-9` = \"\\\\\"*\\A\")".toList := by
  have named : IsFieldName "x-9".toList := ⟨'x',"-9".toList,rfl,rfl,List.all_eq_true.mp rfl⟩
  have spelled : literalQuery "x-9".toList "\\\"*\\A".toList = "x-9:\"\\\\\\\"\\*\\\\A\"".toList := rfl
  obtain ⟨rule,value,parsed,_,exact,folded,filter⟩ := literalQuery_exact named "\\\"*\\A".toList
  refine ⟨named,spelled,rule,spelled ▸ parsed,?_,?_,?_,filter .preserve⟩
  · exact (exact _ _ "\\\"*\\A".toList (by decide)).mpr rfl
  · exact fun found => absurd ((exact _ _ "\\\"*\\a".toList (by decide)).mp found) (by decide)
  · exact (folded _ _ "\\\"*\\a".toList (by decide +kernel)).mpr (by decide +kernel)

end FieldedSearch
