import FieldedSearch.Proofs.FilterLexemes
import FieldedSearch.Proofs.WildcardRuns

namespace FieldedSearch

structure Comparable (engine : Engine) (record : Record) (f : Field) : Prop where
  built : Tokens.hasWildcard (Token.ofValue f.first) = true →
    engine.builds .preserve (Tokens.regex (Token.ofValue f.first)) = true
  unescaped : ∀ text, Token.literal text ∈ Token.ofValue f.first → '\\' ∉ text
  unlike : Tokens.hasWildcard (Token.ofValue f.first) = true →
    ∀ text, Token.literal text ∈ Token.ofValue f.first → '%' ∉ text
  -- A wildcard of a regular expression stays within one line, the one of `LIKE` does not.
  oneLine : Tokens.hasWildcard (Token.ofValue f.first) = true → ∀ actual, (f.name,actual) ∈ record → '\n' ∉ actual

variable {engine : Engine} {record : Record} {f : Field} {tokens : List Token} {name s actual : Text}

theorem like_tokens_exact (unescaped : ∀ text, Token.literal text ∈ tokens → '\\' ∉ text)
    (unlike : ∀ text, Token.literal text ∈ tokens → '%' ∉ text) (line : '\n' ∉ s) :
    Sql.Like ((Tokens.likePattern tokens).substitute '_' "\\_".toList) s ↔ Glob.Matches tokens s := by
  induction tokens generalizing s with
  | nil => exact Sql.like_nil_exact.trans Glob.matches_nil_exact.symm
  | cons token tokens ih =>
      have later : ∀ {r}, '\n' ∉ r →
          (Sql.Like ((Tokens.likePattern tokens).substitute '_' "\\_".toList) r ↔ Glob.Matches tokens r) := by
        intro r inside
        refine ih ?_ ?_ inside
        · exact fun text member => unescaped text (List.mem_cons_of_mem _ member)
        · exact fun text member => unlike text (List.mem_cons_of_mem _ member)
      have split : (Tokens.likePattern (token :: tokens)).substitute '_' "\\_".toList =
          token.likePattern.substitute '_' "\\_".toList ++
            (Tokens.likePattern tokens).substitute '_' "\\_".toList := Text.substitute_append _ _ _ _
      rw [split]
      cases token with
      | wildcard =>
          have percent : Text.substitute (Token.likePattern .wildcard) '_' "\\_".toList = ['%'] := rfl
          rw [percent,List.singleton_append,Sql.like_any_exact,Glob.matches_wildcard_exact]
          constructor
          · intro cut
            obtain ⟨run,rest,rfl,whole⟩ := cut
            rw [List.mem_append,not_or] at line
            exact ⟨run,rest,rfl,line.1,(later line.2).mp whole⟩
          · intro cut
            obtain ⟨run,rest,rfl,_,whole⟩ := cut
            rw [List.mem_append,not_or] at line
            exact ⟨run,rest,rfl,(later line.2).mpr whole⟩
      | literal text =>
          have percent := unlike text List.mem_cons_self
          have single := unescaped text List.mem_cons_self
          rw [Token.likePattern,Sql.like_text_exact percent single,Glob.matches_literal_exact]
          constructor
          · intro cut
            obtain ⟨rest,rfl,whole⟩ := cut
            rw [List.mem_append,not_or] at line
            exact ⟨rest,rfl,(later line.2).mp whole⟩
          · intro cut
            obtain ⟨rest,rfl,whole⟩ := cut
            rw [List.mem_append,not_or] at line
            exact ⟨rest,rfl,(later line.2).mpr whole⟩

namespace Record

theorem find?_exact (distinct : (record.map Prod.fst).Nodup) :
    (record.find? fun pair => pair.1 = name).map Prod.snd = some actual ↔ (name,actual) ∈ record := by
  induction record with
  | nil => simp
  | cons pair record ih =>
      obtain ⟨known,value⟩ := pair
      simp only [List.map_cons,List.nodup_cons] at distinct
      by_cases same : known = name
      · subst same
        have elsewhere : (known,actual) ∉ record := fun member =>
          distinct.1 (List.mem_map.mpr ⟨_,member,rfl⟩)
        simp [elsewhere,eq_comm]
      · have other : name ≠ known := Ne.symm same
        simp [same,other,ih distinct.2]

theorem lookup?_exact (distinct : (record.map Prod.fst).Nodup) :
    record.lookup? .preserve name = some actual ↔ (name,actual) ∈ record := by
  have reversed : (record.reverse.map Prod.fst).Nodup := by
    rw [List.map_reverse]
    exact (List.reverse_perm _).nodup_iff.mpr distinct
  rw [← List.mem_reverse]
  exact find?_exact reversed

theorem satisfies_exact (distinct : (record.map Prod.fst).Nodup) (rule : Rule) :
    record.satisfies engine .preserve rule = true ↔
      ∀ f ∈ rule.fields, ∃ actual, (f.name,actual) ∈ record ∧ valueMatches engine .preserve f.first actual = true := by
  rw [satisfies,List.all_eq_true]
  refine forall_congr' fun f => forall_congr' fun _ => ?_
  cases found : record.lookup? .preserve f.name with
  | none =>
      refine iff_of_false Bool.false_ne_true ?_
      intro present
      obtain ⟨actual,member,_⟩ := present
      cases found.symm.trans ((lookup?_exact distinct).mpr member)
  | some actual =>
      have member := (lookup?_exact distinct).mp found
      constructor
      · exact fun agrees => ⟨actual,member,agrees⟩
      · intro present
        obtain ⟨other,known,agrees⟩ := present
        cases found.symm.trans ((lookup?_exact distinct).mpr known)
        exact agrees

theorem field_exact (comparable : Comparable engine record f) :
    (∃ actual, (f.name,actual) ∈ record ∧ valueMatches engine .preserve f.first actual = true) ↔
      (Sql.Test.ofField .preserve f).Holds record := by
  cases wild : Tokens.hasWildcard (Token.ofValue f.first) with
  | true =>
      have same : Sql.Test.ofField .preserve f =
          ⟨f.name,.like,(Tokens.likePattern (Token.ofValue f.first)).substitute '_' "\\_".toList⟩ := by
        simp [Sql.Test.ofField,wild,CaseMode.apply]
      rw [same]
      refine exists_congr fun actual => and_congr_right fun member => ?_
      rw [valueMatches_glob engine wild,and_iff_right (comparable.built wild)]
      have line := comparable.oneLine wild actual member
      exact (like_tokens_exact comparable.unescaped (comparable.unlike wild) line).symm
  | false =>
      have same : Sql.Test.ofField .preserve f = ⟨f.name,.equal,Tokens.literalText (Token.ofValue f.first)⟩ := by
        simp [Sql.Test.ofField,wild,CaseMode.apply,Tokens.likePattern_literal wild]
      rw [same]
      refine exists_congr fun actual => and_congr_right fun _ => ?_
      simp [valueMatches,wild,CaseMode.apply,eq_comm]

theorem filter_agrees (engine : Engine) (record : Record) (rule : Rule) (distinct : (record.map Prod.fst).Nodup)
    (comparable : ∀ f ∈ rule.fields, Comparable engine record f) :
    (∃ tests, Sql.read? (Filter.ofRule .preserve rule) = some tests ∧
      (record.satisfiesAny engine .preserve [rule] = true ↔ Sql.Holds record tests)) ∧
    ∀ f ∈ rule.fields, Tokens.hasWildcard (Token.ofValue f.first) = true → ∀ actual,
      (valueMatches engine .preserve f.first actual = true ↔
        Regex.Finds (Tokens.regex (Token.ofValue f.first)) actual) := by
  refine ⟨⟨_,Sql.read?_ofRule rule ?_,?_⟩,?_⟩
  · intro f member
    exact Tokens.likePattern_solid (comparable f member).unescaped
  · rw [satisfiesAny,List.any_cons,List.any_nil,Bool.or_false,satisfies_exact distinct,Sql.Holds,List.forall_mem_map]
    exact forall_congr' fun f => forall_congr' fun member => field_exact (comparable f member)
  · intro f member wild actual
    exact (valueMatches_regex engine wild actual).trans (and_iff_right ((comparable f member).built wild))

theorem filter_agrees_odd_name :
    ([("na`me".toList,"a_\"bc".toList)].map Prod.fst).Nodup ∧
    (∀ f ∈ (Rule.ofPairs [("na`me".toList,"a_\"b*".toList)]).fields,
      Comparable .unlimited [("na`me".toList,"a_\"bc".toList)] f) ∧
    ∃ tests, Sql.read? "(`na``me` LIKE \"a\\_\\\"b%\")".toList = some tests ∧
      Sql.Holds [("na`me".toList,"a_\"bc".toList)] tests := by
  have tokens : Token.ofValue "a_\"b*".toList = [.literal "a_\"b".toList,.wildcard] := by decide
  have distinct : ([("na`me".toList,"a_\"bc".toList)].map Prod.fst).Nodup := by decide
  have comparable : ∀ f ∈ (Rule.ofPairs [("na`me".toList,"a_\"b*".toList)]).fields,
      Comparable .unlimited [("na`me".toList,"a_\"bc".toList)] f := by
    intro f member
    rw [List.mem_singleton.mp (show f ∈ [⟨"na`me".toList,"a_\"b*".toList,[]⟩] from member)]
    have only : ∀ text, Token.literal text ∈ Token.ofValue "a_\"b*".toList → text = "a_\"b".toList := by
      intro text inside
      rw [tokens] at inside
      simpa using inside
    refine ⟨fun _ => rfl,?_,?_,?_⟩
    · intro text inside
      rw [only text inside]
      decide
    · intro _ text inside
      rw [only text inside]
      decide
    · intro _ actual known
      cases List.mem_singleton.mp known
      decide
  have selected : Record.satisfiesAny .unlimited .preserve [("na`me".toList,"a_\"bc".toList)]
      [Rule.ofPairs [("na`me".toList,"a_\"b*".toList)]] = true := by decide
  obtain ⟨tests,read,agrees⟩ := (filter_agrees .unlimited _ _ distinct comparable).1
  exact ⟨distinct,comparable,tests,read,agrees.mp selected⟩

end Record
end FieldedSearch
