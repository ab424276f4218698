import FieldedSearch.Filter
import FieldedSearch.Proofs.Covering
import FieldedSearch.Proofs.Grouping
import FieldedSearch.Record
import FieldedSearch.Rule.Written

namespace FieldedSearch

namespace Token

variable {c : Char}

theorem ofValue_cons (single : c ≠ '\\') (r : Text) :
    ofValue (c :: r) = if c = '*' then .wildcard :: ofValue r else prepend c (ofValue r) := by
  rw [ofValue]
  all_goals exact fun _ same => absurd same single

theorem ofValue_lone (unstarred : c ≠ '*') (single : c ≠ '\\') (r : Text) :
    ofValue ('\\' :: c :: r) = prepend '\\' (ofValue (c :: r)) := by
  rw [ofValue]
  · rfl
  · exact fun _ _ same => unstarred (List.cons.inj same).1
  · exact fun _ _ same => single (List.cons.inj same).1

end Token

namespace Rule
open Clause (Quoted takeValue scan)
open Text (OnlyBlank StartsSolid EndsWord)

variable {name value rest : Text} {c : Char} {r : Text}

-- What a quoted value is read back as: odd runs of backslashes before a double quote or the end have one more.
-- `odd` tells whether such a run is being passed.
def settled (odd : Bool) : Text → Text
  | [] => if odd then ['\\'] else []
  | '\\' :: r => '\\' :: settled (!odd) r
  | '"' :: r => (if odd then ['\\'] else []) ++ '"' :: settled false r
  | c :: r => c :: settled false r

def reread (value : Text) : Text := if needsQuotes value then settled false value else value

def rereadClause (name value : Text) : Clause :=
  ⟨false,some name,reread value,if needsQuotes value then .double else .bare⟩

-- The last backslash of an odd run is still to be paired with what comes next.
def pending (odd : Bool) (s : Text) : Text := if odd then '\\' :: s else s

theorem writeQuoted_quoted (odd : Bool) (value : Text) :
    Quoted '"' (pending odd (writeQuoted odd value ++ ['"'])) (pending odd (settled odd value)) := by
  fun_induction settled odd value with
  | case1 => exact .pair (by decide) .closed
  | case2 odd even =>
      cases odd with
      | false => exact .closed
      | true => exact absurd rfl even
  | case3 odd r ih =>
      cases odd with
      | false => exact ih
      | true => exact .pair (by decide) ih
  | case4 odd r ih =>
      cases odd with
      | false => exact .escaped ih
      | true => exact .pair (by decide) (.escaped ih)
  | case5 odd c r other plain ih =>
      have unquoted : c ≠ '"' := plain
      have single : c ≠ '\\' := other
      cases odd with
      | false => simpa [pending,writeQuoted] using Quoted.char unquoted single ih
      | true => simpa [pending,writeQuoted] using Quoted.pair unquoted ih

-- An escape is a backslash before a star or before another backslash, so pairing an open run with one more backslash
-- leaves what it spells.
theorem ofValue_settled (odd : Bool) (value : Text) :
    Token.ofValue (pending odd (settled odd value)) = Token.ofValue (pending odd value) := by
  fun_induction settled odd value with
  | case1 => rfl
  | case2 odd even =>
      cases odd with
      | false => rfl
      | true => exact absurd rfl even
  | case3 odd r ih =>
      cases odd with
      | false => exact ih
      | true => exact congrArg (Token.prepend '\\') ih
  | case4 odd r ih =>
      have quoted : Token.ofValue ('"' :: settled false r) = Token.ofValue ('"' :: r) :=
        congrArg (Token.prepend '"') ih
      cases odd with
      | false => exact quoted
      | true => exact congrArg (Token.prepend '\\') quoted
  | case5 odd c r other plain ih =>
      have single : c ≠ '\\' := other
      have same : Token.ofValue (c :: settled false r) = Token.ofValue (c :: r) := by
        have behind : Token.ofValue (settled false r) = Token.ofValue r := ih
        rw [Token.ofValue_cons single,Token.ofValue_cons single,behind]
      cases odd with
      | false => exact same
      | true =>
          by_cases star : c = '*'
          · subst c; exact congrArg (Token.prepend '*') ih
          · simp only [pending,if_true,Token.ofValue_lone star single,same]

theorem reread_tokens (value : Text) : Token.ofValue (reread value) = Token.ofValue value := by
  unfold reread
  split
  · exact ofValue_settled false value
  · rfl

theorem writtenValue_solid (value : Text) : StartsSolid (writtenValue value) := by
  unfold writtenValue
  split
  · exact ⟨'"',_,rfl,by decide⟩
  · next plain =>
      simp only [needsQuotes,Bool.or_eq_true,not_or,Bool.not_eq_true] at plain
      cases value with
      | nil => cases plain.1.1
      | cons c r =>
          rw [List.any_cons,Bool.or_eq_false_iff] at plain
          exact ⟨c,r,rfl,plain.2.1⟩

theorem takeValue_written (value : Text) (ends : EndsWord rest) :
    takeValue (writtenValue value ++ rest) = ((reread value,if needsQuotes value then .double else .bare),rest) := by
  unfold writtenValue reread
  split
  · have closing : Quote.double.delimiter = some '"' := rfl
    exact Clause.takeValue_quoted closing (writeQuoted_quoted false value) rest
  · next plain =>
      simp only [needsQuotes,Bool.or_eq_true,not_or,Bool.not_eq_true] at plain
      obtain ⟨⟨filled,opening⟩,solid⟩ := plain
      refine Clause.takeValue_bare (by simpa using opening) (by simpa using filled) ?_ ends
      simpa using solid

theorem scan_writtenClause (named : IsFieldName name) (value : Text) (ends : EndsWord rest) :
    scan (writtenClause name value ++ rest) = rereadClause name value :: scan rest := by
  have front : StartsSolid (writtenClause name value ++ rest) := ((Clause.name_solid named).append _).append rest
  have behind := (writtenValue_solid value).append rest
  have read := Clause.take_colon named (show OnlyBlank [] from fun _ member => nomatch member) behind
    (takeValue_written value ends)
  have whole : writtenClause name value ++ rest = name ++ ':' :: ([] ++ (writtenValue value ++ rest)) := by
    simp [writtenClause]
  rw [Clause.scan_solid front,whole,read]
  rfl

theorem scan_written (pairs : List (Text × Text)) (named : ∀ p ∈ pairs, IsFieldName p.1) :
    scan (Text.join [' '] (pairs.map fun p => writtenClause p.1 p.2)) = pairs.map fun p => rereadClause p.1 p.2 := by
  induction pairs with
  | nil => exact Clause.scan_end rfl
  | cons p r ih =>
      have first := named p List.mem_cons_self
      have later := ih fun q member => named q (List.mem_cons_of_mem _ member)
      cases r with
      | nil =>
          have alone := scan_writtenClause first p.2 (show EndsWord [] by rintro c r ⟨⟩)
          rwa [List.append_nil,Clause.scan_end (s := []) rfl] at alone
      | cons q r =>
          have joined : Text.join [' '] ((p :: q :: r).map fun p => writtenClause p.1 p.2) =
              writtenClause p.1 p.2 ++ ([' '] ++ Text.join [' '] ((q :: r).map fun p => writtenClause p.1 p.2)) := by
            simp [Text.join]
          rw [joined,scan_writtenClause first p.2 (by rintro c r ⟨⟩; decide),
            Clause.scan_blank (by simp [OnlyBlank]; decide),later]
          rfl

theorem parse?_written (rule : Rule) (named : ∀ f ∈ rule.fields, IsFieldName f.name) (filled : rule.isEmpty = false) :
    parse? true rule.written = some (rule.mapValues reread) := by
  have labelled : ∀ p ∈ rule.pairs, IsFieldName p.1 := by
    intro p member
    obtain ⟨f,known,inside⟩ := List.mem_flatMap.mp member
    obtain ⟨value,_,rfl⟩ := List.mem_map.mp inside
    exact named f known
  have text : rule.written = Text.join [' '] (rule.pairs.map fun p => writtenClause p.1 p.2) := by
    simp [written,pairs,fieldPairs,List.map_flatMap,Function.comp_def]
  have kept : (rule.pairs.map fun p => rereadClause p.1 p.2).filterMap (surviving? true) =
      (rule.mapValues reread).pairs := by
    rw [mapValues_pairs,List.filterMap_map,← List.filterMap_eq_map]
    exact congrArg (fun g => List.filterMap g rule.pairs) (funext fun p => by simp [surviving?,rereadClause])
  simp [parse?,text,scan_written rule.pairs labelled,kept,ofPairs_pairs,mapValues_isEmpty,filled]

def fieldTokens (f : Field) : Text × List (List Token) := (f.name,f.values.map Token.ofValue)

def tokens (rule : Rule) : List (Text × List (List Token)) := rule.fields.map fieldTokens

theorem mapValues_tokens {g : Text → Text} (same : ∀ value, Token.ofValue (g value) = Token.ofValue value)
    (rule : Rule) : (rule.mapValues g).tokens = rule.tokens := by
  simp [tokens,fieldTokens,mapValues,Field.values,same]

theorem map_fieldTokens {α : Type} {h : Field → α} (respects : ∀ f g, fieldTokens f = fieldTokens g → h f = h g)
    {fields others : List Field} (same : fields.map fieldTokens = others.map fieldTokens) :
    fields.map h = others.map h := by
  induction fields generalizing others with
  | nil => cases others with
    | nil => rfl
    | cons g r => cases same
  | cons f r ih =>
      cases others with
      | nil => cases same
      | cons g t =>
          rw [List.map_cons,List.map_cons,List.cons.injEq] at same
          rw [List.map_cons,List.map_cons,respects f g same.1,ih same.2]

theorem fieldTokens_first {f g : Field} (same : fieldTokens f = fieldTokens g) :
    f.name = g.name ∧ Token.ofValue f.first = Token.ofValue g.first := by
  simp only [fieldTokens,Field.values,List.map_cons,Prod.mk.injEq,List.cons.injEq] at same
  exact ⟨same.1,same.2.1⟩

theorem satisfies_tokens {rule again : Rule} (same : again.tokens = rule.tokens) (engine : Engine) (case : CaseMode)
    (record : Record) : record.satisfies engine case again = record.satisfies engine case rule := by
  let holds (f : Field) : Bool := (record.lookup? case f.name).any (Record.valueMatches engine case f.first)
  have every : ∀ r : Rule, record.satisfies engine case r = (r.fields.map holds).all id := by
    intro r
    rw [List.all_map]
    refine congrArg (List.all r.fields) (funext fun f => ?_)
    simp only [holds,Function.comp_def,id]
    cases record.lookup? case f.name <;> rfl
  have respects : ∀ f g, fieldTokens f = fieldTokens g → holds f = holds g := by
    intro f g equal
    obtain ⟨name,first⟩ := fieldTokens_first equal
    have values : Record.valueMatches engine case f.first = Record.valueMatches engine case g.first := by
      funext actual
      simp only [Record.valueMatches,first]
    simp only [holds,name,values]
  rw [every,every,map_fieldTokens respects same]

theorem ofRule_tokens {rule again : Rule} (same : again.tokens = rule.tokens) (case : CaseMode) :
    Filter.ofRule case again = Filter.ofRule case rule := by
  refine congrArg Filter.text (map_fieldTokens ?_ same)
  intro f g equal
  obtain ⟨name,first⟩ := fieldTokens_first equal
  simp only [Comparison.ofField,name,first]

structure Restored (rule again : Rule) : Prop where
  parsed : parse? true rule.written = some again
  tokens : again.tokens = rule.tokens
  matching : ∀ engine case record earlier later, Record.satisfiesAny engine case record (earlier ++ again :: later) =
    Record.satisfiesAny engine case record (earlier ++ rule :: later)
  filtering : ∀ case, Filter.ofRule case again = Filter.ofRule case rule

theorem restored_of_named (rule : Rule) (named : ∀ f ∈ rule.fields, IsFieldName f.name)
    (filled : rule.isEmpty = false) : Restored rule (rule.mapValues reread) := by
  have same := mapValues_tokens reread_tokens rule
  refine ⟨parse?_written rule named filled,same,?_,ofRule_tokens same⟩
  intro engine case record earlier later
  simp only [Record.satisfiesAny,List.any_append,List.any_cons,satisfies_tokens same]

theorem surviving_named {allowEmpty : Bool} {query : Text} {p : Text × Text}
    (kept : p ∈ (scan query).filterMap (surviving? allowEmpty)) : IsFieldName p.1 := by
  obtain ⟨clause,scanned,survived⟩ := List.mem_filterMap.mp kept
  obtain ⟨source,rest,sourced⟩ := Clause.scan_sourced query clause scanned
  unfold surviving? at survived
  split at survived
  · cases survived
  · cases survived
    cases labelled : clause.field with
    | none => exact ⟨'t',"ext".toList,rfl,rfl,List.all_eq_true.mp rfl⟩
    | some name => exact sourced.named labelled

theorem ofPairs_named {pairs : List (Text × Text)} (named : ∀ p ∈ pairs, IsFieldName p.1) :
    ∀ f ∈ (ofPairs pairs).fields, IsFieldName f.name := by
  intro f member
  obtain ⟨p,known,same⟩ := List.mem_map.mp ((ofPairs_names pairs f.name).mp (List.mem_map_of_mem member))
  exact same ▸ named p known

-- Rules made by any pushes under proper names, and the rules of all queries among them.
theorem written_restores :
    (∀ pairs : List (Text × Text), pairs ≠ [] → (∀ p ∈ pairs, IsFieldName p.1) →
      ∃ again, Restored (ofPairs pairs) again) ∧
    ∀ allowEmpty query rule, parse? allowEmpty query = some rule → ∃ again, Restored rule again := by
  constructor
  · intro pairs filled named
    exact ⟨_,restored_of_named _ (ofPairs_named named) (ofPairs_filled filled)⟩
  · intro allowEmpty query rule parsed
    simp only [parse?] at parsed
    split at parsed
    · cases parsed
    · next filled =>
        cases parsed
        exact ⟨_,restored_of_named _ (ofPairs_named fun p kept => surviving_named kept) (by simpa using filled)⟩

theorem written_restores_odd_runs :
    (∀ p ∈ [("path".toList,"a b\\".toList),("note".toList,"a\\\" b".toList)], IsFieldName p.1) ∧
      ∃ again, Restored (ofPairs [("path".toList,"a b\\".toList),("note".toList,"a\\\" b".toList)]) again := by
  have named : ∀ p ∈ [("path".toList,"a b\\".toList),("note".toList,"a\\\" b".toList)], IsFieldName p.1 := by
    intro p member
    rcases List.mem_cons.mp member with rfl | member
    · exact ⟨'p',"ath".toList,rfl,rfl,List.all_eq_true.mp rfl⟩
    · rw [List.mem_singleton.mp member]
      exact ⟨'n',"ote".toList,rfl,rfl,List.all_eq_true.mp rfl⟩
  exact ⟨named,written_restores.1 _ (by simp) named⟩

end Rule
end FieldedSearch
