import FieldedSearch.Proofs.BoundText
import FieldedSearch.Proofs.Rereading
import FieldedSearch.Proofs.Respelling
import FieldedSearch.Proofs.Tokens

namespace FieldedSearch

variable {value name : Text} {case : CaseMode}

-- Every step of writing keeps the newlines that are there and brings none.

theorem Text.newline_substitute {old : Char} {new : Text} (solid : old ≠ '\n') (line : '\n' ∉ new) (s : Text) :
    '\n' ∈ s.substitute old new ↔ '\n' ∈ s := by
  induction s with
  | nil => exact Iff.rfl
  | cons c s ih =>
      rw [substitute_cons,List.mem_append,ih,List.mem_cons]
      refine or_congr_left ?_
      split
      · next same => exact iff_of_false line (same ▸ solid.symm)
      · exact List.mem_singleton

theorem Text.newline_join (separator : Text) (line : '\n' ∉ separator) (texts : List Text) :
    '\n' ∈ Text.join separator texts ↔ ∃ s ∈ texts, '\n' ∈ s := by
  induction texts with
  | nil => simp [join]
  | cons s texts ih =>
      cases texts with
      | nil => simp [join]
      | cons t texts => simp [join,line,ih]

theorem Tokens.newline_ofValue (value : Text) : '\n' ∈ likePattern (Token.ofValue value) ↔ '\n' ∈ value := by
  fun_induction Token.ofValue value with
  | case1 => exact Iff.rfl
  | case2 r ih => rw [likePattern_prepend]; simp [ih]
  | case3 r ih => rw [likePattern_prepend]; simp [ih]
  | case4 r _ _ ih =>
      have wildcard : likePattern (.wildcard :: Token.ofValue r) = '%' :: likePattern (Token.ofValue r) := rfl
      rw [wildcard]
      simp [ih]
  | case5 c r _ _ _ ih => rw [likePattern_prepend]; simp [ih]

theorem Comparison.newline_ofField (case : CaseMode) (f : Field) :
    '\n' ∈ (ofField case f).pattern ↔ '\n' ∈ f.first := by
  have quoted : '\n' ∈ (Tokens.likePattern (Token.ofValue f.first)).substitute '"' "\\\"".toList ↔ '\n' ∈ f.first :=
    (Text.newline_substitute (by decide) (by decide) _).trans (Tokens.newline_ofValue f.first)
  rw [ofField]
  split
  · exact (Text.newline_substitute (by decide) (by decide) _).trans quoted
  · exact quoted

theorem Comparison.newline_text (comparison : Comparison) :
    '\n' ∈ comparison.text ↔ '\n' ∈ comparison.column ∨ '\n' ∈ comparison.pattern := by
  have column : '\n' ∈ comparison.column.substitute '`' ['`','`'] ↔ '\n' ∈ comparison.column :=
    Text.newline_substitute (by decide) (by decide) _
  have sign : '\n' ∉ comparison.comparator.sign := by cases comparison.comparator <;> decide
  simp [text,column,sign]

theorem Filter.newline_ofRule (case : CaseMode) (rule : Rule) : '\n' ∈ ofRule case rule ↔
    ∃ f ∈ rule.fields, '\n' ∈ case.apply f.name ∨ '\n' ∈ f.first := by
  have column : ∀ f, (Comparison.ofField case f).column = case.apply f.name := by
    intro f
    rw [Comparison.ofField]
    split <;> rfl
  have shown : ∀ f, '\n' ∈ (Comparison.ofField case f).text ↔ '\n' ∈ case.apply f.name ∨ '\n' ∈ f.first := by
    intro f
    rw [Comparison.newline_text,Comparison.newline_ofField,column]
  rw [ofRule,comparisons]
  cases rule.fields with
  | nil =>
      have opened : '\n' ∉ "(1)".toList := by decide
      exact iff_of_false opened (by simp)
  | cons f fields =>
      have joined := Text.newline_join " AND ".toList (by decide)
        (((f :: fields).map (Comparison.ofField case)).map Comparison.text)
      simp only [List.mem_map,exists_exists_and_eq_and,shown] at joined
      have bracketed : text ((f :: fields).map (Comparison.ofField case)) =
        '(' :: Text.join " AND ".toList (((f :: fields).map (Comparison.ofField case)).map Comparison.text) ++ [')'] := rfl
      rw [← joined,bracketed]
      simp

namespace History

variable {context : DateContext}

theorem newline_pattern (value : Text) : '\n' ∈ pattern value ↔ '\n' ∈ value := by
  have each : ∀ c, '\n' ∈ patternChar c ↔ c = '\n' := by
    intro c
    unfold patternChar
    split
    · next mark => simp [eq_comm]
    · split
      · next star => subst star; decide
      · simp [eq_comm]
  rw [pattern,List.mem_flatMap]
  simp only [each,exists_eq_right]

theorem newline_alternatives (values : List Text) :
    '\n' ∈ Text.join ['|'] (values.map pattern) ↔ ∃ value ∈ values, '\n' ∈ value := by
  rw [Text.newline_join ['|'] (by decide)]
  simp only [List.mem_map,exists_exists_and_eq_and,newline_pattern]

theorem newline_anyOf (values : List Text) : '\n' ∈ anyOf values ↔ ∃ value ∈ values, '\n' ∈ value := by
  match values with
  | [] =>
      have star : '\n' ∉ ".*".toList := by decide
      exact iff_of_false star nofun
  | [value] => rw [anyOf,newline_pattern]; simp
  | value :: next :: values =>
      have alternatives := newline_alternatives (value :: next :: values)
      have bracketed : anyOf (value :: next :: values) =
        '(' :: Text.join ['|'] ((value :: next :: values).map pattern) ++ [')'] := rfl
      rw [← alternatives,bracketed]
      simp

theorem newline_authorPattern (value : Text) : '\n' ∈ authorPattern value ↔ '\n' ∈ value := by
  have inner := newline_pattern value
  rw [authorPattern]
  split
  · simp [inner]
  · split <;> simp [inner]

theorem newline_trailerPattern (field : Text) (values : List Text) :
    '\n' ∈ trailerPattern field values ↔ '\n' ∈ field ∨ ∃ value ∈ values, '\n' ∈ value := by
  have spelling : '\n' ∉ trailerPrefix field := by
    unfold trailerPrefix
    split
    · exact List.not_mem_nil
    · split <;> decide
  have name := newline_pattern field
  have alternatives := newline_alternatives values
  rw [trailerPattern]
  simp [spelling,name,alternatives]

theorem newline_actionPattern (ids : List Text) (head : Text) :
    '\n' ∈ actionPattern ids head ↔ '\n' ∈ head ∨ ∃ id ∈ ids, '\n' ∈ id := by
  have opening : '\n' ∉ "^VP-Action: ".toList := by decide
  have ending : '\n' ∉ ['$'] := by decide
  have id : '\n' ∈ (if ids.isEmpty then "(/.*)?".toList else '/' :: anyOf ids) ↔ ∃ id ∈ ids, '\n' ∈ id := by
    cases ids with
    | nil =>
        have any : '\n' ∉ "(/.*)?".toList := by decide
        rw [if_pos List.isEmpty_nil]
        exact iff_of_false any (by simp)
    | cons first ids =>
        have inner := newline_anyOf (first :: ids)
        rw [← inner,List.isEmpty_cons,if_neg Bool.false_ne_true]
        simp
  unfold actionPattern
  simp only [List.mem_append,opening,ending,id,false_or,or_false]

theorem newline_actionHeads (pairs scopes actions : List Text) :
    (∃ head ∈ actionHeads pairs scopes actions, '\n' ∈ head) ↔
      (∃ value ∈ pairs, '\n' ∈ value) ∨ (∃ value ∈ scopes, '\n' ∈ value) ∨ ∃ value ∈ actions, '\n' ∈ value := by
  have separate : '\n' ∈ anyOf scopes ++ '/' :: anyOf actions ↔
      (∃ value ∈ scopes, '\n' ∈ value) ∨ ∃ value ∈ actions, '\n' ∈ value := by
    rw [List.mem_append,List.mem_cons,newline_anyOf,newline_anyOf]
    simp
  unfold actionHeads
  simp only [List.mem_append,or_and_right,exists_or]
  refine or_congr ?_ ?_
  · cases pairs with
    | nil => simp
    | cons first pairs =>
        have any := newline_anyOf (first :: pairs)
        rw [List.isEmpty_cons,if_neg Bool.false_ne_true,← any]
        simp only [List.mem_singleton,exists_eq_left]
  · split
    · simp only [List.mem_singleton,exists_eq_left,separate]
    · next unused =>
        rw [Bool.not_eq_true,Bool.or_eq_false_iff,Bool.or_eq_false_iff,Bool.not_eq_false',Bool.not_eq_false',
          List.isEmpty_iff,List.isEmpty_iff] at unused
        obtain ⟨⟨_,rfl⟩,rfl⟩ := unused
        simp

theorem actionHeads_filled (pairs scopes actions : List Text) : actionHeads pairs scopes actions ≠ [] := by
  cases pairs <;> simp [actionHeads]

theorem newline_quote (s : Text) : '\n' ∈ quote s ↔ '\n' ∈ s := by
  have inner : '\n' ∈ s.substitute '"' ['\\','"'] ↔ '\n' ∈ s := Text.newline_substitute (by decide) (by decide) s
  simp [quote,inner]

theorem newline_option {option : Text} (line : '\n' ∉ option) (s : Text) : '\n' ∈ option ++ quote s ↔ '\n' ∈ s := by
  rw [List.mem_append,newline_quote]
  exact or_iff_right line

theorem newline_date (bound : DateBound) : '\n' ∉ bound.text := by
  have day : ∀ d : Date, '\n' ∉ d.text := fun d => d.text_absent (by decide)
  have plain : ∀ (option : Text) (d : Date), '\n' ∉ option → '\n' ∉ option ++ d.text :=
    fun option d line found => (List.mem_append.mp found).elim line (day d)
  have timed : ∀ (option clock : Text) (d : Date), '\n' ∉ option → '\n' ∉ clock →
      '\n' ∉ option ++ quote (d.text ++ clock) := by
    intro option clock d line quiet
    rw [newline_option line,List.mem_append]
    exact not_or.mpr ⟨day d,quiet⟩
  cases bound with
  | after d => exact plain _ d (by decide)
  | before d => exact plain _ d (by decide)
  | fromStart d => exact timed _ _ d (by decide) (by decide)
  | toEnd d => exact timed _ _ d (by decide) (by decide)

theorem role_action (name : Text) : role name = .action ↔ (actionPart? name).isSome = true := by
  unfold role
  split
  · next same => subst same; decide
  · split
    · next same => subst same; decide
    · split
      · next same => subst same; decide
      · split
        · next same => subst same; decide
        · split
          · next part => exact iff_of_true rfl part
          · next none => split <;> exact iff_of_false nofun none

theorem newline_fieldArguments (line : '\n' ∉ name) (values : List Text) (part : Role) :
    (∃ a ∈ fieldArguments context name values part, '\n' ∈ a.text) ↔
      part ≠ .action ∧ part ≠ .date ∧ ∃ value ∈ values, '\n' ∈ value := by
  have mapped : ∀ argument : Text → Argument, (∀ value, '\n' ∈ (argument value).text ↔ '\n' ∈ value) →
      ((∃ a ∈ values.map argument, '\n' ∈ a.text) ↔ ∃ value ∈ values, '\n' ∈ value) := by
    intro argument same
    simp only [List.mem_map,exists_exists_and_eq_and,same]
  cases part with
  | author =>
      refine (mapped (fun value => .author (authorPattern value)) fun value => ?_).trans (by simp)
      exact (newline_option (by decide) _).trans (newline_authorPattern value)
  | date =>
      refine iff_of_false ?_ (fun shown => shown.2.1 rfl)
      rintro ⟨a,member,broken⟩
      obtain ⟨value,_,bounds⟩ := List.mem_flatMap.mp member
      obtain ⟨bound,_,rfl⟩ := List.mem_map.mp bounds
      exact newline_date bound broken
  | before => exact (mapped .before fun value => newline_option (by decide) _).trans (by simp)
  | after => exact (mapped .after fun value => newline_option (by decide) _).trans (by simp)
  | action => exact iff_of_false (by simp [fieldArguments]) (fun shown => shown.1 rfl)
  | text => exact (mapped .grep fun value => newline_option (by decide) _).trans (by simp)
  | trailer =>
      have grep : '\n' ∈ (Argument.grep (trailerPattern name values)).text ↔ ∃ value ∈ values, '\n' ∈ value := by
        refine (newline_option (by decide) _).trans ((newline_trailerPattern name values).trans ?_)
        exact or_iff_right line
      simp only [fieldArguments,List.mem_singleton,exists_eq_left,grep]
      simp

theorem mem_actionValues (case : CaseMode) (rule : Rule) (part : ActionPart) : value ∈ actionValues case rule part ↔
    ∃ f ∈ rule.fields, ∃ own, actionPart? (case.apply f.name) = some own ∧ value ∈ f.values ∧ valuePart own value = part := by
  simp only [actionValues,List.mem_flatMap]
  refine exists_congr fun f => and_congr_right fun _ => ?_
  cases actionPart? (case.apply f.name) with
  | none => simp
  | some own => simp

theorem newline_actionArguments (case : CaseMode) (rule : Rule) :
    (∃ a ∈ actionArguments case rule, '\n' ∈ a.text) ↔
      ∃ f ∈ rule.fields, role (case.apply f.name) = .action ∧ ∃ value ∈ f.values, '\n' ∈ value := by
  -- Every value of the family is a value of one part.
  have parts : (∃ part, ∃ value ∈ actionValues case rule part, '\n' ∈ value) ↔
      ∃ f ∈ rule.fields, role (case.apply f.name) = .action ∧ ∃ value ∈ f.values, '\n' ∈ value := by
    simp only [mem_actionValues,role_action,Option.isSome_iff_exists]
    constructor
    · rintro ⟨part,value,⟨f,member,own,named,given,_⟩,broken⟩
      exact ⟨f,member,⟨own,named⟩,value,given,broken⟩
    · rintro ⟨f,member,⟨own,named⟩,value,given,broken⟩
      exact ⟨valuePart own value,value,⟨f,member,own,named,given,rfl⟩,broken⟩
  have each : ∀ head, '\n' ∈ (Argument.grep (actionPattern (actionValues case rule .id) head)).text ↔
      '\n' ∈ head ∨ ∃ id ∈ actionValues case rule .id, '\n' ∈ id :=
    fun head => (newline_option (by decide) _).trans (newline_actionPattern _ head)
  have heads := newline_actionHeads (actionValues case rule .pair) (actionValues case rule .scope)
    (actionValues case rule .action)
  obtain ⟨first,some⟩ := List.exists_mem_of_ne_nil _ (actionHeads_filled (actionValues case rule .pair)
    (actionValues case rule .scope) (actionValues case rule .action))
  rw [← parts,actionArguments]
  simp only [List.mem_map,exists_exists_and_eq_and,each,and_or_left,exists_or,heads]
  constructor
  · rintro ((pair | scope | action) | ⟨_,_,id⟩)
    · exact ⟨.pair,pair⟩
    · exact ⟨.scope,scope⟩
    · exact ⟨.action,action⟩
    · exact ⟨.id,id⟩
  · rintro ⟨part,broken⟩
    cases part with
    | pair => exact .inl (.inl broken)
    | scope => exact .inl (.inr (.inl broken))
    | action => exact .inl (.inr (.inr broken))
    | id => exact .inr ⟨first,some,broken⟩

theorem newline_ruleArguments (actions : List Argument) (fields : List Field)
    (line : ∀ f ∈ fields, '\n' ∉ case.apply f.name) :
    (∃ a ∈ ruleArguments case context actions fields, '\n' ∈ a.text) ↔
      ((∃ f ∈ fields, role (case.apply f.name) = .action) ∧ ∃ a ∈ actions, '\n' ∈ a.text) ∨
        ∃ f ∈ fields, role (case.apply f.name) ≠ .action ∧ role (case.apply f.name) ≠ .date ∧
          ∃ value ∈ f.values, '\n' ∈ value := by
  induction fields generalizing actions with
  | nil => simp [ruleArguments]
  | cons f fields ih =>
      obtain ⟨quiet,later⟩ := List.forall_mem_cons.mp line
      rw [ruleArguments,List.exists_mem_cons_iff,List.exists_mem_cons_iff]
      split
      · next family =>
          simp only [List.mem_append,or_and_right,exists_or]
          rw [ih [] later]
          have none : ¬∃ a ∈ ([] : List Argument), '\n' ∈ a.text := by simp
          constructor
          · rintro (front | ⟨_,absent⟩ | behind)
            · exact .inl (.inl ⟨family,front⟩)
            · exact absurd absent none
            · exact .inr (.inr behind)
          · rintro ((⟨_,front⟩ | ⟨_,front⟩) | ⟨other,_⟩ | behind)
            · exact .inl front
            · exact .inl front
            · exact absurd family other
            · exact .inr (.inr behind)
      · next other =>
          simp only [List.mem_append,or_and_right,exists_or]
          rw [ih actions later,newline_fieldArguments quiet]
          constructor
          · rintro (front | family | behind)
            · exact .inr (.inl front)
            · exact .inl (.inr family)
            · exact .inr (.inr behind)
          · rintro ((⟨family,_⟩ | family) | front | behind)
            · exact absurd family other
            · exact .inr (.inl family)
            · exact .inl front
            · exact .inr (.inr behind)

theorem newline_ofRule (options : HistoryOptions) (context : DateContext) (rule : Rule)
    (line : ∀ f ∈ rule.fields, '\n' ∉ options.case.apply f.name) : '\n' ∈ ofRule options context rule ↔
      ∃ f ∈ rule.fields, role (options.case.apply f.name) ≠ .date ∧ ∃ value ∈ f.values, '\n' ∈ value := by
  have flags : ¬∃ a ∈ (if options.ignoreCase then [Argument.ignoreCase] else []) ++ [.allMatch,.extended],
      '\n' ∈ a.text := by
    cases options.ignoreCase <;> decide
  rw [ofRule,text,Text.newline_join [' '] (by decide)]
  simp only [List.mem_map,exists_exists_and_eq_and,arguments,List.mem_append,or_and_right,exists_or]
  simp only [List.mem_append,or_and_right,exists_or] at flags
  rw [newline_ruleArguments _ _ line,newline_actionArguments,or_iff_right flags]
  constructor
  · rintro (⟨_,f,member,family,value⟩ | ⟨f,member,_,shown,value⟩)
    · exact ⟨f,member,by simp [family],value⟩
    · exact ⟨f,member,shown,value⟩
  · rintro ⟨f,member,shown,value⟩
    by_cases family : role (options.case.apply f.name) = .action
    · exact .inl ⟨⟨f,member,family⟩,f,member,family,value⟩
    · exact .inr ⟨f,member,family,shown,value⟩

end History

theorem newline_fieldName (named : IsFieldName name) (case : CaseMode) : '\n' ∉ case.apply name := by
  have chars := named.chars
  have lowered : ∀ c, isNameChar c = true → c.toLower ≠ '\n' := fun c =>
    Clause.isNameChar_table (p := fun c => c.toLower ≠ '\n') (by decide)
  have ascii : name.Ascii := fun c member => Clause.isNameChar_ascii (chars c member)
  cases case with
  | preserve =>
      intro member
      cases chars _ member
  | fold =>
      have letters : CaseMode.fold.apply name = name.lowerAscii := Text.lowerFrom_ascii ascii []
      rw [letters]
      intro member
      obtain ⟨c,known,same⟩ := List.mem_map.mp member
      exact lowered c (chars c known) same

theorem Rule.parseAll_named {allowEmpty : Bool} {queries : List Text} {rule : Rule}
    (parsed : rule ∈ parseAll allowEmpty queries) : ∀ f ∈ rule.fields, IsFieldName f.name := by
  obtain ⟨query,_,read⟩ := List.mem_filterMap.mp parsed
  simp only [parse?] at read
  split at read
  · cases read
  · cases read
    exact ofPairs_named fun p kept => surviving_named kept

end FieldedSearch
