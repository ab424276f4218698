import FieldedSearch.Proofs.ActionLines

namespace FieldedSearch

namespace Rule

def keep (passes : Field → Bool) (rule : Rule) : Rule where
  fields := rule.fields.filter passes
  distinct := rule.distinct.sublist (List.filter_sublist.map Field.name)

def keepWhile (passes : Field → Bool) (rule : Rule) : Rule where
  fields := rule.fields.takeWhile passes
  distinct := rule.distinct.sublist ((List.takeWhile_sublist passes).map Field.name)

end Rule

namespace History

variable {case : CaseMode} {context : DateContext} {rule : Rule} {f : Field} {pairs scopes actions : List Text}
  {part : ActionPart} {options : HistoryOptions} {a : Argument}

def familyNames : List Text :=
  ["action".toList,"vp-action".toList,"entity".toList,"scope".toList,"vpid".toList]

def inFamily (case : CaseMode) (f : Field) : Bool := familyNames.contains (case.apply f.name)

def outsideFamily (case : CaseMode) (f : Field) : Bool := !inFamily case f

theorem role_familyNames (name : Text) : role name = .action ↔ name ∈ familyNames := by
  rw [role_action,Option.isSome_iff_exists]
  simp only [actionPart?_names]
  constructor
  · intro found
    obtain ⟨part,named⟩ := found
    have known : part.names ⊆ familyNames := by cases part <;> decide
    exact known named
  · intro named
    have sorted : ∀ name ∈ familyNames, ∃ part : ActionPart, name ∈ part.names := by
      simp only [familyNames,List.forall_mem_cons]
      exact ⟨⟨.action,by decide⟩,⟨.pair,by decide⟩,⟨.scope,by decide⟩,⟨.scope,by decide⟩,⟨.id,by decide⟩,nofun⟩
    exact sorted name named

theorem inFamily_role : inFamily case f = true ↔ role (case.apply f.name) = .action := by
  rw [role_familyNames,inFamily,List.contains_iff_mem]

theorem any_inFamily (fields : List Field) :
    (fields.any fun f => role (case.apply f.name) = .action) = fields.any (inFamily case) := by
  refine congrArg fields.any (funext fun f => ?_)
  rw [Bool.eq_iff_iff,decide_eq_true_eq,inFamily_role]

theorem flatMap_filter {α β : Type} {give : α → List β} {passes : α → Bool} {items : List α}
    (idle : ∀ item ∈ items, passes item = false → give item = []) :
    (items.filter passes).flatMap give = items.flatMap give := by
  induction items with
  | nil => rfl
  | cons item items ih =>
      obtain ⟨first,later⟩ := List.forall_mem_cons.mp idle
      cases passed : passes item with
      | true => simp [passed,ih later]
      | false => simp [passed,ih later,first passed]

-- What the fields give one by one. In this way the family gives nothing.

def ownArguments (case : CaseMode) (context : DateContext) (fields : List Field) : List Argument :=
  fields.flatMap fun f => fieldArguments context (case.apply f.name) f.values (role (case.apply f.name))

theorem ownArguments_cons (f : Field) (fields : List Field) : ownArguments case context (f :: fields) =
    fieldArguments context (case.apply f.name) f.values (role (case.apply f.name)) ++
      ownArguments case context fields := List.flatMap_cons

theorem fieldArguments_family (family : inFamily case f = true) :
    fieldArguments context (case.apply f.name) f.values (role (case.apply f.name)) = [] := by
  rw [inFamily_role.mp family]
  rfl

theorem ownArguments_outside (context : DateContext) (fields : List Field) :
    ownArguments case context (fields.filter (outsideFamily case)) = ownArguments case context fields := by
  refine flatMap_filter fun f _ inside => fieldArguments_family ?_
  simpa [outsideFamily] using inside

theorem ownArguments_inside (context : DateContext) (fields : List Field) :
    ownArguments case context (fields.filter (inFamily case)) = [] := by
  refine List.flatMap_eq_nil_iff.mpr fun f member => fieldArguments_family ?_
  exact (List.mem_filter.mp member).2

theorem ownArguments_split (context : DateContext) (fields : List Field) :
    ownArguments case context (fields.takeWhile (outsideFamily case)) ++
      ownArguments case context (fields.dropWhile (outsideFamily case)) = ownArguments case context fields := by
  rw [ownArguments,ownArguments,ownArguments,← List.flatMap_append,List.takeWhile_append_dropWhile]

-- What is given to the family goes in front of its first field.
theorem ruleArguments_cut (block : List Argument) (fields : List Field) :
    ruleArguments case context block fields =
      ownArguments case context (fields.takeWhile (outsideFamily case)) ++
        (if fields.any (inFamily case) then block else []) ++
        ownArguments case context (fields.dropWhile (outsideFamily case)) := by
  have none : ownArguments case context [] = [] := rfl
  induction fields generalizing block with
  | nil => simp [ruleArguments,none]
  | cons f fields ih =>
      cases family : inFamily case f with
      | true =>
          have behind : ruleArguments case context [] fields = ownArguments case context fields := by
            rw [ih,ite_self,List.append_nil,ownArguments_split]
          have silent : ownArguments case context (f :: fields) = ownArguments case context fields := by
            rw [ownArguments_cons,fieldArguments_family family,List.nil_append]
          rw [ruleArguments,if_pos (inFamily_role.mp family),behind]
          simp [outsideFamily,family,silent,none]
      | false =>
          have other : role (case.apply f.name) ≠ .action := by
            rw [ne_eq,← inFamily_role,family]
            exact Bool.false_ne_true
          rw [ruleArguments,if_neg other,ih]
          simp [outsideFamily,family,ownArguments_cons]

def actionBlock (case : CaseMode) (rule : Rule) : List Argument :=
  if rule.fields.any (inFamily case) then actionArguments case rule else []

theorem actionValues_family (part : ActionPart) :
    actionValues case (rule.keep (inFamily case)) part = actionValues case rule part := by
  refine flatMap_filter fun f _ outside => ?_
  have unknown : actionPart? (case.apply f.name) = none := by
    rw [← Option.not_isSome_iff_eq_none,← role_action,← inFamily_role,outside]
    exact Bool.false_ne_true
  rw [unknown]

theorem actionBlock_family : actionBlock case (rule.keep (inFamily case)) = actionBlock case rule := by
  have same : (rule.keep (inFamily case)).fields.any (inFamily case) = rule.fields.any (inFamily case) := by
    simp [Rule.keep,List.any_filter]
  simp only [actionBlock,same,actionArguments,actionValues_family]

theorem actionPattern_begins (ids : List Text) (head : Text) : "^VP-Action: ".toList <+: actionPattern ids head := by
  unfold actionPattern
  rw [List.append_assoc,List.append_assoc]
  exact List.prefix_append _ _

theorem actionBlock_grep : ∀ a ∈ actionBlock case rule, ∃ pattern, a = .grep pattern ∧ "^VP-Action: ".toList <+: pattern := by
  intro a member
  rw [actionBlock] at member
  split at member
  · obtain ⟨head,_,same⟩ := List.mem_map.mp member
    exact ⟨_,same.symm,actionPattern_begins _ head⟩
  · cases member

theorem actionValues_given : actionValues case rule part ≠ [] ↔ ∃ value, Given case rule value part := by
  rw [ne_eq,actionValues_nil,not_forall_not]

def Doubled (case : CaseMode) (rule : Rule) : Prop :=
  (∃ pair, Given case rule pair .pair) ∧ ((∃ scope, Given case rule scope .scope) ∨ ∃ action, Given case rule action .action)

theorem Doubled.family (doubled : Doubled case rule) : rule.fields.any (inFamily case) = true := by
  obtain ⟨pair,given⟩ := doubled.1
  rw [← any_inFamily]
  exact given_family given

theorem length_actionHeads : (actionHeads pairs scopes actions).length =
    if pairs ≠ [] ∧ (scopes ≠ [] ∨ actions ≠ []) then 2 else 1 := by
  cases pairs <;> cases scopes <;> cases actions <;> simp [actionHeads]

theorem length_actionBlock (family : rule.fields.any (inFamily case) = true) :
    (Doubled case rule → (actionBlock case rule).length = 2) ∧ (¬Doubled case rule → (actionBlock case rule).length = 1) := by
  have size : (actionBlock case rule).length = (actionHeads (actionValues case rule .pair) (actionValues case rule .scope)
      (actionValues case rule .action)).length := by
    rw [actionBlock,if_pos family,actionArguments,List.length_map]
  have double : Doubled case rule ↔ actionValues case rule .pair ≠ [] ∧
      (actionValues case rule .scope ≠ [] ∨ actionValues case rule .action ≠ []) := by
    simp only [actionValues_given,Doubled]
  rw [size,length_actionHeads,double]
  exact ⟨fun both => if_pos both,fun single => if_neg single⟩

theorem size_actionBlock : (actionBlock case rule = [] ↔ (rule.keep (inFamily case)).fields = []) ∧
    ((actionBlock case rule).length = 2 ↔ Doubled case rule) ∧
    ((actionBlock case rule).length = 1 ↔ (rule.keep (inFamily case)).fields ≠ [] ∧ ¬Doubled case rule) := by
  have none : (rule.keep (inFamily case)).fields = [] ↔ rule.fields.any (inFamily case) = false := by simp [Rule.keep]
  rw [ne_eq,none,← List.length_eq_zero_iff]
  cases family : rule.fields.any (inFamily case) with
  | false =>
      have empty : (actionBlock case rule).length = 0 := by rw [actionBlock,family]; rfl
      have single : ¬Doubled case rule := by
        intro doubled
        cases family.symm.trans doubled.family
      simp [empty,single]
  | true =>
      obtain ⟨double,single⟩ := length_actionBlock family
      by_cases doubled : Doubled case rule
      · simp [double doubled,doubled]
      · simp [single doubled,doubled]

theorem arguments_cut (options : HistoryOptions) (context : DateContext) (rule : Rule) :
    arguments options context rule = arguments options context .empty ++
      (ownArguments options.case context (rule.fields.takeWhile (outsideFamily options.case)) ++
        actionBlock options.case rule ++
        ownArguments options.case context (rule.fields.dropWhile (outsideFamily options.case))) := by
  have flags : arguments options context .empty = (if options.ignoreCase then [.ignoreCase] else []) ++ [.allMatch,.extended] :=
    List.append_nil _
  rw [flags,arguments,ruleArguments_cut,actionBlock]

theorem ownArguments_mem (own : a ∈ ownArguments options.case context rule.fields) : a ∈ arguments options context rule := by
  rw [← ownArguments_split,List.mem_append] at own
  rw [arguments_cut]
  simp only [List.mem_append]
  rcases own with ahead | behind
  · exact .inr (.inl (.inl ahead))
  · exact .inr (.inr behind)

theorem arguments_outside (context : DateContext) (outside : rule.fields.any (inFamily options.case) = false) :
    arguments options context rule = arguments options context .empty ++ ownArguments options.case context rule.fields := by
  have empty : actionBlock options.case rule = [] := by rw [actionBlock,outside]; rfl
  rw [arguments_cut,empty,List.append_nil,ownArguments_split]

theorem arguments_inside (options : HistoryOptions) (context : DateContext) (rule : Rule) :
    arguments options context (rule.keep (inFamily options.case)) =
      arguments options context .empty ++ actionBlock options.case rule := by
  have silent := (ownArguments_split context (rule.keep (inFamily options.case)).fields).trans
    (ownArguments_inside context rule.fields)
  obtain ⟨front,back⟩ := List.append_eq_nil_iff.mp silent
  rw [arguments_cut,front,back,actionBlock_family,List.nil_append,List.append_nil]

-- One block, whatever the day and the other fields. It is put into the arguments of the others behind those of the
-- fields in front of the family.
theorem action_block_exact (options : HistoryOptions) (rule : Rule) : ∃ block : List Argument,
    (∀ context, arguments options context (rule.keep (inFamily options.case)) =
        arguments options context .empty ++ block ∧
      ∃ back, arguments options context (rule.keep (outsideFamily options.case)) =
          arguments options context (rule.keepWhile (outsideFamily options.case)) ++ back ∧
        arguments options context rule =
          arguments options context (rule.keepWhile (outsideFamily options.case)) ++ block ++ back) ∧
    (∀ a ∈ block, ∃ pattern, a = .grep pattern ∧ "^VP-Action: ".toList <+: pattern) ∧
    (block = [] ↔ (rule.keep (inFamily options.case)).fields = []) ∧
    (block.length = 2 ↔ Doubled options.case rule) ∧
    (block.length = 1 ↔ (rule.keep (inFamily options.case)).fields ≠ [] ∧ ¬Doubled options.case rule) := by
  have others : (rule.keep (outsideFamily options.case)).fields.any (inFamily options.case) = false := by
    simp [Rule.keep,outsideFamily]
  have ahead : (rule.keepWhile (outsideFamily options.case)).fields.any (inFamily options.case) = false := by
    refine List.any_eq_false.mpr fun f member inside => ?_
    have outside := List.all_eq_true.mp List.all_takeWhile f member
    rw [outsideFamily,inside] at outside
    cases outside
  refine ⟨actionBlock options.case rule,fun context => ⟨arguments_inside options context rule,
    ownArguments options.case context (rule.fields.dropWhile (outsideFamily options.case)),?_,?_⟩,
    actionBlock_grep,size_actionBlock⟩
  · rw [arguments_outside context others,arguments_outside context ahead,List.append_assoc]
    refine congrArg (arguments options context .empty ++ ·) ?_
    exact (ownArguments_outside context rule.fields).trans (ownArguments_split context rule.fields).symm
  · rw [arguments_cut,arguments_outside context ahead]
    simp only [List.append_assoc]
    rfl

example : arguments ⟨.fold,false⟩ ⟨.unixEpoch,.utc⟩ (.ofPairs [("text".toList,"a".toList),("VPID".toList,"X".toList),
    ("text".toList,"b".toList),("before".toList,"c".toList),("entity".toList,"post".toList)]) =
    [.allMatch,.extended,.grep "a".toList,.grep "b".toList,.grep "^VP-Action: post/.*/X$".toList,.before "c".toList] := by
  decide

end History
end FieldedSearch
