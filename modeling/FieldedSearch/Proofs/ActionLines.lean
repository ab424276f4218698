import FieldedSearch.Proofs.Newlines
import FieldedSearch.Proofs.PatternReading

namespace FieldedSearch

open Ere (Stands)

-- Letters and digits of any alphabet, `_` and `-`. What is beyond ASCII passes for a letter.
def isWordChar (c : Char) : Bool := c.isAlphanum || c = '_' || c = '-' || 128 ≤ c.toNat

def Text.IsWord (s : Text) : Prop := ∀ c ∈ s, isWordChar c = true

instance (s : Text) : Decidable s.IsWord := List.decidableBAll _ s

def Text.IsPair (s : Text) : Prop := ∃ scope action : Text, s = scope ++ '/' :: action ∧ scope.IsWord ∧ action.IsWord

namespace History

variable {case : CaseMode} {rule : Rule} {value head x y run : Text} {values pairs scopes actions ids : List Text}
  {part : ActionPart}

def ActionPart.names : ActionPart → List Text
  | .pair => ["vp-action".toList]
  | .action => ["action".toList]
  | .scope => ["entity".toList,"scope".toList]
  | .id => ["vpid".toList]

def Gives (case : CaseMode) (rule : Rule) (part : ActionPart) (value : Text) : Prop :=
  ∃ f ∈ rule.fields, case.apply f.name ∈ part.names ∧ value ∈ f.values

-- A value that constrains the part. An action with a slash is a pair.
def Given (case : CaseMode) (rule : Rule) (value : Text) : ActionPart → Prop
  | .pair => Gives case rule .pair value ∨ Gives case rule .action value ∧ '/' ∈ value
  | .action => Gives case rule .action value ∧ '/' ∉ value
  | .scope => Gives case rule .scope value
  | .id => Gives case rule .id value

structure PlainActions (case : CaseMode) (rule : Rule) : Prop where
  pair : ∀ value, Gives case rule .pair value → value.IsPair
  action : ∀ value, Gives case rule .action value → value.IsWord ∨ value.IsPair
  scope : ∀ value, Gives case rule .scope value → value.IsWord
  id : ∀ value, Gives case rule .id value → value.IsWord

-- A trailer line, by its parts. The id may be missing.
structure ActionTrailer where
  scope : Text
  action : Text
  id : Option Text
  scope_word : scope.IsWord
  action_word : action.IsWord
  id_word : ∀ i ∈ id, i.IsWord

def ActionTrailer.pair (trailer : ActionTrailer) : Text := trailer.scope ++ '/' :: trailer.action

def ActionTrailer.tail (trailer : ActionTrailer) : Text := trailer.id.elim [] ('/' :: ·)

def ActionTrailer.line (trailer : ActionTrailer) : Text := "VP-Action: ".toList ++ (trailer.pair ++ trailer.tail)

def Allows (case : CaseMode) (rule : Rule) (part : ActionPart) (value : Text) : Prop :=
  (∀ other, ¬Given case rule other part) ∨ Given case rule value part

structure Meets (case : CaseMode) (rule : Rule) (trailer : ActionTrailer) : Prop where
  pair : Allows case rule .pair trailer.pair
  scope : Allows case rule .scope trailer.scope
  action : Allows case rule .action trailer.action
  id : (∀ other, ¬Given case rule other .id) ∨ ∃ i ∈ trailer.id, Given case rule i .id

-- The id of the trailer is one of the actions, and its pair is right, while no scope and no id are asked for.
structure Strays (case : CaseMode) (rule : Rule) (trailer : ActionTrailer) : Prop where
  pair : Allows case rule .pair trailer.pair
  scope : ∀ other, ¬Given case rule other .scope
  id : ∀ other, ¬Given case rule other .id
  action : ∃ i ∈ trailer.id, Given case rule i .action

def actionPatterns (case : CaseMode) (rule : Rule) : List Text :=
  if rule.fields.any fun f => role (case.apply f.name) = .action then
    (actionHeads (actionValues case rule .pair) (actionValues case rule .scope) (actionValues case rule .action)).map
      (actionPattern (actionValues case rule .id))
  else []

theorem isWordChar_plain {c : Char} (word : isWordChar c = true) :
    (isPassed c = false ∧ c ≠ '*') ∧ c ≠ '/' ∧ c ≠ '\n' := by
  have none : "^+?()\x7b\x7d|*/\n".toList.any isWordChar = false := by decide
  have other : ∀ d ∈ "^+?()\x7b\x7d|*/\n".toList, c ≠ d :=
    fun d member same => List.any_eq_false.mp none d member (same ▸ word)
  refine ⟨⟨?_,other '*' (by decide)⟩,other '/' (by decide),other '\n' (by decide)⟩
  rw [Bool.eq_false_iff]
  intro passed
  have marks : "^+?()\x7b\x7d|".toList ⊆ "^+?()\x7b\x7d|*/\n".toList := by decide
  exact other c (marks (List.contains_iff_mem.mp passed)) rfl

theorem slash_absent (word : value.IsWord) : '/' ∉ value := fun member => (isWordChar_plain (word '/' member)).2.1 rfl

theorem newline_absent (word : value.IsWord) : '\n' ∉ value := fun member => (isWordChar_plain (word '\n' member)).2.2 rfl

theorem word_plain (word : value.IsWord) : IsPlain value :=
  fun c member => (isWordChar_plain (word c member)).1

theorem pair_plain (pair : value.IsPair) : IsPlain value := by
  obtain ⟨scope,action,whole,scopeWord,actionWord⟩ := pair
  intro c member
  rw [whole,List.mem_append,List.mem_cons] at member
  rcases member with front | slash | behind
  · exact word_plain scopeWord c front
  · rw [slash]
    decide
  · exact word_plain actionWord c behind

theorem actionPart?_names (name : Text) (part : ActionPart) : actionPart? name = some part ↔ name ∈ part.names := by
  unfold actionPart?
  split
  · next same => subst same; cases part <;> decide
  · next noPair =>
      split
      · next same => subst same; cases part <;> decide
      · next noAction =>
          split
          · next either =>
              rcases (Bool.or_eq_true _ _).mp either with same | same <;> rw [of_decide_eq_true same] <;>
                cases part <;> decide
          · next noScope =>
              split
              · next same => subst same; cases part <;> decide
              · next noId =>
                  refine iff_of_false nofun fun member => ?_
                  cases part with
                  | pair => exact noPair (List.mem_singleton.mp member)
                  | action => exact noAction (List.mem_singleton.mp member)
                  | scope =>
                      refine noScope ((Bool.or_eq_true _ _).mpr ?_)
                      rcases List.mem_cons.mp member with same | other
                      · exact .inl (decide_eq_true same)
                      · exact .inr (decide_eq_true (List.mem_singleton.mp other))
                  | id => exact noId (List.mem_singleton.mp member)

theorem mem_actionValues_given : value ∈ actionValues case rule part ↔ Given case rule value part := by
  have split : value ∈ actionValues case rule part ↔ ∃ own, Gives case rule own value ∧ valuePart own value = part := by
    simp only [mem_actionValues,actionPart?_names,Gives]
    constructor
    · intro known
      obtain ⟨f,member,own,named,given,sorted⟩ := known
      exact ⟨own,⟨f,member,named,given⟩,sorted⟩
    · intro known
      obtain ⟨own,⟨f,member,named,given⟩,sorted⟩ := known
      exact ⟨f,member,own,named,given,sorted⟩
  rw [split]
  constructor
  · intro known
    obtain ⟨own,gives,sorted⟩ := known
    subst sorted
    by_cases slash : '/' ∈ value
    · cases own <;> simp [valuePart,Given,gives,slash]
    · cases own <;> simp [valuePart,Given,gives,slash]
  · intro given
    cases part with
    | pair =>
        rcases given with gives | ⟨gives,slash⟩
        · exact ⟨.pair,gives,rfl⟩
        · exact ⟨.action,gives,by simp [valuePart,slash]⟩
    | action => exact ⟨.action,given.1,by simp [valuePart,given.2]⟩
    | scope => exact ⟨.scope,given,rfl⟩
    | id => exact ⟨.id,given,rfl⟩

theorem actionValues_nil : actionValues case rule part = [] ↔ ∀ other, ¬Given case rule other part := by
  simp only [List.eq_nil_iff_forall_not_mem,mem_actionValues_given]

def Behind (ids : List Text) (run : Text) : Prop :=
  ids = [] ∧ run = [] ∨ ∃ rest, run = '/' :: rest ∧ Choice ids rest

theorem choice_word (word : run.IsWord) : Choice values run ↔ values = [] ∨ run ∈ values := by
  by_cases none : values = []
  · simp [Choice,none,newline_absent word]
  · rw [choice_filled none,or_iff_right none]

theorem stands_slash : Stands ['/'] (· = ['/']) := Stands.plain (by decide)

theorem stands_qualified (scope : ∀ value ∈ scopes, value.IsWord) (action : ∀ value ∈ actions, value.IsWord) :
    Stands (anyOf scopes ++ '/' :: anyOf actions)
      fun run => ∃ x y, run = x ++ '/' :: y ∧ Choice scopes x ∧ Choice actions y := by
  have left := stands_anyOf fun value member => word_plain (scope value member)
  have right := stands_anyOf fun value member => word_plain (action value member)
  refine (left.append (stands_slash.append right)).congr fun run => ?_
  constructor
  · intro cut
    obtain ⟨x,_,whole,left,_,y,rest,slash,right⟩ := cut
    exact ⟨x,y,by rw [whole,rest,slash]; rfl,left,right⟩
  · intro cut
    obtain ⟨x,y,whole,left,right⟩ := cut
    exact ⟨x,_,whole,left,['/'],y,rfl,rfl,right⟩

theorem stands_behind (id : ∀ value ∈ ids, value.IsWord) :
    Stands (if ids.isEmpty then "(/.*)?".toList else '/' :: anyOf ids) (Behind ids) := by
  have slashed : ∀ {s : Text} {language : Text → Prop}, Stands s language →
      Stands ('/' :: s) fun run => ∃ rest, run = '/' :: rest ∧ language rest := by
    intro s language stands
    exact (stands_slash.append stands).congr fun run => by simp
  cases ids with
  | nil =>
      have inner : ∀ value ∈ ["/.*".toList], Stands value fun run => ∃ rest, run = '/' :: rest ∧ '\n' ∉ rest := by
        intro value member
        rw [List.mem_singleton.mp member]
        exact slashed Stands.any
      have whole := Stands.maybe (fun value => value) (fun _ run => ∃ rest, run = '/' :: rest ∧ '\n' ∉ rest) inner
        (List.cons_ne_nil _ [])
      exact whole.congr fun run => by simp [Behind,Choice]
  | cons first ids =>
      have choice := stands_anyOf fun value member => word_plain (id value member)
      exact (slashed choice).congr fun run => by simp [Behind]

theorem forall_actionHeads {holds : Text → Prop} : (∀ head ∈ actionHeads pairs scopes actions, holds head) ↔
    (pairs ≠ [] → holds (anyOf pairs)) ∧
      (pairs = [] ∨ scopes ≠ [] ∨ actions ≠ [] → holds (anyOf scopes ++ '/' :: anyOf actions)) := by
  cases pairs <;> cases scopes <;> cases actions <;> simp [actionHeads]

theorem finds_action {language : Text → Prop} (stands : Stands head language) (id : ∀ value ∈ ids, value.IsWord)
    (body : Text) : Ere.Finds (actionPattern ids head) ("VP-Action: ".toList ++ body) ↔
      ∃ front back, body = front ++ back ∧ language front ∧ Behind ids back := by
  have opening : Stands "VP-Action: ".toList (· = "VP-Action: ".toList) := Stands.literal _ (by decide)
  have whole := opening.append (stands.append (stands_behind id))
  have cut : actionPattern ids head = '^' :: ("VP-Action: ".toList ++
      (head ++ if ids.isEmpty then "(/.*)?".toList else '/' :: anyOf ids)) ++ ['$'] := by
    have opened : "^VP-Action: ".toList = '^' :: "VP-Action: ".toList := rfl
    unfold actionPattern
    simp only [opened,List.cons_append,List.append_assoc]
  rw [cut,whole.finds_exact]
  constructor
  · intro found
    obtain ⟨_,rest,split,same,front,back,inner,spans⟩ := found
    rw [same] at split
    exact ⟨front,back,(List.append_cancel_left split).trans inner,spans⟩
  · intro found
    obtain ⟨front,back,inner,spans⟩ := found
    exact ⟨_,body,rfl,rfl,front,back,inner,spans⟩

namespace ActionTrailer

variable {trailer : ActionTrailer}

theorem slash_mem_pair (trailer : ActionTrailer) : '/' ∈ trailer.pair :=
  List.mem_append_right trailer.scope List.mem_cons_self

-- A slash behind the action is the one in front of the id.
theorem slash_tail (same : trailer.action ++ trailer.tail = x ++ '/' :: y) : x = trailer.action ∧ y ∈ trailer.id := by
  obtain ⟨scope,action,id,scopeWord,actionWord,idWord⟩ := trailer
  cases id with
  | none =>
      have whole : action = x ++ '/' :: y := (List.append_nil action).symm.trans same
      have inside : '/' ∈ action := whole ▸ List.mem_append_right x List.mem_cons_self
      exact absurd inside (slash_absent actionWord)
  | some i =>
      have unslashed : '/' ∉ i := slash_absent (idWord i rfl)
      obtain ⟨front,_,back⟩ := (List.append_cons_inj_of_notMem (slash_absent actionWord) unslashed).mp same
      exact ⟨front.symm,congrArg some back⟩

theorem slash_line (same : trailer.pair ++ trailer.tail = x ++ '/' :: y) :
    x = trailer.scope ∧ y = trailer.action ++ trailer.tail ∨ x = trailer.pair ∧ y ∈ trailer.id := by
  have whole : trailer.scope ++ '/' :: (trailer.action ++ trailer.tail) = x ++ '/' :: y := by simpa [pair] using same
  rcases List.append_eq_append_iff.mp whole with ⟨between,longer,slashes⟩ | ⟨between,shorter,slashes⟩
  · cases between with
    | nil => exact .inl ⟨by simpa using longer,(List.cons.inj slashes).2.symm⟩
    | cons c between =>
        obtain ⟨first,later⟩ := List.cons.inj slashes
        obtain ⟨action,id⟩ := slash_tail later
        exact .inr ⟨by rw [longer,← first,action,pair],id⟩
  · cases between with
    | nil => exact .inl ⟨by simpa using shorter.symm,(List.cons.inj slashes).2⟩
    | cons c between =>
        have inside : '/' ∈ trailer.scope := by
          rw [shorter,← (List.cons.inj slashes).1]
          simp
        exact absurd inside (slash_absent trailer.scope_word)

theorem behind_tail (trailer : ActionTrailer) : Behind ids trailer.tail ↔ ids = [] ∨ ∃ i ∈ trailer.id, i ∈ ids := by
  obtain ⟨scope,action,id,scopeWord,actionWord,idWord⟩ := trailer
  cases id with
  | none => simp [Behind,tail]
  | some i => simp [Behind,tail,choice_word (idWord i rfl)]

theorem behind_action (same : trailer.action ++ trailer.tail = x ++ y) (behind : Behind ids y)
    (ends : ids = [] → x.IsWord) : x = trailer.action ∧ y = trailer.tail := by
  have whole : x = trailer.action := by
    rcases behind with ⟨none,empty⟩ | ⟨rest,slash,_⟩
    · cases trailed : trailer.id with
      | none => simpa [tail,trailed,empty] using same.symm
      | some i =>
          have inside : '/' ∈ x := by
            rw [show x = trailer.action ++ '/' :: i by simpa [tail,trailed,empty] using same.symm]
            simp
          exact absurd inside (slash_absent (ends none))
    · rw [slash] at same
      exact (slash_tail same).1
  rw [whole] at same
  exact ⟨whole,(List.append_cancel_left same).symm⟩

theorem finds_pair (trailer : ActionTrailer) (pair : ∀ value ∈ pairs, value.IsPair) (some : pairs ≠ [])
    (id : ∀ value ∈ ids, value.IsWord) : Ere.Finds (actionPattern ids (anyOf pairs)) trailer.line ↔
      trailer.pair ∈ pairs ∧ (ids = [] ∨ ∃ i ∈ trailer.id, i ∈ ids) := by
  have stands := stands_anyOf fun value member => pair_plain (pair value member)
  unfold line
  rw [finds_action stands id,← behind_tail]
  simp only [choice_filled some]
  constructor
  · intro found
    obtain ⟨front,back,whole,member,behind⟩ := found
    obtain ⟨scope,action,same,scopeWord,actionWord⟩ := pair front member
    have slash : trailer.pair ++ trailer.tail = scope ++ '/' :: (action ++ back) := by rw [whole,same]; simp
    rcases slash_line slash with ⟨front,rest⟩ | ⟨paired,_⟩
    · obtain ⟨acted,tailed⟩ := behind_action rest.symm behind fun _ => actionWord
      rw [← tailed]
      refine ⟨?_,behind⟩
      rw [ActionTrailer.pair,← front,← acted,← same]
      exact member
    · exact absurd (paired ▸ trailer.slash_mem_pair) (slash_absent scopeWord)
  · intro found
    exact ⟨trailer.pair,trailer.tail,rfl,found.1,found.2⟩

-- The pair is no word, so only a scope that is left open takes it in.
theorem choice_pair (trailer : ActionTrailer) (word : ∀ value ∈ values, value.IsWord) :
    Choice values trailer.pair ↔ values = [] := by
  have line : '\n' ∉ trailer.pair := by
    simp [pair,newline_absent trailer.scope_word,newline_absent trailer.action_word]
  by_cases none : values = []
  · simp [Choice,none,line]
  · have other : trailer.pair ∉ values := fun member => slash_absent (word _ member) trailer.slash_mem_pair
    simp [Choice,none,other]

theorem choice_action (word : ∀ value ∈ actions, value.IsWord) (named : Choice actions x) (behind : Behind ids y)
    (same : trailer.action ++ trailer.tail = x ++ y) : Choice actions trailer.action ∧ Behind ids trailer.tail := by
  by_cases loose : actions = [] ∧ ids = []
  · exact ⟨(choice_word trailer.action_word).mpr (.inl loose.1),(behind_tail trailer).mpr (.inl loose.2)⟩
  · have ends : ids = [] → x.IsWord := by
      intro none
      have some : actions ≠ [] := fun empty => loose ⟨empty,none⟩
      exact word x ((choice_filled some).mp named)
    obtain ⟨action,tail⟩ := behind_action same behind ends
    rw [← action,← tail]
    exact ⟨named,behind⟩

-- An open scope may take in the action as well, if nothing is asked of the id.
theorem finds_qualified (trailer : ActionTrailer) (scope : ∀ value ∈ scopes, value.IsWord)
    (action : ∀ value ∈ actions, value.IsWord) (id : ∀ value ∈ ids, value.IsWord) :
    Ere.Finds (actionPattern ids (anyOf scopes ++ '/' :: anyOf actions)) trailer.line ↔
      (scopes = [] ∨ trailer.scope ∈ scopes) ∧ (actions = [] ∨ trailer.action ∈ actions) ∧
        (ids = [] ∨ ∃ i ∈ trailer.id, i ∈ ids) ∨
      scopes = [] ∧ ids = [] ∧ ∃ i ∈ trailer.id, i ∈ actions := by
  unfold line
  rw [finds_action (stands_qualified scope action) id,← behind_tail,← choice_word trailer.scope_word,
    ← choice_word trailer.action_word]
  constructor
  · intro found
    obtain ⟨_,back,whole,⟨x,y,same,left,right⟩,behind⟩ := found
    have slash : trailer.pair ++ trailer.tail = x ++ '/' :: (y ++ back) := by rw [whole,same]; simp
    rcases slash_line slash with ⟨front,rest⟩ | ⟨paired,identified⟩
    · rw [front] at left
      exact .inl ⟨left,choice_action action right behind rest.symm⟩
    -- The scope has taken the action along, so all that is left is the id.
    · have noScope := (choice_pair trailer scope).mp (paired ▸ left)
      have unslashed : '/' ∉ y ++ back := slash_absent (trailer.id_word _ identified)
      rcases behind with ⟨noId,empty⟩ | ⟨rest,slashed,_⟩
      · rw [empty,List.append_nil] at identified
        rw [choice_word (trailer.id_word y identified)] at right
        rcases right with noAction | named
        · exact .inl ⟨(choice_word trailer.scope_word).mpr (.inl noScope),
            (choice_word trailer.action_word).mpr (.inl noAction),(behind_tail trailer).mpr (.inl noId)⟩
        · exact .inr ⟨noScope,noId,y,identified,named⟩
      · exact absurd (by simp [slashed]) unslashed
  · intro found
    rcases found with ⟨left,right,behind⟩ | ⟨noScope,noId,i,identified,named⟩
    · exact ⟨trailer.pair,trailer.tail,rfl,⟨trailer.scope,trailer.action,rfl,left,right⟩,behind⟩
    · have trailed : trailer.tail = '/' :: i := by
        rw [tail,Option.mem_def.mp identified]
        rfl
      have chosen : Choice actions i := (choice_word (trailer.id_word i identified)).mpr (.inr named)
      have paired := (choice_pair trailer scope).mpr noScope
      exact ⟨_,[],(List.append_nil _).symm,⟨trailer.pair,i,by rw [trailed],paired,chosen⟩,.inl ⟨noId,rfl⟩⟩

theorem finds_heads (trailer : ActionTrailer) (pair : ∀ value ∈ pairs, value.IsPair)
    (scope : ∀ value ∈ scopes, value.IsWord) (action : ∀ value ∈ actions, value.IsWord)
    (id : ∀ value ∈ ids, value.IsWord) :
    (∀ head ∈ actionHeads pairs scopes actions, Ere.Finds (actionPattern ids head) trailer.line) ↔
      (pairs = [] ∨ trailer.pair ∈ pairs) ∧
        ((scopes = [] ∨ trailer.scope ∈ scopes) ∧ (actions = [] ∨ trailer.action ∈ actions) ∧
          (ids = [] ∨ ∃ i ∈ trailer.id, i ∈ ids) ∨
        scopes = [] ∧ ids = [] ∧ ∃ i ∈ trailer.id, i ∈ actions) := by
  have qualified := finds_qualified trailer scope action id
  rw [forall_actionHeads,qualified]
  by_cases noPair : pairs = []
  · simp [noPair]
  · rw [finds_pair trailer pair noPair id]
    by_cases alone : scopes = [] ∧ actions = []
    · simp [noPair,alone]
    · constructor
      · intro found
        exact ⟨.inr (found.1 noPair).1,found.2 (.inr (not_and_or.mp alone))⟩
      · intro found
        obtain ⟨paired,rest⟩ := found
        refine ⟨fun some => ⟨paired.resolve_left some,?_⟩,fun _ => rest⟩
        rcases rest with ⟨_,_,identified⟩ | ⟨_,noId,_⟩
        · exact identified
        · exact .inl noId

end ActionTrailer

theorem PlainActions.given_pair (plain : PlainActions case rule) (given : Given case rule value .pair) : value.IsPair := by
  rcases given with gives | ⟨gives,slash⟩
  · exact plain.pair value gives
  · exact (plain.action value gives).resolve_left fun word => slash_absent word slash

theorem PlainActions.given_word (plain : PlainActions case rule) (given : Given case rule value part)
    (single : part ≠ .pair) : value.IsWord := by
  cases part with
  | pair => exact absurd rfl single
  | action =>
      refine (plain.action value given.1).resolve_right fun pair => ?_
      obtain ⟨scope,action,whole,_⟩ := pair
      exact given.2 (whole ▸ List.mem_append_right scope List.mem_cons_self)
  | scope => exact plain.scope value given
  | id => exact plain.id value given

theorem given_family (given : Given case rule value part) :
    (rule.fields.any fun f => role (case.apply f.name) = .action) = true := by
  obtain ⟨f,member,own,named,_⟩ := (mem_actionValues case rule part).mp (mem_actionValues_given.mpr given)
  rw [List.any_eq_true]
  refine ⟨f,member,decide_eq_true ((role_action (case.apply f.name)).mpr ?_)⟩
  rw [named]
  rfl

theorem finds_actionPatterns (plain : PlainActions case rule) (trailer : ActionTrailer) :
    (∀ p ∈ actionPatterns case rule, Ere.Finds p trailer.line) ↔ Meets case rule trailer ∨ Strays case rule trailer := by
  have word : ∀ part, part ≠ .pair → ∀ value ∈ actionValues case rule part, value.IsWord :=
    fun part single value member => plain.given_word (mem_actionValues_given.mp member) single
  have heads := trailer.finds_heads (fun value member => plain.given_pair (mem_actionValues_given.mp member))
    (word .scope (by decide)) (word .action (by decide)) (word .id (by decide))
  simp only [actionValues_nil,mem_actionValues_given] at heads
  unfold actionPatterns
  split
  · rw [List.forall_mem_map,heads]
    constructor
    · intro found
      obtain ⟨pair,⟨scope,action,id⟩ | ⟨scope,id,action⟩⟩ := found
      · exact .inl ⟨pair,scope,action,id⟩
      · exact .inr ⟨pair,scope,id,action⟩
    · intro found
      rcases found with meets | strays
      · exact ⟨meets.pair,.inl ⟨meets.scope,meets.action,meets.id⟩⟩
      · exact ⟨strays.pair,.inr ⟨strays.scope,strays.id,strays.action⟩⟩
  · next other =>
      have none : ∀ part value, ¬Given case rule value part := fun part value given => other (given_family given)
      refine iff_of_true (by simp) (.inl ?_)
      exact ⟨.inl (none .pair),.inl (none .scope),.inl (none .action),.inl (none .id)⟩

-- An argument of a field outside the family.
def FromOther (case : CaseMode) (context : DateContext) (fields : List Field) (a : Argument) : Prop :=
  ∃ f ∈ fields, role (case.apply f.name) ≠ .action ∧
    a ∈ fieldArguments context (case.apply f.name) f.values (role (case.apply f.name))

theorem ruleArguments_actions (case : CaseMode) (context : DateContext) (actions : List Argument) (fields : List Field) :
    ∃ front back, ruleArguments case context actions fields =
      front ++ (if fields.any fun f => role (case.apply f.name) = .action then actions else []) ++ back ∧
      ∀ a ∈ front ++ back, FromOther case context fields a := by
  induction fields generalizing actions with
  | nil => exact ⟨[],[],by simp [ruleArguments],by simp⟩
  | cons f fields ih =>
      have later : ∀ a, FromOther case context fields a → FromOther case context (f :: fields) a := by
        intro a other
        obtain ⟨g,member,own⟩ := other
        exact ⟨g,List.mem_cons_of_mem f member,own⟩
      unfold ruleArguments
      by_cases family : role (case.apply f.name) = .action
      · obtain ⟨front,back,whole,others⟩ := ih []
        refine ⟨[],front ++ back,?_,fun a member => later a (others a member)⟩
        simp [family,whole]
      · obtain ⟨front,back,whole,others⟩ := ih actions
        refine ⟨fieldArguments context (case.apply f.name) f.values (role (case.apply f.name)) ++ front,back,?_,?_⟩
        · simp [family,whole]
        · intro a member
          rw [List.append_assoc,List.mem_append] at member
          rcases member with own | inside
          · exact ⟨f,List.mem_cons_self,family,own⟩
          · exact later a (others a inside)

theorem gives_forall {holds : Text → Prop} : (∀ value, Gives case rule part value → holds value) ↔
    ∀ f ∈ rule.fields, case.apply f.name ∈ part.names → ∀ value ∈ f.values, holds value := by
  constructor
  · intro each f member named value inside
    exact each value ⟨f,member,named,inside⟩
  · intro each value gives
    obtain ⟨f,member,named,inside⟩ := gives
    exact each f member named value inside

-- Behind the flags the patterns of the action fields stand together. With an open scope and no ids asked for, an id may
-- stand for the action.
theorem action_selects_exact (options : HistoryOptions) (context : DateContext) (rule : Rule)
    (plain : PlainActions options.case rule) :
    (∃ front back, arguments options context rule = front ++ (actionPatterns options.case rule).map .grep ++ back ∧
      ∀ a ∈ front ++ back, a ∈ [.ignoreCase,.allMatch,.extended] ∨ FromOther options.case context rule.fields a) ∧
    ∀ trailer : ActionTrailer, (∀ p ∈ actionPatterns options.case rule, Ere.Finds p trailer.line) ↔
      Meets options.case rule trailer ∨ Strays options.case rule trailer := by
  refine ⟨?_,finds_actionPatterns plain⟩
  let flags : List Argument := (if options.ignoreCase then [.ignoreCase] else []) ++ [.allMatch,.extended]
  have known : flags ⊆ [.ignoreCase,.allMatch,.extended] := by
    dsimp only [flags]
    cases options.ignoreCase <;> decide
  have emitted : (actionPatterns options.case rule).map Argument.grep =
      if rule.fields.any fun f => role (options.case.apply f.name) = .action then actionArguments options.case rule
      else [] := by
    unfold actionPatterns
    split
    · exact List.map_map
    · rfl
  obtain ⟨front,back,whole,others⟩ := ruleArguments_actions options.case context (actionArguments options.case rule) rule.fields
  refine ⟨flags ++ front,back,?_,fun a member => ?_⟩
  · rw [arguments,whole,emitted]
    simp only [flags,List.append_assoc]
  · rw [List.append_assoc,List.mem_append] at member
    exact member.imp (fun flag => known flag) (others a)

theorem action_selects_exact_post :
    PlainActions .preserve (.ofPairs [("vp-action".toList,"post/edit".toList),("entity".toList,"post".toList),
      ("vpid".toList,"7".toList)]) ∧
    actionPatterns .preserve (.ofPairs [("vp-action".toList,"post/edit".toList),("entity".toList,"post".toList),
      ("vpid".toList,"7".toList)]) = ["^VP-Action: post/edit/7$".toList,"^VP-Action: post/.*/7$".toList] ∧
    ∀ p ∈ ["^VP-Action: post/edit/7$".toList,"^VP-Action: post/.*/7$".toList],
      Ere.Finds p "VP-Action: post/edit/7".toList := by
  let rule := Rule.ofPairs [("vp-action".toList,"post/edit".toList),("entity".toList,"post".toList),
    ("vpid".toList,"7".toList)]
  let trailer : ActionTrailer :=
    ⟨"post".toList,"edit".toList,some "7".toList,by decide,by decide,fun i member => by
      rw [← Option.some.inj member]
      decide⟩
  have single : ∀ value, Gives .preserve rule .pair value → value = "post/edit".toList := gives_forall.mpr (by decide)
  have none : ∀ value, ¬Gives .preserve rule .action value := gives_forall.mpr (by decide)
  have plain : PlainActions .preserve rule := by
    refine ⟨?_,fun value gives => absurd gives (none value),gives_forall.mpr (by decide),gives_forall.mpr (by decide)⟩
    intro value gives
    exact ⟨"post".toList,"edit".toList,single value gives,by decide,by decide⟩
  have meets : Meets .preserve rule trailer := by
    refine ⟨.inr ?_,.inr ?_,.inl fun other given => none other given.1,.inr ⟨"7".toList,rfl,?_⟩⟩
    all_goals exact mem_actionValues_given.mp (by decide)
  have lines := (action_selects_exact Options.defaults.history ⟨Date.unixEpoch,.utc⟩ rule plain).2 trailer
  have patterns : actionPatterns .preserve rule = ["^VP-Action: post/edit/7$".toList,"^VP-Action: post/.*/7$".toList] := by
    decide
  exact ⟨plain,patterns,patterns ▸ lines.mpr (.inl meets)⟩

-- A post with the id `delete` is selected, although it is edited.
theorem action_astray :
    PlainActions .preserve (.ofPairs [("action".toList,"delete".toList)]) ∧
    actionPatterns .preserve (.ofPairs [("action".toList,"delete".toList)]) = ["^VP-Action: .*/delete(/.*)?$".toList] ∧
    ∃ trailer : ActionTrailer, trailer.line = "VP-Action: post/edit/delete".toList ∧
      ¬((∀ p ∈ actionPatterns .preserve (.ofPairs [("action".toList,"delete".toList)]), Ere.Finds p trailer.line) ↔
        Meets .preserve (.ofPairs [("action".toList,"delete".toList)]) trailer) := by
  let rule := Rule.ofPairs [("action".toList,"delete".toList)]
  let trailer : ActionTrailer :=
    ⟨"post".toList,"edit".toList,some "delete".toList,by decide,by decide,fun i member => by
      rw [← Option.some.inj member]
      decide⟩
  have noPair : ∀ other, ¬Given .preserve rule other .pair := actionValues_nil.mp (by decide)
  have noScope : ∀ other, ¬Given .preserve rule other .scope := actionValues_nil.mp (by decide)
  have noId : ∀ other, ¬Given .preserve rule other .id := actionValues_nil.mp (by decide)
  have delete : Given .preserve rule "delete".toList .action := mem_actionValues_given.mp (by decide)
  have edit : ¬Given .preserve rule "edit".toList .action := fun given => absurd (mem_actionValues_given.mpr given) (by decide)
  have word : ∀ value, Gives .preserve rule .action value → value.IsWord := gives_forall.mpr (by decide)
  have plain : PlainActions .preserve rule :=
    ⟨fun value gives => absurd (.inl gives) (noPair value),fun value gives => .inl (word value gives),
      fun value gives => absurd gives (noScope value),fun value gives => absurd gives (noId value)⟩
  have strays : Strays .preserve rule trailer := ⟨.inl noPair,noScope,noId,"delete".toList,rfl,delete⟩
  refine ⟨plain,by decide,trailer,rfl,fun same => ?_⟩
  have meets := same.mp ((finds_actionPatterns plain trailer).mpr (.inr strays))
  rcases meets.action with none | given
  · exact none _ delete
  · exact edit given

end History
end FieldedSearch
