import Mathlib.Data.List.Forall2
import FieldedSearch.Filter
import FieldedSearch.History
import FieldedSearch.Proofs.Grouping
import FieldedSearch.Record

namespace FieldedSearch

def Text.Ascii (s : Text) : Prop := ∀ c ∈ s, c.toNat < 128

instance (s : Text) : Decidable s.Ascii := List.decidableBAll _ s

variable {c : Char} {s name value : Text}

theorem mapChar_lower : ∀ n < 128, mapChar CaseTables.lower (Char.ofNat n) = (Char.ofNat n).toLower := by
  decide +kernel

theorem Text.lowerFrom_ascii (ascii : s.Ascii) (before : Text) : lowerFrom before s = s.lowerAscii := by
  induction s generalizing before with
  | nil => rfl
  | cons c s ih =>
      obtain ⟨small,later⟩ := List.forall_mem_cons.mp ascii
      have sigma : c ≠ 'Σ' := by
        intro same
        subst same
        exact absurd small (by decide)
      have dotted : c ≠ 'İ' := by
        intro same
        subst same
        exact absurd small (by decide)
      have lowered := mapChar_lower c.toNat small
      rw [Char.ofNat_toNat] at lowered
      rw [lowerFrom,if_neg sigma,if_neg dotted,lowered,ih later]
      rfl

theorem toLower_ascii : c.toLower.toNat < 128 ↔ c.toNat < 128 := by
  constructor
  · intro ascii
    unfold Char.toLower at ascii
    split at ascii
    · next capital => exact Nat.lt_of_le_of_lt (UInt32.le_iff_toNat_le.mp capital.2) (by decide)
    · exact ascii
  · intro ascii
    have lowered : ∀ n < 128, (Char.ofNat n).toLower.toNat < 128 := by decide
    have small := lowered c.toNat ascii
    rwa [Char.ofNat_toNat] at small

theorem Text.lowercase_respelled {other : Text} (ascii : name.Ascii)
    (letters : other.lowerAscii = name.lowerAscii) : other.lowercase = name.lowercase := by
  have small : other.Ascii := by
    intro c member
    have lowered : c.toLower ∈ name.lowerAscii := letters ▸ List.mem_map_of_mem member
    obtain ⟨d,known,same⟩ := List.mem_map.mp lowered
    rw [← toLower_ascii,← same,toLower_ascii]
    exact ascii d known
  rw [lowercase,lowercase,lowerFrom_ascii small,lowerFrom_ascii ascii,letters]

def Field.fold (case : CaseMode) (f : Field) : Field := ⟨case.apply f.name,f.first,f.more⟩

-- Names may meet in here. Nobody gathers their values again.
def Rule.folded (case : CaseMode) (rule : Rule) : List Field := rule.fields.map (Field.fold case)

variable {case : CaseMode} {rule other : Rule}

theorem Record.satisfies_folded (engine : Engine) (record : Record) (same : rule.folded case = other.folded case) :
    record.satisfies engine case rule = record.satisfies engine case other := by
  have read : ∀ rule : Rule, record.satisfies engine case rule = (rule.folded case).all fun f =>
      ((record.reverse.find? fun pair => case.apply pair.1 = f.name).map Prod.snd).any
        (valueMatches engine case f.first) := by
    intro rule
    rw [satisfies,Rule.folded,List.all_map]
    refine congrArg (rule.fields.all ·) (funext fun f => ?_)
    show _ = (record.lookup? case f.name).any (valueMatches engine case f.first)
    cases record.lookup? case f.name <;> rfl
  rw [read,read,same]

theorem Filter.ofRule_folded (same : rule.folded case = other.folded case) :
    Filter.ofRule case rule = Filter.ofRule case other := by
  have read : ∀ rule : Rule, comparisons case rule = (rule.folded case).map (Comparison.ofField .preserve) := by
    intro rule
    rw [Rule.folded,List.map_map]
    rfl
  rw [Filter.ofRule,Filter.ofRule,read,read,same]

namespace History

theorem actionArguments_folded (same : rule.folded case = other.folded case) :
    actionArguments case rule = actionArguments case other := by
  have read : ∀ rule : Rule, actionValues case rule = fun part => (rule.folded case).flatMap fun f =>
      (actionPart? f.name).elim [] fun own => f.values.filter fun value => valuePart own value = part := by
    intro rule
    funext part
    rw [actionValues,Rule.folded,List.flatMap_map]
    refine congrArg (rule.fields.flatMap ·) (funext fun f => ?_)
    show _ = (actionPart? (case.apply f.name)).elim [] _
    cases actionPart? (case.apply f.name) <;> rfl
  rw [actionArguments,actionArguments,read,read,same]

theorem ruleArguments_folded (context : DateContext) (actions : List Argument) (fields : List Field) :
    ruleArguments case context actions fields =
      ruleArguments .preserve context actions (fields.map (Field.fold case)) := by
  induction fields generalizing actions with
  | nil => rfl
  | cons f fields ih =>
      rw [List.map_cons,ruleArguments,ruleArguments,ih,ih]
      rfl

theorem ofRule_folded (ignoreCase : Bool) (context : DateContext) (same : rule.folded case = other.folded case) :
    ofRule ⟨case,ignoreCase⟩ context rule = ofRule ⟨case,ignoreCase⟩ context other := by
  have listed : ruleArguments case context (actionArguments case rule) rule.fields =
      ruleArguments case context (actionArguments case other) other.fields := by
    calc
      _ = ruleArguments .preserve context (actionArguments case rule) (rule.folded case) :=
        ruleArguments_folded ..
      _ = ruleArguments .preserve context (actionArguments case other) (other.folded case) := by
        rw [same,actionArguments_folded same]
      _ = _ := (ruleArguments_folded ..).symm
  rw [ofRule,ofRule,arguments,arguments]
  exact congrArg (fun listed => text (_ ++ listed)) listed

end History

structure Respelling where
  name : Text
  other : Text
  value : Text
  ascii : name.Ascii
  letters : other.lowerAscii = name.lowerAscii

namespace Respelling

def before (p : Respelling) : Text × Text := (p.name,p.value)

def after (p : Respelling) : Text × Text := (p.other,p.value)

-- Values share a spelling after the change just when they did before.
def Grouped (pushes : List Respelling) : Prop := ∀ p ∈ pushes, ∀ q ∈ pushes, p.name = q.name ↔ p.other = q.other

instance (pushes : List Respelling) : Decidable (Grouped pushes) :=
  inferInstanceAs (Decidable (∀ p ∈ pushes, ∀ q ∈ pushes, p.name = q.name ↔ p.other = q.other))

-- Fields that the same values went into.
def Pushed (pushes : List Respelling) (f g : Field) : Prop :=
  (∃ p ∈ pushes, p.name = f.name ∧ p.other = g.name) ∧ f.first = g.first ∧ f.more = g.more

variable {pushes : List Respelling} {p : Respelling} {fields others : List Field}

theorem pushed_fold (f g : Field) (pushed : Pushed pushes f g) : f.fold .fold = g.fold .fold := by
  obtain ⟨⟨p,_,left,right⟩,first,more⟩ := pushed
  have names : CaseMode.fold.apply f.name = CaseMode.fold.apply g.name := by
    rw [← left,← right]
    exact (Text.lowercase_respelled p.ascii p.letters).symm
  rw [Field.fold,Field.fold,names,first,more]

theorem addValue_pushed (grouped : Grouped pushes) (member : p ∈ pushes)
    (alike : List.Forall₂ (Pushed pushes) fields others) :
    List.Forall₂ (Pushed pushes) (Rule.addValue p.name p.value fields) (Rule.addValue p.other p.value others) := by
  induction alike with
  | nil => exact .cons ⟨⟨p,member,rfl,rfl⟩,rfl,rfl⟩ .nil
  | @cons f g fields others pushed alike ih =>
      obtain ⟨⟨q,known,left,right⟩,first,more⟩ := pushed
      have found : f.name = p.name ↔ g.name = p.other := by
        rw [← left,← right]
        exact grouped q known p member
      by_cases same : f.name = p.name
      · rw [Rule.addValue,Rule.addValue,if_pos same,if_pos (found.mp same)]
        exact .cons ⟨⟨q,known,left,right⟩,first,by rw [more]⟩ alike
      · rw [Rule.addValue,Rule.addValue,if_neg same,if_neg (found.not.mp same)]
        exact .cons ⟨⟨q,known,left,right⟩,first,more⟩ ih

theorem addAll_pushed (grouped : Grouped pushes) (added : List Respelling) (members : ∀ p ∈ added, p ∈ pushes)
    (alike : List.Forall₂ (Pushed pushes) fields others) : List.Forall₂ (Pushed pushes)
      (Rule.addAll fields (added.map before)) (Rule.addAll others (added.map after)) := by
  induction added generalizing fields others with
  | nil => exact alike
  | cons p added ih =>
      obtain ⟨member,later⟩ := List.forall_mem_cons.mp members
      exact ih later (addValue_pushed grouped member alike)

end Respelling

structure Rule.FoldAlike (rule other : Rule) : Prop where
  matching : ∀ (engine : Engine) (record : Record) (earlier later : List Rule),
    record.satisfiesAny engine .fold (earlier ++ rule :: later) =
      record.satisfiesAny engine .fold (earlier ++ other :: later)
  filtering : Filter.ofRule .fold rule = Filter.ofRule .fold other
  history : ∀ ignoreCase context,
    History.ofRule ⟨.fold,ignoreCase⟩ context rule = History.ofRule ⟨.fold,ignoreCase⟩ context other

theorem Rule.foldAlike_of_folded (same : rule.folded .fold = other.folded .fold) : FoldAlike rule other where
  matching := by
    intro engine record earlier later
    rw [Record.satisfiesAny,Record.satisfiesAny,List.any_append,List.any_append,List.any_cons,List.any_cons,
      Record.satisfies_folded engine record same]
  filtering := Filter.ofRule_folded same
  history := fun ignoreCase context => History.ofRule_folded ignoreCase context same

open Respelling (Grouped before after)

theorem Rule.respelled_alike (pushes : List Respelling) (grouped : Grouped pushes) :
    FoldAlike (ofPairs (pushes.map before)) (ofPairs (pushes.map after)) := by
  have pushed := Respelling.addAll_pushed grouped pushes (fun _ member => member) .nil
  rw [← ofPairs_fields,← ofPairs_fields] at pushed
  refine foldAlike_of_folded ?_
  rw [folded,folded,← List.forall₂_eq_eq_eq,List.forall₂_map_left_iff,List.forall₂_map_right_iff]
  exact pushed.imp Respelling.pushed_fold

theorem Rule.respelled_alike_author : ∃ pushes : List Respelling,
    pushes.map before =
      [("author".toList,"Joe".toList),("VPid".toList,"8D1C".toList),("author".toList,"Ann".toList)] ∧
    pushes.map after =
      [("Author".toList,"Joe".toList),("vpID".toList,"8D1C".toList),("Author".toList,"Ann".toList)] ∧
    Grouped pushes ∧ FoldAlike (ofPairs (pushes.map before)) (ofPairs (pushes.map after)) := by
  let pushes : List Respelling := [⟨"author".toList,"Author".toList,"Joe".toList,by decide,by decide⟩,
    ⟨"VPid".toList,"vpID".toList,"8D1C".toList,by decide,by decide⟩,
    ⟨"author".toList,"Author".toList,"Ann".toList,by decide,by decide⟩]
  have grouped : Grouped pushes := by decide
  exact ⟨pushes,rfl,rfl,grouped,respelled_alike pushes grouped⟩

-- A second spelling is a second field, and its value counts too.
theorem Rule.respelled_alike_unless_split :
    ¬∀ pushes : List Respelling, FoldAlike (ofPairs (pushes.map before)) (ofPairs (pushes.map after)) := by
  intro all
  have alike := all [⟨"a".toList,"a".toList,"x".toList,by decide,by decide⟩,
    ⟨"a".toList,"A".toList,"y".toList,by decide,by decide⟩]
  have length := congrArg List.length alike.filtering
  exact absurd length (by decide)

end FieldedSearch
