import Mathlib.Data.List.Forall2
import Mathlib.Data.List.Nodup
import FieldedSearch.Proofs.Grouping
import FieldedSearch.Proofs.IndentedJson
import FieldedSearch.Proofs.OutputLines
import FieldedSearch.Proofs.Printing

namespace FieldedSearch

namespace Json

variable {json : Json}

theorem itemTrees_map (items : List Json) : itemTrees items = items.map tree := by
  induction items with
  | nil => rfl
  | cons item items ih => rw [itemTrees,ih,List.map_cons]

theorem memberTrees_map (members : List (Text × Json)) :
    memberTrees members = members.map fun m => (some m.1,tree m.2) := by
  induction members with
  | nil => rfl
  | cons member members ih => rw [memberTrees,ih,List.map_cons]

theorem Integral.takeTree_indented (integral : Integral json) (level : Nat) :
    takeTree (indented level json) = some (tree json,[]) := by
  have read := (integral.spells_indented level).reads [] endsNumber_nil
  rwa [List.append_nil] at read

end Json

namespace CommandLine

open Json (Tree)
open Printing (after)

variable {environment : Environment} {options : Options} {config : Option Text} {allowEmpty : Bool}
  {queries : List Text} {item : Tree} {rule other : Rule}

-- Command lines that say all of it. Behind `--` any text is a query.

def parseArguments (allowEmpty : Bool) (queries : List Text) : List Text :=
  "parse".toList :: (if allowEmpty then ["--allow-empty".toList] else []) ++ "--".toList :: queries

theorem State.takeQueries_settled (state : State) (settled : state.pending = none) (queries : List Text) :
    state.takeQueries queries = .ok { state with queries := state.queries ++ queries } := by
  induction queries generalizing state with
  | nil => rw [List.append_nil]; rfl
  | cons query queries ih =>
      have taken : state.takeQuery query = .ok { state with queries := state.queries ++ [query] } := by
        have own : state.settle = .ok state := by rw [settle,settled]
        rw [takeQuery,own]
        rfl
      have later := ih { state with queries := state.queries ++ [query] } settled
      rw [takeQueries,List.foldlM_cons,taken]
      simp only [takeQueries,List.append_assoc,List.singleton_append] at later
      exact later

theorem State.takeAll_escape (command : Name) (state : State) (settled : state.pending = none) (filled : queries ≠ []) :
    takeAll command state ("--".toList :: queries) = .ok { state with queries := state.queries ++ queries } := by
  have step : takeAll command state ("--".toList :: queries) = (state.takeQueries queries).bind fun state =>
      state.settle.bind fun state => if state.queries.isEmpty then .error .missingQuery else .ok state := by
    rw [takeAll]
    rfl
  have some : (state.queries ++ queries).isEmpty = false := by simp [filled]
  rw [step,takeQueries_settled state settled]
  simp only [Except.bind,settle,settled,some]
  rfl

theorem read_parseArguments (allowEmpty : Bool) (filled : queries ≠ []) :
    read (parseArguments allowEmpty queries) = .ok ⟨.parse,none,allowEmpty,queries⟩ := by
  have inner := State.takeAll_escape .parse { State.start with allowEmpty := allowEmpty } rfl filled
  have entered : read (parseArguments allowEmpty queries) =
      (State.takeAll .parse { State.start with allowEmpty := allowEmpty } ("--".toList :: queries)).bind
        (invocation .parse .start) := by
    cases allowEmpty <;> rfl
  rw [entered,inner]
  rfl

def fieldEntry (f : Field) : Option Text × Tree :=
  (some f.name,.array (f.values.map fun value => .string (some value)))

-- The keys in their order, and none of them twice.
def Image (item : Tree) (rule : Rule) : Prop :=
  ∃ members, item = .object members ∧ (members.map Prod.fst).Nodup ∧ members = rule.fields.map fieldEntry

theorem ruleJson_integral (rule : Rule) : Json.Integral (ruleJson rule) := by
  refine .object ?_
  rw [List.forall_mem_map]
  intro f _
  refine .array ?_
  rw [List.forall_mem_map]
  exact fun value _ => .string value

theorem ruleJson_image (rule : Rule) : Image (ruleJson rule).tree rule := by
  refine ⟨rule.fields.map fieldEntry,?_,?_,rfl⟩
  · rw [ruleJson,Json.tree,Json.memberTrees_map,List.map_map]
    refine congrArg (fun entry => Tree.object (rule.fields.map entry)) (funext fun f => ?_)
    simp [fieldEntry,Json.tree,Json.itemTrees_map,Function.comp_def]
  · have keys : (rule.fields.map fieldEntry).map Prod.fst = (rule.fields.map Field.name).map some := by
      rw [List.map_map,List.map_map]
      rfl
    rw [keys]
    exact List.Nodup.map (fun _ _ same => Option.some.inj same) rule.distinct

theorem fieldEntry_injective : Function.Injective fieldEntry := by
  intro f g same
  have strings : Function.Injective fun value : Text => Tree.string (some value) := by
    intro value other alike
    exact Option.some.inj (Tree.string.inj alike)
  obtain ⟨name,list⟩ := Prod.mk.inj same
  have values : f.values = g.values := strings.list_map (Tree.array.inj list)
  obtain ⟨first,more⟩ := List.cons.inj values
  cases f
  cases g
  cases Option.some.inj name
  cases first
  cases more
  rfl

theorem image_unique : Relator.RightUnique Image := by
  rintro item rule other ⟨members,rfl,_,own⟩ ⟨others,same,_,alike⟩
  rw [← Tree.object.inj same,own] at alike
  exact Rule.eq_of_fields (fieldEntry_injective.list_map alike)

def printedRules (rules : List Rule) : Text := (Json.array (rules.map ruleJson)).indented 0

def Depicts (text : Text) (rules : List Rule) : Prop :=
  ∃ items, Json.takeTree text = some (.array items,[]) ∧ List.Forall₂ Image items rules

theorem printedRules_depicts (rules : List Rule) : Depicts (printedRules rules) rules := by
  have integral : Json.Integral (.array (rules.map ruleJson)) := by
    refine .array ?_
    rw [List.forall_mem_map]
    exact fun rule _ => ruleJson_integral rule
  refine ⟨(rules.map ruleJson).map Json.tree,?_,?_⟩
  · rw [printedRules,integral.takeTree_indented,Json.tree,Json.itemTrees_map]
  · rw [List.map_map,List.forall₂_map_left_iff,List.forall₂_same]
    exact fun rule _ => ruleJson_image rule

theorem depicts_unique {text : Text} {rules others : List Rule} (first : Depicts text rules)
    (second : Depicts text others) : rules = others := by
  obtain ⟨items,read,images⟩ := first
  obtain ⟨same,again,alike⟩ := second
  cases read.symm.trans again
  exact image_unique.forall₂ images alike

theorem printedRules_injective : Function.Injective printedRules := by
  intro rules others same
  exact depicts_unique (printedRules_depicts rules) (same ▸ printedRules_depicts others)

theorem after_parse (configured : readOptions environment config = .ok options) (allowEmpty : Bool)
    (queries : List Text) : after (execute environment ⟨.parse,config,allowEmpty,queries⟩) [] =
      (.ok (),ended (printedRules (Rule.parseAll allowEmpty queries))) := by
  rw [execute,after_bind,after_ofExcept,configured]
  rw [← lines_singleton]
  exact after_printLine _ []

theorem parse_prints_image (configured : readOptions environment config = .ok options) (allowEmpty : Bool)
    (queries : List Text) :
    (queries ≠ [] → read (parseArguments allowEmpty queries) = .ok ⟨.parse,none,allowEmpty,queries⟩) ∧
    after (execute environment ⟨.parse,config,allowEmpty,queries⟩) [] =
      (.ok (),ended (printedRules (Rule.parseAll allowEmpty queries))) ∧
    (∀ arguments, read arguments = .ok ⟨.parse,config,allowEmpty,queries⟩ →
      run environment arguments = ⟨0,ended (printedRules (Rule.parseAll allowEmpty queries)),none⟩) ∧
    Depicts (printedRules (Rule.parseAll allowEmpty queries)) (Rule.parseAll allowEmpty queries) ∧
    ∀ rules, ended (printedRules rules) = ended (printedRules (Rule.parseAll allowEmpty queries)) →
      rules = Rule.parseAll allowEmpty queries := by
  refine ⟨read_parseArguments allowEmpty,after_parse configured allowEmpty queries,?_,printedRules_depicts _,?_⟩
  · intro arguments accepted
    rw [run_after accepted,after_parse configured]
  · intro rules same
    exact printedRules_injective (List.append_cancel_right same)

-- Quotes, a backslash, control characters, a character beyond the first plane, and a query without content.
def oddQueries : List Text := ["a:\"\\\"\n\x01😀\" a:y\\ b:z".toList,"''".toList]

def oddText : Text :=
  ("[\n  \x7b\n    \"a\": [\n      \"\\\"\\n\\u0001😀\",\n      \"y\\\\\"\n    ],\n" ++
    "    \"b\": [\n      \"z\"\n    ]\n  \x7d\n]").toList

theorem printedRules_odd : printedRules (Rule.parseAll false oddQueries) = oddText := by
  decide +kernel

theorem parse_prints_image_odd :
    readOptions (fileless .empty) none = .ok Options.defaults ∧ oddQueries ≠ [] ∧
      run (fileless .empty) (parseArguments false oddQueries) = ⟨0,ended oddText,none⟩ ∧
      Depicts oddText (Rule.parseAll false oddQueries) := by
  have configured : readOptions (fileless .empty) none = .ok Options.defaults := rfl
  obtain ⟨accepted,_,printed,depicted,_⟩ := parse_prints_image configured false oddQueries
  have odd : oddQueries ≠ [] := List.cons_ne_nil _ _
  have ran := printed _ (accepted odd)
  rw [printedRules_odd] at ran depicted
  exact ⟨configured,odd,ran,depicted⟩

end CommandLine
end FieldedSearch
