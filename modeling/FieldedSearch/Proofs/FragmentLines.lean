import Mathlib
import FieldedSearch.Proofs.Newlines
import FieldedSearch.Proofs.OutputLines
import FieldedSearch.Proofs.Printing

namespace FieldedSearch.CommandLine

variable {environment : Environment} {arguments : List Text} {options : Options} {command : Command}
variable {config : Option Text} {allowEmpty : Bool} {queries : List Text} {fragment : Rule → Text} {rule : Rule}

def Command.fragment? (environment : Environment) (options : Options) : Command → Option (Rule → Text)
  | .history => some (History.ofRule options.history environment.dates)
  | .filter => some (Filter.ofRule options.filter)
  | .parse => none
  | .select _ => none

def Command.shown (options : Options) (f : Field) : Command → List Text
  | .history => if History.role (options.history.case.apply f.name) = .date then [] else f.values
  | .filter => [f.first]
  | .parse => []
  | .select _ => []

def Unbroken (command : Command) (options : Options) (rules : List Rule) : Prop :=
  ∀ rule ∈ rules, ∀ f ∈ rule.fields, ∀ value ∈ command.shown options f, '\n' ∉ value

instance (command : Command) (options : Options) (rules : List Rule) : Decidable (Unbroken command options rules) :=
  inferInstanceAs (Decidable (∀ rule ∈ rules, ∀ f ∈ rule.fields, ∀ value ∈ command.shown options f, '\n' ∉ value))

theorem newline_fragment (compiles : command.fragment? environment options = some fragment)
    (named : ∀ f ∈ rule.fields, IsFieldName f.name) :
    '\n' ∉ fragment rule ↔ ∀ f ∈ rule.fields, ∀ value ∈ command.shown options f, '\n' ∉ value := by
  cases command with
  | history =>
      cases compiles
      have exact := History.newline_ofRule options.history environment.dates rule
        fun f member => newline_fieldName (named f member) _
      rw [exact]
      constructor
      · intro none f member value given broken
        rw [Command.shown] at given
        split at given
        · cases given
        · next shown => exact none ⟨f,member,shown,value,given,broken⟩
      · rintro all ⟨f,member,shown,value,given,broken⟩
        have inside : value ∈ Command.shown options f .history := by rwa [Command.shown,if_neg shown]
        exact all f member value inside broken
  | filter =>
      cases compiles
      rw [Filter.newline_ofRule]
      constructor
      · intro none f member value given broken
        rw [Command.shown,List.mem_singleton] at given
        subst given
        exact none ⟨f,member,.inr broken⟩
      · rintro all ⟨f,member,label | broken⟩
        · exact newline_fieldName (named f member) _ label
        · exact all f member f.first (List.mem_singleton_self _) broken
  | parse | select => cases compiles

theorem texts_fragment (compiles : command.fragment? environment options = some fragment) (rules : List Rule)
    (records : List Json.Members) : command.texts environment options rules records = rules.map fragment := by
  cases command with
  | history | filter => cases compiles; rfl
  | parse | select => cases compiles

theorem source_fragment (compiles : command.fragment? environment options = some fragment) :
    command.source environment = .ok [] := by
  cases command with
  | history | filter => rfl
  | parse | select => cases compiles

-- A line for each rule, the fragment of that rule, unless a value breaks it. The number of lines alone tells.
theorem fragment_lines_exact (accepted : read arguments = .ok ⟨command,config,allowEmpty,queries⟩)
    (configured : readOptions environment config = .ok options)
    (compiles : command.fragment? environment options = some fragment) :
    run environment arguments = ⟨0,lines ((Rule.parseAll allowEmpty queries).map fragment),none⟩ ∧
      ((cutLines (run environment arguments).output).length = (Rule.parseAll allowEmpty queries).length ↔
        Unbroken command options (Rule.parseAll allowEmpty queries)) ∧
      (Unbroken command options (Rule.parseAll allowEmpty queries) →
        cutLines (run environment arguments).output =
          (Rule.parseAll allowEmpty queries).map fun rule => ended (fragment rule)) := by
  have printed : run environment arguments = ⟨0,lines ((Rule.parseAll allowEmpty queries).map fragment),none⟩ := by
    rw [run_accepted accepted]
    simp only [configured,source_fragment compiles,texts_fragment compiles]
  have whole : (∀ s ∈ (Rule.parseAll allowEmpty queries).map fragment, '\n' ∉ s) ↔
      Unbroken command options (Rule.parseAll allowEmpty queries) := by
    rw [List.forall_mem_map]
    exact forall₂_congr fun rule parsed => newline_fragment compiles (Rule.parseAll_named parsed)
  refine ⟨printed,?_,fun unbroken => ?_⟩
  · rw [printed,← whole,← cutLines_exact,List.length_map]
  · rw [printed,cutLines_lines (whole.mpr unbroken),List.map_map]
    rfl

theorem fragment_lines_exact_date :
    read ["history".toList,"a:''".toList,"date:\"1\n2\"".toList,"author:Joe".toList] =
        .ok ⟨.history,none,false,["a:''".toList,"date:\"1\n2\"".toList,"author:Joe".toList]⟩ ∧
      (cutLines (run (fileless .empty)
        ["history".toList,"a:''".toList,"date:\"1\n2\"".toList,"author:Joe".toList]).output).length = 2 := by
  have accepted : read ["history".toList,"a:''".toList,"date:\"1\n2\"".toList,"author:Joe".toList] =
    .ok ⟨.history,none,false,["a:''".toList,"date:\"1\n2\"".toList,"author:Joe".toList]⟩ := rfl
  have unbroken : Unbroken .history Options.defaults
      (Rule.parseAll false ["a:''".toList,"date:\"1\n2\"".toList,"author:Joe".toList]) := by
    have parsed : Rule.parseAll false ["a:''".toList,"date:\"1\n2\"".toList,"author:Joe".toList] =
      [Rule.ofPairs [("date".toList,"1\n2".toList)],Rule.ofPairs [("author".toList,"Joe".toList)]] := by cbv
    rw [parsed]
    decide
  have two : (Rule.parseAll false ["a:''".toList,"date:\"1\n2\"".toList,"author:Joe".toList]).length = 2 := by cbv
  exact ⟨accepted,two ▸ (fragment_lines_exact accepted rfl rfl).2.1.mpr unbroken⟩

theorem fragment_lines_broken :
    read ["restriction".toList,"a:\"x\ny\"".toList] = .ok ⟨.filter,none,false,["a:\"x\ny\"".toList]⟩ ∧
      (Rule.parseAll false ["a:\"x\ny\"".toList]).length = 1 ∧
      cutLines (run (fileless .empty) ["restriction".toList,"a:\"x\ny\"".toList]).output =
        ["(`a` = \"x\n".toList,"y\")\n".toList] := by
  have accepted : read ["restriction".toList,"a:\"x\ny\"".toList] = .ok ⟨.filter,none,false,["a:\"x\ny\"".toList]⟩ := rfl
  have one : (Rule.parseAll false ["a:\"x\ny\"".toList]).length = 1 := by cbv
  have printed : run (fileless .empty) ["restriction".toList,"a:\"x\ny\"".toList] =
      ⟨0,lines ((Rule.parseAll false ["a:\"x\ny\"".toList]).map (Filter.ofRule .preserve)),none⟩ := by
    rw [run_accepted accepted]
    rfl
  have text : lines ((Rule.parseAll false ["a:\"x\ny\"".toList]).map (Filter.ofRule .preserve)) = "(`a` = \"x\ny\")\n".toList := by cbv
  refine ⟨accepted,one,?_⟩
  rw [printed,text]
  rfl

end FieldedSearch.CommandLine
