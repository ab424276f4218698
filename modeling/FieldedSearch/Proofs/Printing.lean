import FieldedSearch.CommandLine.Run

namespace FieldedSearch.CommandLine

variable {α β : Type} {environment : Environment} {arguments : List Text} {invocation : Invocation}
variable {options : Options} {rules : List Rule} {text : Text} {bytes : ByteArray}

def Encodes (bytes : ByteArray) (text : Text) : Prop := (String.ofList text).toUTF8 = bytes

theorem decode?_exact : decode? bytes = some text ↔ Encodes bytes text := by
  rw [decode?,Option.map_eq_some_iff]
  constructor
  · rintro ⟨s,read,rfl⟩
    rw [Encodes,String.ofList_toList]
    unfold String.fromUTF8? at read
    split at read
    · cases read
      rfl
    · cases read
  · rintro ⟨rfl⟩
    refine ⟨String.ofList text,?_,String.toList_ofList⟩
    unfold String.fromUTF8?
    exact dif_pos (String.ofList text).isValidUTF8

def Readable (bytes? : Option ByteArray) (text : Text) : Prop := ∃ bytes, bytes? = some bytes ∧ Encodes bytes text

theorem readable_exact (bytes? : Option ByteArray) : bytes?.bind decode? = some text ↔ Readable bytes? text := by
  simp only [Option.bind_eq_some_iff,decode?_exact,Readable]

theorem readable_none (bytes? : Option ByteArray) : bytes?.bind decode? = none ↔ ∀ text, ¬Readable bytes? text := by
  rw [Option.eq_none_iff_forall_ne_some]
  exact forall_congr' fun text => not_congr (readable_exact bytes?)

def fileless (input : ByteArray) : Environment := ⟨fun _ => none,input,⟨Date.unixEpoch,.utc⟩,.unlimited,[]⟩

theorem fileless_input (s : Text) : recordsText? (fileless (String.ofList s).toUTF8) ['-'] = some s :=
  (readable_exact _).mpr ⟨_,rfl,rfl⟩

-- How a step ends that finds some output, and what the output is then.
def Printing.after (step : Printing α) (output : Text) : Except Failure α × Text := (step.run.run output).run

open Printing (after)

theorem after_ofExcept (result : Except Failure α) (output : Text) :
    after (MonadExcept.ofExcept result) output = (result,output) := by
  cases result <;> rfl

theorem after_pure (a : α) (output : Text) : after (pure a) output = (.ok a,output) := rfl

theorem after_bind (step : Printing α) (next : α → Printing β) (output : Text) :
    after (step >>= next) output =
      match after step output with
      | (.ok a,output) => after (next a) output
      | (.error failure,output) => (.error failure,output) := by
  simp only [after,bind,ExceptT.bind,ExceptT.mk,ExceptT.run,StateT.run,StateT.bind,ExceptT.bindCont,Id.run]
  cases step output with
  | mk result output => cases result <;> rfl

theorem after_printLine (s output : Text) : after (printLine s) output = (.ok (),output ++ lines [s]) := rfl

theorem lines_append (texts more : List Text) : lines (texts ++ more) = lines texts ++ lines more :=
  List.flatMap_append

theorem after_forM {step : α → Printing Unit} {printed : α → List Text}
    (prints : ∀ a output, after (step a) output = (.ok (),output ++ lines (printed a))) (items : List α)
    (output : Text) :
    after (items.forM step) output = (.ok (),output ++ lines (items.flatMap printed)) := by
  induction items generalizing output with
  | nil => rw [List.flatMap_nil,lines,List.flatMap_nil,List.append_nil]; exact after_pure () output
  | cons a items ih =>
      have round := after_bind (step a) (fun _ => items.forM step) output
      rw [prints] at round
      rw [List.flatMap_cons,lines_append,← List.append_assoc,← ih]
      exact round

def Command.source (environment : Environment) : Command → Except Failure (List Json.Members)
  | .select path => readRecords environment path
  | .parse => .ok []
  | .history => .ok []
  | .filter => .ok []

def selects (engine : Engine) (options : Options) (rules : List Rule) (members : Json.Members) : Bool :=
  (Json.record members).satisfiesAny engine options.matching rules

def Command.texts (environment : Environment) (options : Options) (rules : List Rule) (records : List Json.Members) :
    Command → List Text
  | .parse => [(Json.array (rules.map ruleJson)).indented 0]
  | .select _ => (records.filter (selects environment.engine options rules)).map fun members => (Json.object members).written
  | .history => rules.map (History.ofRule options.history environment.dates)
  | .filter => rules.map (Filter.ofRule options.filter)

theorem after_rules (text : Rule → Text) (output : Text) :
    after (rules.forM fun rule => printLine (text rule)) output = (.ok (),output ++ lines (rules.map text)) := by
  rw [List.map_eq_flatMap]
  exact after_forM (fun rule => after_printLine (text rule)) rules output

theorem after_record (engine : Engine) (options : Options) (rules : List Rule) (members : Json.Members)
    (output : Text) :
    after (if (Json.record members).satisfiesAny engine options.matching rules then
      printLine (Json.object members).written else pure ()) output =
      (.ok (),output ++ lines (if selects engine options rules members then [(Json.object members).written] else [])) := by
  rw [selects]
  split
  · exact after_printLine _ output
  · rw [lines,List.flatMap_nil,List.append_nil]
    exact after_pure () output

theorem flatMap_selected (select : α → Bool) (text : α → Text) (items : List α) :
    (items.flatMap fun a => if select a then [text a] else []) = (items.filter select).map text := by
  induction items with
  | nil => rfl
  | cons a items ih =>
      rw [List.flatMap_cons,List.filter_cons,ih]
      split <;> rfl

theorem after_perform (command : Command) (output : Text) : after (perform environment options rules command) output =
    match command.source environment with
    | .error failure => (.error failure,output)
    | .ok records => (.ok (),output ++ lines (command.texts environment options rules records)) := by
  cases command with
  | parse => exact after_printLine _ output
  | select path =>
      rw [perform,after_bind,after_ofExcept,Command.source]
      cases readRecords environment path with
      | error failure => rfl
      | ok records =>
          have printed := after_forM (after_record environment.engine options rules) records output
          rw [flatMap_selected] at printed
          exact printed
  | history => exact after_rules _ output
  | filter => exact after_rules _ output

theorem run_after (accepted : read arguments = .ok invocation) : run environment arguments =
    match after (execute environment invocation) [] with
    | (.error failure,output) => ⟨1,output,some failure⟩
    | (.ok _,output) => ⟨0,output,none⟩ := by
  rw [run,accepted]
  rfl

-- A run reads its options, then what its command needs, then it prints.
theorem run_accepted (accepted : read arguments = .ok invocation) : run environment arguments =
    match readOptions environment invocation.config with
    | .error failure => ⟨1,[],some failure⟩
    | .ok options =>
        match invocation.command.source environment with
        | .error failure => ⟨1,[],some failure⟩
        | .ok records =>
            let rules := Rule.parseAll invocation.allowEmpty invocation.queries
            ⟨0,lines (invocation.command.texts environment options rules records),none⟩ := by
  rw [run_after accepted,execute,after_bind,after_ofExcept]
  cases readOptions environment invocation.config with
  | error failure => rfl
  | ok options =>
      dsimp only
      rw [after_perform]
      cases invocation.command.source environment <;> rfl

end FieldedSearch.CommandLine
