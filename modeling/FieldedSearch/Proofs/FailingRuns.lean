import Mathlib
import FieldedSearch.Proofs.ConfigSettings
import FieldedSearch.Proofs.JsonRecords
import FieldedSearch.Proofs.Printing

namespace FieldedSearch.CommandLine

variable {environment : Environment} {failure : Failure}

def readAs {α : Type} (parse : Text → Option α) (bytes? : Option ByteArray) (missing refused : Failure) :
    Except Failure α :=
  match bytes?.bind decode? with
  | none => .error missing
  | some text =>
      match parse text with
      | none => .error refused
      | some value => .ok value

inductive ReadFails (bytes? : Option ByteArray) (accepts : Text → Prop) (missing refused : Failure) : Failure → Prop where
  | unreadable : (∀ text, ¬Readable bytes? text) → ReadFails bytes? accepts missing refused missing
  | invalid {text : Text} : Readable bytes? text → ¬accepts text → ReadFails bytes? accepts missing refused refused

theorem readAs_exact {α : Type} {parse : Text → Option α} {accepts : Text → Prop}
    (exact : ∀ text, (parse text).isSome = true ↔ accepts text) (bytes? : Option ByteArray) (missing refused : Failure) :
    readAs parse bytes? missing refused = .error failure ↔ ReadFails bytes? accepts missing refused failure := by
  rw [readAs]
  constructor
  · intro failed
    split at failed
    · next none =>
        cases failed
        exact .unreadable ((readable_none bytes?).mp none)
    · next text found =>
        split at failed
        · next none =>
            cases failed
            refine .invalid ((readable_exact bytes?).mp found) fun accepted => ?_
            rw [← exact,none] at accepted
            cases accepted
        · cases failed
  · intro fails
    cases fails with
    | unreadable none => rw [(readable_none bytes?).mpr none]
    | @invalid text found refusal =>
        rw [← exact,Bool.not_eq_true,Option.isSome_eq_false_iff,Option.isNone_iff_eq_none] at refusal
        rw [(readable_exact bytes?).mpr found]
        simp only [refusal]

def IsConfig (text : Text) : Prop := ∃ tree, Json.read? text = some tree ∧ Config.IsOptions tree

theorem config_exact (text : Text) : (Config.read? text).isSome = true ↔ IsConfig text := by
  rw [Config.read?,IsConfig]
  cases Json.read? text with
  | none => simp
  | some tree => simp [Config.options?_isSome]

def ConfigFails (environment : Environment) (config : Option Text) (failure : Failure) : Prop :=
  ∃ path, config = some path ∧
    ReadFails (environment.file? path) IsConfig (.unreadableConfig path) (.invalidConfig path) failure

def recordsBytes? (environment : Environment) (path : Text) : Option ByteArray :=
  if isInputPath path then some environment.input else environment.file? path

def RecordsFail (environment : Environment) (command : Command) (failure : Failure) : Prop :=
  ∃ path, command = .select path ∧
    ReadFails (recordsBytes? environment path) Json.IsRecords
      (.unreadableRecords (if isInputPath path then none else some path)) .invalidRecords failure

theorem readOptions_some (path : Text) : readOptions environment (some path) =
    readAs Config.read? (environment.file? path) (.unreadableConfig path) (.invalidConfig path) := by
  rw [readOptions,configText?,readAs]
  cases (environment.file? path).bind decode? with
  | none => rfl
  | some text =>
      dsimp only
      cases Config.read? text <;> rfl

theorem readRecords_path (path : Text) : readRecords environment path =
    readAs Json.records? (recordsBytes? environment path)
      (.unreadableRecords (if isInputPath path then none else some path)) .invalidRecords := by
  rw [readRecords,recordsText?,readAs,recordsBytes?]
  cases (if isInputPath path then some environment.input else environment.file? path).bind decode? with
  | none => rfl
  | some text =>
      dsimp only
      cases Json.records? text <;> rfl

theorem readOptions_exact (config : Option Text) :
    readOptions environment config = .error failure ↔ ConfigFails environment config failure := by
  cases config with
  | none => simp [readOptions,ConfigFails]
  | some path =>
      rw [readOptions_some,readAs_exact config_exact]
      simp [ConfigFails]

theorem source_exact (command : Command) :
    command.source environment = .error failure ↔ RecordsFail environment command failure := by
  cases command with
  | select path =>
      rw [Command.source,readRecords_path,readAs_exact Json.records?_isSome]
      simp [RecordsFail]
  | parse | history | filter => simp [Command.source,RecordsFail]

-- No line is printed unless everything could be read. A failure is the one of the configuration if it has one.
theorem run_fails_exact (environment : Environment) (arguments : List Text) :
    ((run environment arguments).exitCode ≠ 0 → (run environment arguments).output = []) ∧
    ∀ invocation, read arguments = .ok invocation →
      ((run environment arguments).exitCode = 0 ∨ (run environment arguments).exitCode = 1) ∧
      ((run environment arguments).exitCode = 1 ↔
        (∃ failure, ConfigFails environment invocation.config failure) ∨
          ∃ failure, RecordsFail environment invocation.command failure) ∧
      ∀ failure, (run environment arguments).failure = some failure ↔
        ConfigFails environment invocation.config failure ∨
          (∀ other, ¬ConfigFails environment invocation.config other) ∧
            RecordsFail environment invocation.command failure := by
  constructor
  · intro failed
    cases accepted : read arguments with
    | error mistake => cases mistake <;> simp [run,accepted] at failed ⊢
    | ok invocation =>
        rw [run_accepted accepted] at failed ⊢
        cases options : readOptions environment invocation.config with
        | error failure => rfl
        | ok options =>
            cases source : invocation.command.source environment with
            | error failure => rfl
            | ok records => simp [options,source] at failed
  · intro invocation accepted
    rw [run_accepted accepted]
    simp only [← readOptions_exact,← source_exact]
    cases readOptions environment invocation.config with
    | error failure => simp
    | ok options => cases invocation.command.source environment <;> simp

def absentArguments : List Text :=
  ["--config".toList,['c'],"match".toList,"--records".toList,['r'],"a:b".toList]

-- Neither file is there, and only one of them is reported.
theorem run_fails_exact_both :
    read absentArguments = .ok ⟨.select ['r'],some ['c'],false,["a:b".toList]⟩ ∧
      RecordsFail (fileless .empty) (.select ['r']) (.unreadableRecords (some ['r'])) ∧
      (run (fileless .empty) absentArguments).exitCode = 1 ∧ (run (fileless .empty) absentArguments).output = [] ∧
      (run (fileless .empty) absentArguments).failure = some (.unreadableConfig ['c']) := by
  have accepted : read absentArguments = .ok ⟨.select ['r'],some ['c'],false,["a:b".toList]⟩ := rfl
  have missing : ∀ path text, ¬Readable ((fileless .empty).file? path) text := by
    rintro path text ⟨_,⟨⟩,_⟩
  have config : ConfigFails (fileless .empty) (some ['c']) (.unreadableConfig ['c']) :=
    ⟨['c'],rfl,.unreadable (missing _)⟩
  have records : RecordsFail (fileless .empty) (.select ['r']) (.unreadableRecords (some ['r'])) :=
    ⟨['r'],rfl,.unreadable (missing _)⟩
  obtain ⟨silent,behind⟩ := run_fails_exact (fileless .empty) absentArguments
  obtain ⟨_,code,failure⟩ := behind _ accepted
  have one := code.mpr (.inl ⟨_,config⟩)
  exact ⟨accepted,records,one,silent (by rw [one]; exact Nat.one_ne_zero),(failure _).mpr (.inl config)⟩

-- The grammar has this as an array of objects. Its number lies beyond the range of the reader.
def overflowing : Text := "[\x7b\"a\":1e999\x7d]".toList

def overflowingTree : Json.Tree := .array [.object [(some ['a'],.number ⟨false,['1'],[],some (false,"999".toList)⟩)]]

theorem overflowing_read : Json.read? overflowing = some overflowingTree := by
  have number : Json.takeTree "1e999\x7d]".toList =
      some (.number ⟨false,['1'],[],some (false,"999".toList)⟩,"\x7d]".toList) := by cbv
  have named : Json.takeString "a\":1e999\x7d]".toList = some (some ['a'],":1e999\x7d]".toList) := by cbv
  have members : Json.takeMembers "\"a\":1e999\x7d]".toList =
      some ([(some ['a'],.number ⟨false,['1'],[],some (false,"999".toList)⟩)],"]".toList) :=
    Json.takeMembers_last rfl named rfl number rfl
  have object := (Json.takeTree_object (by intro t closed; cases closed)).trans (congrArg _ members)
  have array := (Json.takeTree_array (by intro t closed; cases closed)).trans
    (congrArg _ (Json.takeItems_last object rfl))
  have whole : Json.takeTree overflowing = some (overflowingTree,[]) := array
  rw [Json.read?,whole]
  rfl

theorem run_fails_on_overflow :
    read ["match".toList,"b:x".toList] = .ok ⟨.select ['-'],none,false,["b:x".toList]⟩ ∧
      Readable (recordsBytes? (fileless (String.ofList overflowing).toUTF8) ['-']) overflowing ∧
      Json.read? overflowing =
        some (.array [.object [(some ['a'],.number ⟨false,['1'],[],some (false,"999".toList)⟩)]]) ∧
      (run (fileless (String.ofList overflowing).toUTF8) ["match".toList,"b:x".toList]).exitCode = 1 := by
  have accepted : read ["match".toList,"b:x".toList] = .ok ⟨.select ['-'],none,false,["b:x".toList]⟩ := rfl
  have readable : Readable (recordsBytes? (fileless (String.ofList overflowing).toUTF8) ['-']) overflowing :=
    ⟨_,rfl,rfl⟩
  have refused : Json.records? overflowing = none := by
    rw [Json.records?,overflowing_read]
    rfl
  have source : Command.source (fileless (String.ofList overflowing).toUTF8) (.select ['-']) =
      .error .invalidRecords := by
    rw [Command.source,readRecords_path,readAs,(readable_exact _).mpr readable]
    simp only [refused]
  refine ⟨accepted,readable,overflowing_read,?_⟩
  rw [run_accepted accepted]
  simp only [readOptions,source]

end FieldedSearch.CommandLine
