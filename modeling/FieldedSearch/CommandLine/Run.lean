import FieldedSearch.CommandLine.Arguments
import FieldedSearch.Filter
import FieldedSearch.History
import FieldedSearch.Json.Records
import FieldedSearch.Options.Config

namespace FieldedSearch.CommandLine

structure Environment where
  -- Nothing for what cannot be read.
  file? : Text → Option ByteArray
  input : ByteArray
  dates : DateContext
  engine : Engine
  help : Text

inductive Failure where
  | unreadableConfig (path : Text)
  | invalidConfig (path : Text)
  -- Without a path, standard input.
  | unreadableRecords (path : Option Text)
  | invalidRecords
  deriving DecidableEq, Repr

def Failure.message : Failure → Text
  | .unreadableConfig path => "Failed to read config ".toList ++ path
  | .invalidConfig path => "Invalid config ".toList ++ path
  | .unreadableRecords (some path) => "Failed to read records from ".toList ++ path
  | .unreadableRecords none => "Failed to read records from stdin".toList
  | .invalidRecords => "Records must be a JSON array of objects".toList

structure Outcome where
  exitCode : Nat
  output : Text
  -- Its first line is `Error: ` and the message.
  failure : Option Failure

def Failure.report (failure : Failure) : Text := "Error: ".toList ++ failure.message

def decode? (bytes : ByteArray) : Option Text := (String.fromUTF8? bytes).map String.toList

def configText? (environment : Environment) (path : Text) : Option Text := (environment.file? path).bind decode?

def readOptions (environment : Environment) : Option Text → Except Failure Options
  | none => .ok .defaults
  | some path =>
      match configText? environment path with
      | none => .error (.unreadableConfig path)
      | some text =>
          match Config.read? text with
          | none => .error (.invalidConfig path)
          | some options => .ok options

def splitAtSlash : Text → List Text
  | [] => [[]]
  | c :: r =>
      match splitAtSlash r with
      | [] => [[c]]
      | first :: others => if c = '/' then [] :: first :: others else (c :: first) :: others

-- A dash, and the spellings of it that differ in empty path components only.
def isInputPath (path : Text) : Bool :=
  match splitAtSlash path with
  | ['-'] :: others => others.all fun component => component.isEmpty || component = ['.']
  | _ => false

def recordsText? (environment : Environment) (path : Text) : Option Text :=
  (if isInputPath path then some environment.input else environment.file? path).bind decode?

def readRecords (environment : Environment) (path : Text) : Except Failure (List Json.Members) :=
  match recordsText? environment path with
  | none => .error (.unreadableRecords (if isInputPath path then none else some path))
  | some text =>
      match Json.records? text with
      | none => .error .invalidRecords
      | some records => .ok records

def ruleJson (rule : Rule) : Json :=
  .object (rule.fields.map fun f => (f.name,.array (f.values.map .string)))

def lines (texts : List Text) : Text := texts.flatMap fun s => s ++ ['\n']

-- The state is the output so far. A failure leaves it as it is, so what was printed stays printed.
abbrev Printing := ExceptT Failure (StateM Text)

def printLine (s : Text) : Printing Unit := modify fun output => output ++ lines [s]

def perform (environment : Environment) (options : Options) (rules : List Rule) : Command → Printing Unit
  | .parse => printLine ((Json.array (rules.map ruleJson)).indented 0)
  | .select path => do
      let records ← MonadExcept.ofExcept (readRecords environment path)
      records.forM fun members => do
        if (Json.record members).satisfiesAny environment.engine options.matching rules then printLine (Json.object members).written
  | .history => rules.forM fun rule => printLine (History.ofRule options.history environment.dates rule)
  | .filter => rules.forM fun rule => printLine (Filter.ofRule options.filter rule)

def execute (environment : Environment) (invocation : Invocation) : Printing Unit := do
  let options ← MonadExcept.ofExcept (readOptions environment invocation.config)
  perform environment options (Rule.parseAll invocation.allowEmpty invocation.queries) invocation.command

def run (environment : Environment) (arguments : List Text) : Outcome :=
  match read arguments with
  | .error .help => ⟨0,environment.help,none⟩
  | .error _ => ⟨2,[],none⟩
  | .ok invocation =>
      match ((execute environment invocation).run.run []).run with
      | (.error failure,output) => ⟨1,output,some failure⟩
      | (.ok _,output) => ⟨0,output,none⟩

-- The paths that a run looks at, so that they can be read beforehand.
def paths (arguments : List Text) : List Text :=
  match read arguments with
  | .error _ => []
  | .ok invocation =>
      invocation.config.toList ++
        match invocation.command with
        | .select path => [path]
        | _ => []

end FieldedSearch.CommandLine
