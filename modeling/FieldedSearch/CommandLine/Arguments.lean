import FieldedSearch.Text

namespace FieldedSearch.CommandLine

inductive Command where
  | parse
  | select (records : Text)
  | history
  | filter
  deriving DecidableEq, Repr

structure Invocation where
  command : Command
  config : Option Text
  allowEmpty : Bool
  queries : List Text
  deriving DecidableEq, Repr

inductive UsageError where
  | unknownArgument
  | missingQuery
  | unknownCommand
  | missingCommand
  | missingValue
  | repeatedArgument
  | valueForFlag
  | help
  | nothing
  deriving DecidableEq, Repr

inductive Name where
  | parse
  | select
  | history
  | filter
  | help
  deriving DecidableEq, Repr

def Name.read? (s : Text) : Option Name :=
  if s = "parse".toList then some .parse
  else if s = "match".toList then some .select
  else if s = "history".toList then some .history
  else if s = "restriction".toList then some .filter
  else if s = "help".toList then some .help
  else none

inductive Slot where
  | config
  | records
  deriving DecidableEq, Repr

inductive Form where
  | escape
  | long (name : Text) (value : Option Text)
  | short (flags : Text)
  | plain
  deriving DecidableEq, Repr

def Form.of (s : Text) : Form :=
  match s with
  | ['-','-'] => .escape
  | '-' :: '-' :: r =>
      match Text.splitOnce ['='] r with
      | some (name,value) => .long name (some value)
      | none => .long r none
  | '-' :: c :: r => .short (c :: r)
  | _ => .plain

inductive Meaning where
  | slot (slot : Slot)
  | allowEmpty
  | help
  deriving DecidableEq, Repr

def meaning? (command : Option Name) (name : Text) : Option Meaning :=
  if name = "config".toList then some (.slot .config)
  else if name = "help".toList then some .help
  else if name = "records".toList && command = some .select then some (.slot .records)
  else if name = "allow-empty".toList && command.isSome then some .allowEmpty
  else none

structure State where
  config : Option Text
  records : Option Text
  allowEmpty : Bool
  queries : List Text
  -- The last option, with the value that it has got. It is checked when the next known argument, or the end, shows that
  -- it is complete, so of two mistakes the later one may be reported.
  pending : Option (Slot × Option Text)
  deriving DecidableEq, Repr

namespace State

def start : State := ⟨none,none,false,[],none⟩

def value? (state : State) : Slot → Option Text
  | .config => state.config
  | .records => state.records

def set (state : State) (value : Text) : Slot → State
  | .config => { state with config := some value }
  | .records => { state with records := some value }

def store (state : State) (slot : Slot) (value : Option Text) : Except UsageError State :=
  match value with
  | none => .error .missingValue
  | some value =>
      if (state.value? slot).isSome then .error .repeatedArgument
      else if value.isEmpty then .error .missingValue
      else .ok (state.set value slot)

def settle (state : State) : Except UsageError State :=
  match state.pending with
  | none => .ok state
  | some (slot,value) => { state with pending := none }.store slot value

def awaits (state : State) : Bool := state.pending.any fun (_,value) => value.isNone

def give (state : State) (value : Text) : State :=
  { state with pending := state.pending.map fun (slot,_) => (slot,some value) }

def takeOption (state : State) (value : Option Text) : Meaning → Except UsageError State
  | .slot slot => do
      let state ← state.settle
      match value with
      | some value => state.store slot (some value)
      | none => .ok { state with pending := some (slot,none) }
  | .allowEmpty => do
      if value.isSome then throw .valueForFlag
      let state ← state.settle
      if state.allowEmpty then throw .repeatedArgument
      .ok { state with allowEmpty := true }
  | .help => do
      if value.isSome then throw .valueForFlag
      let _ ← state.settle
      throw .help

def takeLong (state : State) (command : Option Name) (name : Text) (value : Option Text) : Except UsageError State :=
  match meaning? command name with
  | some meaning => state.takeOption value meaning
  | none => .error .unknownArgument

def takeShort (state : State) (flags : Text) : Except UsageError State :=
  if flags.head? = some 'h' then state.takeOption none .help else .error .unknownArgument

def takeQuery (state : State) (query : Text) : Except UsageError State := do
  let state ← state.settle
  .ok { state with queries := state.queries ++ [query] }

-- After `--` everything is a query.
def takeQueries (state : State) (queries : List Text) : Except UsageError State := queries.foldlM takeQuery state

def takeAll (command : Name) (state : State) : List Text → Except UsageError State
  | [] => do
      let state ← state.settle
      if state.queries.isEmpty then throw .missingQuery
      .ok state
  | s :: r =>
      match Form.of s with
      | .escape => do
          let state ← state.takeQueries r
          let state ← state.settle
          if state.queries.isEmpty then throw .missingQuery
          .ok state
      | .long name value => do
          let state ← state.takeLong (some command) name value
          takeAll command state r
      | .short flags => do
          let state ← state.takeShort flags
          takeAll command state r
      | .plain =>
          if state.awaits then takeAll command (state.give s) r
          else do
            let state ← state.takeQuery s
            takeAll command state r

end State

def help : List Text → UsageError
  | [] => .help
  | [name] => if (Name.read? name).isSome then .help else .unknownCommand
  | _ :: _ :: _ => .unknownCommand

def invocation (command : Name) (outer inner : State) : Except UsageError Invocation :=
  let config := inner.config.or outer.config
  match command with
  | .parse => .ok ⟨.parse,config,inner.allowEmpty,inner.queries⟩
  | .select => .ok ⟨.select (inner.records.getD ['-']),config,inner.allowEmpty,inner.queries⟩
  | .history => .ok ⟨.history,config,inner.allowEmpty,inner.queries⟩
  | .filter => .ok ⟨.filter,config,inner.allowEmpty,inner.queries⟩
  | .help => .error .help

-- The option in front of the command is the last thing to be checked, the one behind it wins.
def enter (command : Name) (outer : State) (arguments : List Text) : Except UsageError Invocation :=
  if command = .help then .error (help arguments)
  else do
    let inner ← State.start.takeAll command arguments
    let outer ← outer.settle
    invocation command outer inner

def takeCommand (outer : State) : List Text → Except UsageError Invocation
  | [] => do
      let outer ← outer.settle
      throw (if outer.config.isSome then .missingCommand else .nothing)
  | s :: r =>
      match if outer.awaits then none else Name.read? s with
      | some command => enter command outer r
      | none =>
          match Form.of s with
          | .escape =>
              match r with
              | [] => do
                  let outer ← outer.settle
                  throw (if outer.config.isSome then .missingCommand else .nothing)
              | next :: _ => .error (if (Name.read? next).isSome then .unknownArgument else .unknownCommand)
          | .long name value => do
              let outer ← outer.takeLong none name value
              takeCommand outer r
          | .short flags => do
              let outer ← outer.takeShort flags
              takeCommand outer r
          | .plain => if outer.awaits then takeCommand (outer.give s) r else .error .unknownCommand

def read (arguments : List Text) : Except UsageError Invocation := takeCommand .start arguments

end FieldedSearch.CommandLine
