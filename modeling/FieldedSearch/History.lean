import FieldedSearch.History.DateBound
import FieldedSearch.History.Pattern
import FieldedSearch.Options
import FieldedSearch.Rule

namespace FieldedSearch.History

inductive Argument where
  | ignoreCase
  | allMatch
  | extended
  | author (pattern : Text)
  | grep (pattern : Text)
  -- Left as written, for the search itself to understand.
  | before (text : Text)
  | after (text : Text)
  | date (bound : DateBound)
  deriving DecidableEq

-- Double quoted for a command line. Inside, only the double quote is protected.
def quote (s : Text) : Text := '"' :: s.substitute '"' "\\\"".toList ++ ['"']

def DateBound.text : DateBound → Text
  | .after day => "--after=".toList ++ day.text
  | .before day => "--before=".toList ++ day.text
  | .fromStart day => "--after=".toList ++ quote (day.text ++ " 00:00:00".toList)
  | .toEnd day => "--before=".toList ++ quote (day.text ++ " 23:59:59".toList)

def Argument.text : Argument → Text
  | .ignoreCase => "-i".toList
  | .allMatch => "--all-match".toList
  | .extended => "-E".toList
  | .author pattern => "--author=".toList ++ quote pattern
  | .grep pattern => "--grep=".toList ++ quote pattern
  | .before text => "--before=".toList ++ quote text
  | .after text => "--after=".toList ++ quote text
  | .date bound => bound.text

inductive Role where
  | author
  | date
  | before
  | after
  | action
  | text
  | trailer
  deriving DecidableEq, Repr

inductive ActionPart where
  | pair
  | action
  | scope
  | id
  deriving DecidableEq, Repr

def actionPart? (name : Text) : Option ActionPart :=
  if name = "vp-action".toList then some .pair
  else if name = "action".toList then some .action
  else if name = "entity".toList || name = "scope".toList then some .scope
  else if name = "vpid".toList then some .id
  else none

def role (name : Text) : Role :=
  if name = "author".toList then .author
  else if name = "date".toList then .date
  else if name = "before".toList then .before
  else if name = "after".toList then .after
  else if (actionPart? name).isSome then .action
  else if name = "text".toList then .text
  else .trailer

-- An unqualified action may also be written as a pair `scope/action`.
def valuePart (part : ActionPart) (value : Text) : ActionPart :=
  if part = .action && value.contains '/' then .pair else part

def actionValues (case : CaseMode) (rule : Rule) (part : ActionPart) : List Text :=
  rule.fields.flatMap fun f =>
    match actionPart? (case.apply f.name) with
    | some own => f.values.filter fun value => valuePart own value = part
    | none => []

-- Pairs stand by themselves. Separate scopes and actions make a pattern of their own, and both have to match.
def actionHeads (pairs scopes actions : List Text) : List Text :=
  (if pairs.isEmpty then [] else [anyOf pairs]) ++
    (if pairs.isEmpty || !scopes.isEmpty || !actions.isEmpty then [anyOf scopes ++ '/' :: anyOf actions] else [])

def actionPattern (ids : List Text) (head : Text) : Text :=
  let id := if ids.isEmpty then "(/.*)?".toList else '/' :: anyOf ids
  "^VP-Action: ".toList ++ head ++ id ++ ['$']

def actionArguments (case : CaseMode) (rule : Rule) : List Argument :=
  let values := actionValues case rule
  (actionHeads (values .pair) (values .scope) (values .action)).map fun head =>
    .grep (actionPattern (values .id) head)

def fieldArguments (context : DateContext) (name : Text) (values : List Text) : Role → List Argument
  | .author => values.map fun value => .author (authorPattern value)
  | .date => values.flatMap fun value => (DateBound.ofValue context value).map .date
  | .before => values.map .before
  | .after => values.map .after
  | .text => values.map .grep
  | .trailer => [.grep (trailerPattern name values)]
  | .action => []

-- The first field of the action family stands for them all.
def ruleArguments (case : CaseMode) (context : DateContext) (actions : List Argument) : List Field → List Argument
  | [] => []
  | f :: r =>
      let name := case.apply f.name
      if role name = .action then actions ++ ruleArguments case context [] r
      else fieldArguments context name f.values (role name) ++ ruleArguments case context actions r

def arguments (options : HistoryOptions) (context : DateContext) (rule : Rule) : List Argument :=
  (if options.ignoreCase then [.ignoreCase] else []) ++ [.allMatch,.extended] ++
    ruleArguments options.case context (actionArguments options.case rule) rule.fields

def text (arguments : List Argument) : Text := Text.join [' '] (arguments.map Argument.text)

def ofRule (options : HistoryOptions) (context : DateContext) (rule : Rule) : Text :=
  text (arguments options context rule)

end FieldedSearch.History
