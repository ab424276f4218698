import FieldedSearch.Json.Value
import FieldedSearch.Options

namespace FieldedSearch

open Json (Tree)

def CaseMode.ofName? (s : Text) : Option CaseMode :=
  if s = CaseMode.fold.name then some .fold else if s = CaseMode.preserve.name then some .preserve else none

namespace Config

-- The trees given for the named settings. A known key may appear once, every key has to be a text.
def settings? (names : List Text) : Tree → Option (List (Option Tree))
  | .array items =>
      if items.length ≤ names.length then some (names.zipIdx.map fun (_,position) => items[position]?) else none
  | .object members =>
      if members.all fun (key,_) => key.isSome then
        names.mapM fun name =>
          match members.filter fun (key,_) => key = some name with
          | [] => some none
          | [(_,tree)] => some (some tree)
          | _ => none
      else none
  | _ => none

def case? : Tree → Option CaseMode
  | .string (some s) => CaseMode.ofName? s
  | .object [(some s,.null)] => CaseMode.ofName? s
  | _ => none

def flag? : Tree → Option Bool
  | .bool value => some value
  | _ => none

def orDefault {α : Type} (default : α) (read? : Tree → Option α) : Option Tree → Option α
  | none => some default
  | some tree => read? tree

def caseKey : Text := "case".toList

def caseGroup? (default : CaseMode) (tree : Tree) : Option CaseMode :=
  match settings? [caseKey] tree with
  | some [case] => orDefault default case? case
  | _ => none

def history? (default : HistoryOptions) (tree : Tree) : Option HistoryOptions :=
  match settings? [caseKey,"case_insensitive_flag".toList] tree with
  | some [case,ignoreCase] => do
      let case ← orDefault default.case case? case
      let ignoreCase ← orDefault default.ignoreCase flag? ignoreCase
      some ⟨case,ignoreCase⟩
  | _ => none

def options? (tree : Tree) : Option Options :=
  match settings? ["matcher".toList,"history".toList,"restriction".toList] tree with
  | some [matching,history,filter] => do
      let matching ← orDefault Options.defaults.matching (caseGroup? Options.defaults.matching) matching
      let history ← orDefault Options.defaults.history (history? Options.defaults.history) history
      let filter ← orDefault Options.defaults.filter (caseGroup? Options.defaults.filter) filter
      some ⟨matching,history,filter⟩
  | _ => none

def read? (s : Text) : Option Options := (Json.read? s).bind options?

def json (options : Options) : Json :=
  let case (mode : CaseMode) : Text × Json := (caseKey,.string mode.name)
  .object [("matcher".toList,.object [case options.matching]),
    ("history".toList,.object [case options.history.case,
      ("case_insensitive_flag".toList,.bool options.history.ignoreCase)]),
    ("restriction".toList,.object [case options.filter])]

end Config
end FieldedSearch
