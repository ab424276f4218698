import FieldedSearch.Json.Written
import FieldedSearch.Record

namespace FieldedSearch.Json

abbrev Members := List (Text × Json)

def members? : Json → Option Members
  | .object members => some members
  | _ => none

def records? (s : Text) : Option (List Members) :=
  match (read? s).bind (ofTree? depthLimit) with
  | some (.array items) => items.mapM members?
  | _ => none

-- Null, lists and objects have no text, so no value matches them.
def fieldText? : Json → Option Text
  | .string s => some s
  | .number value => some value.text
  | .bool true => some "true".toList
  | .bool false => some "false".toList
  | _ => none

def record (members : Members) : Record :=
  members.filterMap fun (name,value) => (fieldText? value).map fun text => (name,text)

end FieldedSearch.Json
