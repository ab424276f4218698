import FieldedSearch.Json.Number

namespace FieldedSearch

inductive Json where
  | null
  | bool (value : Bool)
  | number (value : Json.Number)
  | string (text : Text)
  | array (items : List Json)
  | object (members : List (Text × Json))

namespace Json

-- By code points.
def keyBefore : Text → Text → Bool
  | [],[] => false
  | [],_ :: _ => true
  | _ :: _,[] => false
  | c :: r,d :: s => c.toNat < d.toNat || (c = d && keyBefore r s)

-- A key that is there already takes the new value.
def setMember (key : Text) (value : Json) : List (Text × Json) → List (Text × Json)
  | [] => [(key,value)]
  | (other,old) :: r =>
      if key = other then (key,value) :: r
      else if keyBefore key other then (key,value) :: (other,old) :: r
      else (other,old) :: setMember key value r

-- Arrays and objects may stand in each other this many levels deep.
def depthLimit : Nat := 127

mutual

-- Refuses numbers beyond the range, half surrogate pairs and what lies too deep.
def ofTree? (depth : Nat) : Tree → Option Json
  | .null => some .null
  | .bool value => some (.bool value)
  | .number literal => (Number.ofLiteral? literal).map .number
  | .string text => text.map .string
  | .array items => if depth = 0 then none else (ofItems? (depth - 1) items).map .array
  | .object members => if depth = 0 then none else (ofMembers? (depth - 1) [] members).map .object

def ofItems? (depth : Nat) : List Tree → Option (List Json)
  | [] => some []
  | item :: r => do
      let value ← ofTree? depth item
      let rest ← ofItems? depth r
      some (value :: rest)

def ofMembers? (depth : Nat) (known : List (Text × Json)) : List (Option Text × Tree) → Option (List (Text × Json))
  | [] => some known
  | (key,tree) :: r => do
      let key ← key
      let value ← ofTree? depth tree
      ofMembers? depth (setMember key value known) r

end

end Json
end FieldedSearch
