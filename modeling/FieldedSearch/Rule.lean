import FieldedSearch.Clause

namespace FieldedSearch

-- A field exists because a value was written for it, so the first value needs no test.
structure Field where
  name : Text
  first : Text
  more : List Text
  deriving DecidableEq, Repr

def Field.values (f : Field) : List Text := f.first :: f.more

-- Names keep their spelling and the order of their first use.
structure Rule where
  fields : List Field
  distinct : (fields.map Field.name).Nodup
  deriving DecidableEq

def textField : Text := "text".toList

namespace Rule

def empty : Rule := ⟨[],List.nodup_nil⟩

def addValue (name value : Text) : List Field → List Field
  | [] => [⟨name,value,[]⟩]
  | f :: r =>
      if f.name = name then ⟨f.name,f.first,f.more ++ [value]⟩ :: r else f :: addValue name value r

theorem addValue_names (name value : Text) (fields : List Field) :
    (addValue name value fields).map Field.name =
      if name ∈ fields.map Field.name then fields.map Field.name else fields.map Field.name ++ [name] := by
  induction fields with
  | nil => simp [addValue]
  | cons f r ih =>
      by_cases same : f.name = name
      · simp [addValue,same]
      · have other : ¬name = f.name := fun h => same h.symm
        simp only [addValue,same,if_false,List.map_cons,ih,List.mem_cons,other,false_or]
        split <;> simp

def push (rule : Rule) (name value : Text) : Rule where
  fields := addValue name value rule.fields
  distinct := by
    rw [addValue_names]
    split
    · exact rule.distinct
    · next fresh =>
        rw [List.nodup_append]
        refine ⟨rule.distinct,by simp,?_⟩
        intro a known b new
        rw [List.mem_singleton] at new
        subst new
        exact fun same => fresh (same ▸ known)

def ofPairs (pairs : List (Text × Text)) : Rule :=
  pairs.foldl (fun rule (name,value) => rule.push name value) empty

-- Exact names. Folding them is the business of whoever uses the rule.
def get? (rule : Rule) (name : Text) : Option (List Text) :=
  (rule.fields.find? fun f => f.name = name).map Field.values

def first? (rule : Rule) (name : Text) : Option Text :=
  (rule.fields.find? fun f => f.name = name).map Field.first

def contains (rule : Rule) (name : Text) : Bool := (rule.get? name).isSome

def size (rule : Rule) : Nat := rule.fields.length

def isEmpty (rule : Rule) : Bool := rule.fields.isEmpty

def surviving? (allowEmpty : Bool) (clause : Clause) : Option (Text × Text) :=
  if clause.value.isEmpty && !allowEmpty then none else some (clause.field.getD textField,clause.value)

def parse? (allowEmpty : Bool) (query : Text) : Option Rule :=
  let rule := ofPairs ((Clause.scan query).filterMap (surviving? allowEmpty))
  if rule.isEmpty then none else some rule

-- A query in which nothing survives gives no rule, so positions may shift.
def parseAll (allowEmpty : Bool) (queries : List Text) : List Rule :=
  queries.filterMap (parse? allowEmpty)

end Rule
end FieldedSearch
