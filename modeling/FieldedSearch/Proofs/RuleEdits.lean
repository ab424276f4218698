import FieldedSearch.Proofs.Grouping

namespace FieldedSearch.Rule

variable {rule : Rule} {pushed earlier : List (Text × Text)}

def valuesOf (name : Text) (pushed : List (Text × Text)) : List Text :=
  (pushed.filter fun pair => pair.1 = name).map Prod.snd

-- A name without values is no field.
def listed? (values : List Text) : Option (List Text) := if values.isEmpty then none else some values

structure Groups (rule : Rule) (pushed : List (Text × Text)) : Prop where
  distinct : (rule.fields.map Field.name).Nodup
  names : rule.fields.map Field.name = (pushed.map Prod.fst).eraseDups
  values : ∀ f ∈ rule.fields, f.values ≠ [] ∧ f.values = valuesOf f.name pushed
  get : ∀ name, rule.get? name = listed? (valuesOf name pushed)
  first : ∀ name, rule.first? name = (valuesOf name pushed).head?
  contains : ∀ name, rule.contains name = true ↔ name ∈ pushed.map Prod.fst
  size : rule.size = (pushed.map Prod.fst).eraseDups.length
  isEmpty : rule.isEmpty = true ↔ pushed = []

theorem valuesOf_append (name : Text) (earlier later : List (Text × Text)) :
    valuesOf name (earlier ++ later) = valuesOf name earlier ++ valuesOf name later := by
  rw [valuesOf,List.filter_append,List.map_append]
  rfl

theorem valuesOf_filled (name : Text) (pushed : List (Text × Text)) :
    valuesOf name pushed ≠ [] ↔ name ∈ pushed.map Prod.fst := by
  simp [valuesOf,List.filter_eq_nil_iff]

theorem listed?_append (values : List Text) (value : Text) :
    listed? (values ++ [value]) = some (values ++ [value]) := by
  cases values <;> rfl

theorem listed?_getD (values : List Text) : (listed? values).getD [] = values := by
  cases values <;> rfl

theorem listed?_head (values : List Text) : (listed? values).bind List.head? = values.head? := by
  cases values <;> rfl

theorem listed?_isSome (values : List Text) : (listed? values).isSome = true ↔ values ≠ [] := by
  cases values <;> simp [listed?]

theorem eraseDups_eq_nil (names : List Text) : names.eraseDups = [] ↔ names = [] := by
  cases names with
  | nil => simp
  | cons name r => simp [List.eraseDups_cons]

theorem eraseDups_append_one (names : List Text) (name : Text) :
    (names ++ [name]).eraseDups = if name ∈ names then names.eraseDups else names.eraseDups ++ [name] := by
  rw [List.eraseDups_append]
  split
  · next known => simp [List.removeAll,known]
  · next fresh => simp [List.removeAll,fresh,List.eraseDups_cons]

theorem get?_push (rule : Rule) (name value other : Text) : (rule.push name value).get? other =
    if name = other then some ((rule.get? other).getD [] ++ [value]) else rule.get? other := by
  simp only [get?,push]
  induction rule.fields with
  | nil => by_cases same : name = other <;> simp [addValue,same,Field.values]
  | cons f r ih =>
      by_cases known : f.name = name
      · subst known
        by_cases same : f.name = other <;> simp [addValue,same,Field.values]
      · by_cases found : f.name = other
        · subst found
          simp [addValue,known,Ne.symm known]
        · simp [addValue,known,found,ih]

theorem get?_field {f : Field} (member : f ∈ rule.fields) : rule.get? f.name = some f.values := by
  have distinct := rule.distinct
  unfold get?
  generalize rule.fields = fields at member distinct
  induction fields with
  | nil => cases member
  | cons g r ih =>
      rw [List.map_cons,List.nodup_cons] at distinct
      rcases List.mem_cons.mp member with rfl | later
      · simp
      · have other : g.name ≠ f.name := fun same => distinct.1 (same ▸ List.mem_map_of_mem later)
        simpa [other] using ih later distinct.2

theorem first?_get? (rule : Rule) (name : Text) : rule.first? name = (rule.get? name).bind List.head? := by
  rw [first?,get?]
  cases rule.fields.find? fun f => f.name = name <;> rfl

theorem groups_of (names : rule.fields.map Field.name = (pushed.map Prod.fst).eraseDups)
    (get : ∀ name, rule.get? name = listed? (valuesOf name pushed)) : Groups rule pushed where
  distinct := rule.distinct
  names := names
  values := by
    intro f member
    have filled : f.values ≠ [] := List.cons_ne_nil _ _
    have found := (get?_field member).symm.trans (get f.name)
    rw [listed?] at found
    split at found
    · cases found
    · exact ⟨filled,Option.some.inj found⟩
  get := get
  first := by
    intro name
    rw [first?_get?,get,listed?_head]
  contains := by
    intro name
    rw [contains,get,listed?_isSome,valuesOf_filled]
  size := by rw [← names,List.length_map,size]
  isEmpty := by
    rw [← List.map_eq_nil_iff (f := Prod.fst),← eraseDups_eq_nil,← names,List.map_eq_nil_iff,isEmpty,List.isEmpty_iff]

theorem push_groups (groups : Groups rule earlier) (name value : Text) :
    Groups (rule.push name value) (earlier ++ [(name,value)]) := by
  refine groups_of ?_ ?_
  · rw [List.map_append,List.map_singleton,eraseDups_append_one]
    simp only [push,addValue_names,groups.names,List.mem_eraseDups]
  · intro other
    rw [get?_push,groups.get,valuesOf_append]
    split
    · next same =>
        have pushed : valuesOf other [(name,value)] = [value] := by simp [valuesOf,same]
        rw [listed?_getD,pushed,listed?_append]
    · next apart =>
        have nothing : valuesOf other [(name,value)] = [] := by simp [valuesOf,apart]
        rw [nothing,List.append_nil]

theorem empty_groups : Groups empty [] := groups_of rfl fun _ => rfl

theorem foldl_groups (groups : Groups rule earlier) (pushed : List (Text × Text)) :
    Groups (pushed.foldl (fun rule (name,value) => rule.push name value) rule) (earlier ++ pushed) := by
  induction pushed generalizing rule earlier with
  | nil => rwa [List.append_nil]
  | cons p r ih =>
      have step := ih (push_groups groups p.1 p.2)
      rwa [List.append_assoc,List.singleton_append] at step

theorem ofPairs_groups (pushed : List (Text × Text)) : Groups (ofPairs pushed) pushed := foldl_groups empty_groups pushed

def survives (allowEmpty : Bool) (clause : Clause) : Bool := allowEmpty || !clause.value.isEmpty
def label (clause : Clause) : Text := clause.field.getD textField

def keptClauses (allowEmpty : Bool) (query : Text) : List Clause := (Clause.scan query).filter (survives allowEmpty)

def labelledValues (name : Text) (clauses : List Clause) : List Text :=
  (clauses.filter fun clause => label clause = name).map Clause.value

theorem surviving?_exact (allowEmpty : Bool) (clause : Clause) : surviving? allowEmpty clause =
    if survives allowEmpty clause then some (label clause,clause.value) else none := by
  rw [surviving?,survives,label]
  cases allowEmpty <;> cases clause.value.isEmpty <;> rfl

theorem filterMap_surviving (allowEmpty : Bool) (clauses : List Clause) :
    clauses.filterMap (surviving? allowEmpty) =
      (clauses.filter (survives allowEmpty)).map fun clause => (label clause,clause.value) := by
  induction clauses with
  | nil => rfl
  | cons clause r ih =>
      rw [List.filterMap_cons,List.filter_cons,surviving?_exact]
      cases survives allowEmpty clause with
      | false => exact ih
      | true => exact congrArg (List.cons _) ih

theorem valuesOf_labelled (name : Text) (clauses : List Clause) :
    valuesOf name (clauses.map fun clause => (label clause,clause.value)) = labelledValues name clauses := by
  simp [valuesOf,labelledValues,List.filter_map,Function.comp_def]

def keptPairs (allowEmpty : Bool) (query : Text) : List (Text × Text) :=
  (keptClauses allowEmpty query).map fun clause => (label clause,clause.value)

theorem parse?_pairs (allowEmpty : Bool) (query : Text) : parse? allowEmpty query =
    if (keptClauses allowEmpty query).isEmpty then none else some (ofPairs (keptPairs allowEmpty query)) := by
  have pushed : (Clause.scan query).filterMap (surviving? allowEmpty) = keptPairs allowEmpty query :=
    filterMap_surviving allowEmpty _
  have nothing : (ofPairs (keptPairs allowEmpty query)).isEmpty = (keptClauses allowEmpty query).isEmpty := by
    rw [Bool.eq_iff_iff,(ofPairs_groups _).isEmpty,keptPairs,List.map_eq_nil_iff,List.isEmpty_iff]
  simp only [parse?,pushed,nothing]

inductive Edit where
  | push (name value : Text)
  | clear
  -- A query in which nothing survives leaves an empty rule.
  | parse (allowEmpty : Bool) (query : Text)

def Edit.apply (rule : Rule) : Edit → Rule
  | .push name value => rule.push name value
  | .clear => empty
  | .parse allowEmpty query => (parse? allowEmpty query).getD empty

-- The pushes since the rule was last reset. A query resets it and pushes what survives.
def Edit.pushes (earlier : List (Text × Text)) : Edit → List (Text × Text)
  | .push name value => earlier ++ [(name,value)]
  | .clear => []
  | .parse allowEmpty query => keptPairs allowEmpty query

def edited (edits : List Edit) : Rule := edits.foldl Edit.apply empty

def pushesOf (edits : List Edit) : List (Text × Text) := edits.foldl Edit.pushes []

theorem Edit.apply_groups (groups : Groups rule earlier) (edit : Edit) :
    Groups (edit.apply rule) (edit.pushes earlier) := by
  cases edit with
  | push name value => exact push_groups groups name value
  | clear => exact empty_groups
  | parse allowEmpty query =>
      rw [apply,parse?_pairs,pushes,keptPairs]
      split
      · next nothing =>
          rw [List.isEmpty_iff.mp nothing]
          exact empty_groups
      · exact ofPairs_groups _

theorem edits_groups (groups : Groups rule earlier) (edits : List Edit) :
    Groups (edits.foldl Edit.apply rule) (edits.foldl Edit.pushes earlier) := by
  induction edits generalizing rule earlier with
  | nil => exact groups
  | cons edit later ih => exact ih (edit.apply_groups groups)

def found (rule? : Option Rule) (name : Text) : Option (List Text) := rule?.bind fun rule => rule.get? name

theorem found_parse? (allowEmpty : Bool) (query name : Text) :
    found (parse? allowEmpty query) name = listed? (labelledValues name (keptClauses allowEmpty query)) := by
  rw [found,parse?_pairs]
  split
  · next nothing =>
      rw [List.isEmpty_iff.mp nothing]
      rfl
  · rw [Option.bind_some,(ofPairs_groups _).get,keptPairs,valuesOf_labelled]

theorem labelledValues_unempty (query name : Text) : labelledValues name (keptClauses false query) =
    (labelledValues name (keptClauses true query)).filter fun value => !value.isEmpty := by
  simp [labelledValues,keptClauses,survives,List.filter_map,Function.comp_def,Bool.and_comm]

theorem edited_grouped (edits : List Edit) (allowEmpty : Bool) (query name : Text) :
    Groups (edited edits) (pushesOf edits) ∧
    (parse? allowEmpty query = none ↔ keptClauses allowEmpty query = []) ∧
    found (parse? allowEmpty query) name = listed? (labelledValues name (keptClauses allowEmpty query)) ∧
    (found (parse? false query) name).getD [] =
      ((found (parse? true query) name).getD []).filter fun value => !value.isEmpty := by
  refine ⟨edits_groups empty_groups edits,?_,found_parse? allowEmpty query name,?_⟩
  · rw [parse?_pairs,← List.isEmpty_iff]
    split
    · next nothing => exact iff_of_true rfl nothing
    · next kept => exact iff_of_false (by simp) kept
  · rw [found_parse?,found_parse?,listed?_getD,listed?_getD,labelledValues_unempty]

end FieldedSearch.Rule
