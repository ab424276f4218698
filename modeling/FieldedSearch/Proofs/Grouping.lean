import FieldedSearch.Rule

namespace FieldedSearch.Rule

variable {name value : Text} {f : Field} {fields earlier : List Field}

theorem eq_of_fields {rule other : Rule} (same : rule.fields = other.fields) : rule = other := by
  cases rule; cases other; cases same; rfl

def fieldPairs (fields : List Field) : List (Text × Text) :=
  fields.flatMap fun f => f.values.map fun value => (f.name,value)

def pairs (rule : Rule) : List (Text × Text) := fieldPairs rule.fields

def addAll (fields : List Field) (pairs : List (Text × Text)) : List Field :=
  pairs.foldl (fun fields (name,value) => addValue name value fields) fields

theorem foldl_push_fields (pairs : List (Text × Text)) (rule : Rule) :
    (pairs.foldl (fun rule (name,value) => rule.push name value) rule).fields = addAll rule.fields pairs := by
  induction pairs generalizing rule with
  | nil => rfl
  | cons p r ih => exact ih (rule.push p.1 p.2)

theorem ofPairs_fields (pairs : List (Text × Text)) : (ofPairs pairs).fields = addAll [] pairs :=
  foldl_push_fields pairs empty

theorem addAll_names (pairs : List (Text × Text)) (fields : List Field) (name : Text) :
    name ∈ (addAll fields pairs).map Field.name ↔ name ∈ fields.map Field.name ∨ name ∈ pairs.map Prod.fst := by
  induction pairs generalizing fields with
  | nil => simp [addAll]
  | cons p r ih =>
      have step := ih (addValue p.1 p.2 fields)
      have added : name ∈ (addValue p.1 p.2 fields).map Field.name ↔ name ∈ fields.map Field.name ∨ name = p.1 := by
        rw [addValue_names]
        split
        · next known => exact ⟨.inl,fun either => either.elim id fun same => same ▸ known⟩
        · simp
      rw [added] at step
      simpa only [addAll,List.foldl_cons,List.map_cons,List.mem_cons,or_assoc] using step

theorem ofPairs_names (pairs : List (Text × Text)) (name : Text) :
    name ∈ (ofPairs pairs).fields.map Field.name ↔ name ∈ pairs.map Prod.fst := by
  simpa [ofPairs_fields] using addAll_names pairs [] name

theorem ofPairs_filled {pairs : List (Text × Text)} (filled : pairs ≠ []) : (ofPairs pairs).isEmpty = false := by
  obtain ⟨p,r,rfl⟩ := List.exists_cons_of_ne_nil filled
  have known := (ofPairs_names (p :: r) p.1).mpr (by simp)
  cases same : (ofPairs (p :: r)).fields with
  | nil => simp [same] at known
  | cons f t => simp [isEmpty,same]

theorem addValue_append (name value : Text) (earlier later : List Field) : addValue name value (earlier ++ later) =
    if name ∈ earlier.map Field.name then addValue name value earlier ++ later
    else earlier ++ addValue name value later := by
  induction earlier with
  | nil => rfl
  | cons f r ih =>
      by_cases own : f.name = name
      · simp [addValue,own]
      · simp only [List.cons_append,addValue,own,if_false,ih,List.map_cons,List.mem_cons,Ne.symm own,false_or]
        split <;> rfl

theorem addValue_fresh (fresh : name ∉ fields.map Field.name) :
    addValue name value fields = fields ++ [⟨name,value,[]⟩] := by
  have added := addValue_append name value fields []
  rwa [List.append_nil,if_neg fresh] at added

theorem addValue_last (fresh : f.name ∉ earlier.map Field.name) :
    addValue f.name value (earlier ++ [f]) = earlier ++ [⟨f.name,f.first,f.more ++ [value]⟩] := by
  rw [addValue_append,if_neg fresh,addValue,if_pos rfl]

theorem addAll_last (fresh : f.name ∉ earlier.map Field.name) (more : List Text) :
    addAll (earlier ++ [f]) (more.map fun value => (f.name,value)) =
      earlier ++ [⟨f.name,f.first,f.more ++ more⟩] := by
  induction more generalizing f with
  | nil => simp [addAll]
  | cons value r ih =>
      have step := ih (f := ⟨f.name,f.first,f.more ++ [value]⟩) fresh
      simp only [addAll,List.map_cons,List.foldl_cons,addValue_last fresh] at step ⊢
      simpa using step

theorem addAll_field (fresh : f.name ∉ earlier.map Field.name) :
    addAll earlier (f.values.map fun value => (f.name,value)) = earlier ++ [f] := by
  have step := addAll_last (f := ⟨f.name,f.first,[]⟩) fresh f.more
  simp only [addAll,Field.values,List.map_cons,List.foldl_cons,addValue_fresh fresh] at step ⊢
  exact step

theorem addAll_fieldPairs (distinct : ((earlier ++ fields).map Field.name).Nodup) :
    addAll earlier (fieldPairs fields) = earlier ++ fields := by
  induction fields generalizing earlier with
  | nil => simp [fieldPairs,addAll]
  | cons f r ih =>
      have fresh : f.name ∉ earlier.map Field.name := by
        intro known
        simp only [List.map_append,List.map_cons,List.nodup_append] at distinct
        exact distinct.2.2 _ known _ List.mem_cons_self rfl
      have behind : ((earlier ++ [f] ++ r).map Field.name).Nodup := by simpa using distinct
      have step := ih behind
      rw [List.append_assoc,List.singleton_append,← addAll_field fresh] at step
      simpa [fieldPairs,addAll] using step

theorem ofPairs_pairs (rule : Rule) : ofPairs rule.pairs = rule :=
  eq_of_fields (by rw [ofPairs_fields]; exact addAll_fieldPairs rule.distinct)

def mapValues (g : Text → Text) (rule : Rule) : Rule where
  fields := rule.fields.map fun f => ⟨f.name,g f.first,f.more.map g⟩
  distinct := by simpa [Function.comp_def] using rule.distinct

theorem mapValues_pairs (g : Text → Text) (rule : Rule) :
    (rule.mapValues g).pairs = rule.pairs.map fun (name,value) => (name,g value) := by
  simp [pairs,fieldPairs,mapValues,Field.values,List.map_flatMap,List.flatMap_map,Function.comp_def]

theorem mapValues_names (g : Text → Text) (rule : Rule) :
    (rule.mapValues g).fields.map Field.name = rule.fields.map Field.name := by
  simp [mapValues,Function.comp_def]

theorem mapValues_isEmpty (g : Text → Text) (rule : Rule) : (rule.mapValues g).isEmpty = rule.isEmpty := by
  simp [isEmpty,mapValues]

end FieldedSearch.Rule
