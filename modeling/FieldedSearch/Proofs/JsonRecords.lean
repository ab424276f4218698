import FieldedSearch.Json.Records
import FieldedSearch.Proofs.JsonValue

namespace FieldedSearch.Json

variable {depth : Nat} {s : Text} {tree : Tree} {items : List Tree} {sources : List (Option Text × Tree)}
variable {records : List Members} {members : Members}

theorem members?_exact (json : Json) : members? json = some members ↔ json = .object members := by
  cases json <;> simp [members?]

theorem mapM_members? {values : List Json} : values.mapM members? = some records ↔ values = records.map .object := by
  induction values generalizing records with
  | nil => simp [eq_comm]
  | cons value values ih =>
      simp only [List.mapM_cons,Option.bind_eq_bind,Option.bind_eq_some_iff,Option.pure_def,Option.some.injEq,
        members?_exact]
      constructor
      · rintro ⟨first,rfl,rest,behind,rfl⟩
        rw [ih.mp behind]
        rfl
      · intro same
        cases records with
        | nil => cases same
        | cons first rest =>
            obtain ⟨rfl,behind⟩ := List.cons.inj same
            exact ⟨first,rfl,rest,ih.mpr behind,rfl⟩

theorem ofTree?_values {values : List Json} : ofTree? (depth + 1) tree = some (.array values) ↔
    ∃ items, tree = .array items ∧ List.Forall₂ (fun item value => ofTree? depth item = some value) items values := by
  cases tree <;> simp [ofTree?,ofItems?_exact]

theorem ofTree?_members : ofTree? (depth + 1) tree = some (.object members) ↔
    ∃ sources, tree = .object sources ∧ ofMembers? depth [] sources = some members := by
  cases tree <;> simp [ofTree?]

theorem records?_exact : records? s = some records ↔ ∃ items, read? s = some (.array items) ∧
    List.Forall₂ (fun item members => ofTree? (depthLimit - 1) item = some (.object members)) items records := by
  constructor
  · intro read
    rw [records?] at read
    split at read
    · next values whole =>
        obtain ⟨tree,parsed,value⟩ := Option.bind_eq_some_iff.mp whole
        obtain ⟨items,rfl,inside⟩ := ofTree?_values.mp value
        rw [mapM_members?] at read
        subst read
        exact ⟨items,parsed,(List.forall₂_map_right_iff (f := Json.object)).mp inside⟩
    · cases read
  · rintro ⟨items,parsed,inside⟩
    have value : ofTree? depthLimit (.array items) = some (.array (records.map .object)) :=
      ofTree?_values.mpr ⟨items,rfl,(List.forall₂_map_right_iff (f := Json.object)).mpr inside⟩
    rw [records?,parsed,Option.bind_some,value]
    exact mapM_members?.mpr rfl

theorem objects_exact : (∃ records : List Members, List.Forall₂
    (fun item members => ofTree? depth item = some (.object members)) items records) ↔
    ∀ item ∈ items, (∃ sources, item = .object sources) ∧ Tree.Fits depth item := by
  induction items with
  | nil => exact iff_of_true ⟨[],.nil⟩ nofun
  | cons item items ih =>
      rw [List.forall_mem_cons,← ih,← Tree.fits_exact]
      constructor
      · rintro ⟨_,_ | ⟨front,behind⟩⟩
        refine ⟨⟨?_,Option.isSome_of_eq_some front⟩,_,behind⟩
        cases depth with
        | zero => cases item <;> simp [ofTree?] at front
        | succ depth =>
            obtain ⟨sources,same,_⟩ := ofTree?_members.mp front
            exact ⟨sources,same⟩
      · rintro ⟨⟨⟨sources,rfl⟩,whole⟩,records,behind⟩
        obtain ⟨json,front⟩ := Option.isSome_iff_exists.mp whole
        obtain ⟨_,members,_,rfl,_⟩ := ofTree?_object front
        exact ⟨members :: records,.cons front behind⟩

def IsRecords (s : Text) : Prop := ∃ items, read? s = some (.array items) ∧
  (∀ item ∈ items, ∃ sources, item = .object sources) ∧ Tree.Fits depthLimit (.array items)

theorem records?_isSome (s : Text) : (records? s).isSome = true ↔ IsRecords s := by
  rw [Option.isSome_iff_exists]
  simp only [records?_exact,IsRecords]
  constructor
  · rintro ⟨records,items,parsed,inside⟩
    have each := objects_exact.mp ⟨records,inside⟩
    exact ⟨items,parsed,fun item member => (each item member).1,.array fun item member => (each item member).2⟩
  · rintro ⟨items,parsed,objects,fits⟩
    have inside : ∀ item ∈ items, Tree.Fits (depthLimit - 1) item := by
      cases fits with
      | array inside => exact inside
    obtain ⟨records,each⟩ := objects_exact.mpr fun item member => ⟨objects item member,inside item member⟩
    exact ⟨records,items,parsed,each⟩

end FieldedSearch.Json
