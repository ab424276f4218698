import Mathlib.Logic.Relation
import FieldedSearch.Record

namespace FieldedSearch

def Rule.demands (rule : Rule) : List (Text × Text) := rule.fields.map fun f => (f.name,f.first)

namespace Record

variable {engine : Engine} {case : CaseMode} {record other : Record} {name : Text}

def under (case : CaseMode) (name : Text) (record : Record) : Record :=
  record.filter fun pair => case.apply pair.1 = name

structure Reordered (case : CaseMode) (record other : Record) : Prop where
  pairs : record.Perm other
  order : ∀ name, record.under case name = other.under case name

-- Without the pairs that a later one of the same name hides.
def visible (case : CaseMode) : Record → Record
  | [] => []
  | pair :: later =>
      if later.any fun other => case.apply other.1 = case.apply pair.1 then visible case later
      else pair :: visible case later

theorem lookup?_under (case : CaseMode) (record : Record) (name : Text) :
    record.lookup? case name = (record.under case (case.apply name)).getLast?.map Prod.snd := by
  rw [lookup?,under,← List.head?_reverse,← List.filter_reverse,List.head?_filter]

theorem under_cons (pair : Text × Text) (later : Record) : under case name (pair :: later) =
    if case.apply pair.1 = name then pair :: under case name later else under case name later := by
  simp [under,List.filter_cons]

theorem under_eq_nil : record.under case name = [] ↔ ¬∃ pair ∈ record, case.apply pair.1 = name := by
  simp [under,List.filter_eq_nil_iff]

theorem under_visible (case : CaseMode) (record : Record) (name : Text) :
    (record.visible case).under case name = (record.under case name).getLast?.toList := by
  induction record with
  | nil => rfl
  | cons pair later ih =>
      rw [visible,under_cons]
      split
      · next hidden =>
          rw [ih]
          split
          · next same =>
              have filled : under case name later ≠ [] := by
                rw [Ne,under_eq_nil,Classical.not_not,← same]
                simpa using hidden
              rw [List.getLast?_cons,List.getLast?_eq_some_getLast filled]
              rfl
          · rfl
      · next shown =>
          rw [under_cons,ih]
          split
          · next same =>
              have nothing : under case name later = [] := by
                rw [under_eq_nil,← same]
                simpa using shown
              rw [nothing]
              rfl
          · rfl

theorem reordered_swap {pair next : Text × Text} (apart : case.apply pair.1 ≠ case.apply next.1)
    (earlier later : Record) :
    Reordered case (earlier ++ pair :: next :: later) (earlier ++ next :: pair :: later) where
  pairs := (List.Perm.swap next pair later).append_left earlier
  order := by
    intro name
    rw [under,under,List.filter_append,List.filter_append,← under,← under,← under,under_cons,under_cons,under_cons,
      under_cons]
    by_cases own : case.apply pair.1 = name
    · have other : case.apply next.1 ≠ name := fun same => apart (own.trans same.symm)
      simp only [own,other,if_true,if_false]
    · simp only [own,if_false]

theorem Reordered.lookup? (reordered : Reordered case record other) (name : Text) :
    record.lookup? case name = other.lookup? case name := by
  rw [lookup?_under,lookup?_under,reordered.order]

theorem lookup?_visible (case : CaseMode) (record : Record) (name : Text) :
    (record.visible case).lookup? case name = record.lookup? case name := by
  rw [lookup?_under,lookup?_under,under_visible]
  cases (record.under case (case.apply name)).getLast? <;> rfl

def Meets (engine : Engine) (case : CaseMode) (record : Record) (demand : Text × Text) : Prop :=
  ∃ actual, record.lookup? case demand.1 = some actual ∧ valueMatches engine case demand.2 actual = true

theorem satisfies_demands (record : Record) (rule : Rule) :
    record.satisfies engine case rule = true ↔ ∀ demand ∈ rule.demands, record.Meets engine case demand := by
  rw [satisfies,List.all_eq_true,Rule.demands,List.forall_mem_map]
  refine forall₂_congr fun f _ => ?_
  unfold Meets
  cases record.lookup? case f.name <;> simp

end Record

structure Question where
  rules : List Rule
  record : Record

namespace Question

variable {engine : Engine} {case : CaseMode} {question later : Question}

def answer (engine : Engine) (case : CaseMode) (question : Question) : Bool :=
  question.record.satisfiesAny engine case question.rules

inductive Edit (case : CaseMode) : Question → Question → Prop where
  | permuted {rules others : List Rule} {record : Record} : rules.Perm others → Edit case ⟨rules,record⟩ ⟨others,record⟩
  | repeated {rules : List Rule} {rule : Rule} {record : Record} : rule ∈ rules →
      Edit case ⟨rules,record⟩ ⟨rule :: rules,record⟩
  | fields {earlier later : List Rule} {rule other : Rule} {record : Record} : rule.fields.Perm other.fields →
      Edit case ⟨earlier ++ rule :: later,record⟩ ⟨earlier ++ other :: later,record⟩
  | values {earlier later : List Rule} {rule other : Rule} {record : Record} : rule.demands = other.demands →
      Edit case ⟨earlier ++ rule :: later,record⟩ ⟨earlier ++ other :: later,record⟩
  | reordered {rules : List Rule} {record other : Record} : record.Reordered case other →
      Edit case ⟨rules,record⟩ ⟨rules,other⟩
  | uncovered {rules : List Rule} {record : Record} : Edit case ⟨rules,record⟩ ⟨rules,record.visible case⟩

theorem answer_exact (engine : Engine) (case : CaseMode) (question : Question) : question.answer engine case = true ↔
    ∃ rule ∈ question.rules, ∀ demand ∈ rule.demands, question.record.Meets engine case demand := by
  simp only [answer,Record.satisfiesAny,List.any_eq_true,Record.satisfies_demands]

theorem answer_replaced {earlier behind : List Rule} {rule other : Rule} {record : Record}
    (alike : ∀ demand, demand ∈ rule.demands ↔ demand ∈ other.demands) :
    answer engine case ⟨earlier ++ rule :: behind,record⟩ = answer engine case ⟨earlier ++ other :: behind,record⟩ := by
  have same : record.satisfies engine case rule = record.satisfies engine case other := by
    rw [Bool.eq_iff_iff,Record.satisfies_demands,Record.satisfies_demands]
    exact forall_congr' fun demand => imp_congr_left (alike demand)
  rw [answer,answer,Record.satisfiesAny,Record.satisfiesAny,List.any_append,List.any_append,List.any_cons,List.any_cons,
    same]

theorem answer_lookup {rules : List Rule} {record other : Record}
    (same : ∀ name, record.lookup? case name = other.lookup? case name) :
    answer engine case ⟨rules,record⟩ = answer engine case ⟨rules,other⟩ := by
  rw [Bool.eq_iff_iff,answer_exact,answer_exact]
  unfold Record.Meets
  simp only [same]

theorem Edit.answer (edit : Edit case question later) : question.answer engine case = later.answer engine case := by
  cases edit with
  | permuted perm =>
      rw [Bool.eq_iff_iff,answer_exact,answer_exact]
      exact exists_congr fun rule => and_congr_left fun _ => perm.mem_iff
  | @repeated rules rule _ known =>
      rw [Bool.eq_iff_iff,answer_exact,answer_exact]
      have members : ∀ other, other ∈ rules ↔ other ∈ rule :: rules := by
        intro other
        rw [List.mem_cons]
        exact ⟨.inr,fun either => either.elim (fun same => same ▸ known) id⟩
      exact exists_congr fun other => and_congr_left fun _ => members other
  | fields perm => exact answer_replaced fun demand => (perm.map _).mem_iff
  | values same => exact answer_replaced fun demand => by rw [same]
  | reordered kept => exact answer_lookup kept.lookup?
  | uncovered => exact answer_lookup fun name => (Record.lookup?_visible case _ name).symm

-- Any edits one after the other, each done or undone.
theorem answer_unchanged (edits : Relation.EqvGen (Edit case) question later) :
    question.answer engine case = later.answer engine case := by
  induction edits with
  | rel _ _ edit => exact edit.answer
  | refl => rfl
  | symm _ _ _ ih => exact ih.symm
  | trans _ _ _ _ _ first second => exact first.trans second

def twiceNamed : Record :=
  [("status".toList,"publish".toList),("Kind".toList,"Post".toList),("STATUS".toList,"Draft".toList)]

def twiceAsked : Rule := Rule.ofPairs [("Status".toList,"draft".toList),("kind".toList,"p*".toList)]

def onceAsked : Rule :=
  Rule.ofPairs [("kind".toList,"p*".toList),("Status".toList,"draft".toList),("kind".toList,"page".toList)]

-- The rule stands once, its fields change places and one gets a value, two pairs change places and the hidden one goes.
theorem answer_unchanged_hidden :
    Relation.EqvGen (Edit .fold) ⟨[twiceAsked,twiceAsked],twiceNamed⟩
      ⟨[onceAsked],[("Kind".toList,"Post".toList),("STATUS".toList,"Draft".toList)]⟩ ∧
    answer .unlimited .fold ⟨[twiceAsked,twiceAsked],twiceNamed⟩ = true := by
  have once : Edit .fold ⟨[twiceAsked],twiceNamed⟩ ⟨[twiceAsked,twiceAsked],twiceNamed⟩ :=
    .repeated (List.mem_singleton_self _)
  have turned : Edit .fold ⟨[twiceAsked],twiceNamed⟩
      ⟨[Rule.ofPairs [("kind".toList,"p*".toList),("Status".toList,"draft".toList)]],twiceNamed⟩ :=
    @Edit.fields .fold [] [] _ _ _ (List.Perm.swap _ _ [])
  have valued : Edit .fold ⟨[Rule.ofPairs [("kind".toList,"p*".toList),("Status".toList,"draft".toList)]],twiceNamed⟩
      ⟨[onceAsked],twiceNamed⟩ := @Edit.values .fold [] [] _ _ _ rfl
  have moved : Edit .fold ⟨[onceAsked],twiceNamed⟩ ⟨[onceAsked],
      [("Kind".toList,"Post".toList),("status".toList,"publish".toList),("STATUS".toList,"Draft".toList)]⟩ :=
    .reordered (Record.reordered_swap (by decide) [] _)
  have uncovered : Edit .fold ⟨[onceAsked],
      [("Kind".toList,"Post".toList),("status".toList,"publish".toList),("STATUS".toList,"Draft".toList)]⟩
      ⟨[onceAsked],[("Kind".toList,"Post".toList),("STATUS".toList,"Draft".toList)]⟩ := .uncovered
  have edits : Relation.EqvGen (Edit .fold) ⟨[twiceAsked,twiceAsked],twiceNamed⟩
      ⟨[onceAsked],[("Kind".toList,"Post".toList),("STATUS".toList,"Draft".toList)]⟩ :=
    .trans _ _ _ (.symm _ _ (.rel _ _ once)) <| .trans _ _ _ (.rel _ _ turned) <| .trans _ _ _ (.rel _ _ valued) <|
      .trans _ _ _ (.rel _ _ moved) (.rel _ _ uncovered)
  refine ⟨edits,(answer_unchanged edits).trans ?_⟩
  decide

end Question
end FieldedSearch
