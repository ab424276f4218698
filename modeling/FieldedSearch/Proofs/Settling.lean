import FieldedSearch.Proofs.ClauseWriting
import FieldedSearch.Proofs.Rereading

namespace FieldedSearch.Rule

open Text (EvenRuns)

variable {value : Text} {rule : Rule} {g : Text → Text}

def NeedsQuotes (value : Text) : Prop :=
  value = [] ∨ value.head? = some '"' ∨ value.head? = some '\'' ∨ ∃ c ∈ value, isBlank c = true

theorem openingQuote_head (value : Text) :
    (Clause.openingQuote value != .bare) = true ↔ value.head? = some '"' ∨ value.head? = some '\'' := by
  constructor
  · intro opening
    by_cases double : value.head? = some '"'
    · exact .inl double
    · by_cases single : value.head? = some '\''
      · exact .inr single
      · exact absurd (Clause.openingQuote_bare double single) (bne_iff_ne.mp opening)
  · intro either
    rcases either with front | front
    all_goals
      obtain ⟨r,rfl⟩ := List.head?_eq_some_iff.mp front
      rfl

theorem needsQuotes_exact (value : Text) : needsQuotes value = true ↔ NeedsQuotes value := by
  rw [needsQuotes,Bool.or_eq_true,Bool.or_eq_true,openingQuote_head,List.isEmpty_iff,List.any_eq_true,NeedsQuotes,
    or_assoc,or_assoc]

instance : Decidable (NeedsQuotes value) := decidable_of_iff _ (needsQuotes_exact value)

-- What is pending is the last backslash of an odd run, so it stands in front of the text to be judged.
theorem settled_fixed (odd : Bool) (value : Text) (even : EvenRuns '"' (pending odd value)) :
    settled odd value = value := by
  fun_induction settled odd value with
  | case1 => exact absurd rfl even.unended
  | case2 => rfl
  | case3 odd r ih =>
      cases odd with
      | false => exact congrArg ('\\' :: ·) (ih even)
      | true => exact congrArg ('\\' :: ·) (ih ((Text.evenRuns_pair even.unmarked).mp even))
  | case4 odd r ih =>
      cases odd with
      | false => exact congrArg ('"' :: ·) (ih ((Text.evenRuns_char (by decide)).mp even))
      | true => exact absurd rfl even.unmarked
  | case5 odd c r single unquoted ih =>
      cases odd with
      | false => exact congrArg (c :: ·) (ih ((Text.evenRuns_char single).mp even))
      | true => exact congrArg (c :: ·) (ih ((Text.evenRuns_pair unquoted).mp even))

theorem settled_even (value : Text) : EvenRuns '"' (settled false value) :=
  Text.evenRuns_exact.mpr ((writeQuoted_quoted false value).paired (by decide))

theorem reread_exact (value : Text) : reread value = value ↔ (NeedsQuotes value → EvenRuns '"' value) := by
  rw [← needsQuotes_exact,reread]
  split
  · next quoted =>
      constructor
      · intro same _
        exact same ▸ settled_even value
      · intro even
        exact settled_fixed false value (even quoted)
  · next word => exact iff_of_true rfl fun quoted => absurd quoted word

theorem reread_reread (value : Text) : reread (reread value) = reread value := by
  by_cases quoted : needsQuotes value = true
  · have settles : reread value = settled false value := if_pos quoted
    rw [settles,reread_exact]
    exact fun _ => settled_even value
  · have kept : reread value = value := if_neg quoted
    rw [kept,kept]

theorem map_fixed {α : Type} (h : α → α) (items : List α) : items.map h = items ↔ ∀ item ∈ items, h item = item := by
  have whole := List.map_inj_left (l := items) (f := h) (g := id)
  rwa [List.map_id] at whole

theorem mapValues_fixed : rule.mapValues g = rule ↔ ∀ f ∈ rule.fields, ∀ value ∈ f.values, g value = value := by
  have fields : rule.mapValues g = rule ↔ (rule.mapValues g).fields = rule.fields := ⟨congrArg fields,eq_of_fields⟩
  rw [fields,mapValues,map_fixed]
  refine forall_congr' fun f => imp_congr_right fun _ => ?_
  rw [← map_fixed,Field.values,List.map_cons,List.cons.injEq]
  cases f
  simp

theorem mapValues_mapValues (again : ∀ value, g (g value) = g value) :
    (rule.mapValues g).mapValues g = rule.mapValues g := by
  rw [mapValues_fixed]
  intro f member value inside
  obtain ⟨origin,_,rfl⟩ := List.mem_map.mp member
  obtain ⟨source,_,rfl⟩ := List.mem_map.mp (show value ∈ origin.values.map g from inside)
  exact again source

theorem written_settles (named : ∀ f ∈ rule.fields, IsFieldName f.name) (filled : rule.isEmpty = false) :
    (parse? true rule.written = some rule ↔
      ∀ f ∈ rule.fields, ∀ value ∈ f.values, NeedsQuotes value → EvenRuns '"' value) ∧
    ∃ again, parse? true rule.written = some again ∧ parse? true again.written = some again := by
  have round := parse?_written rule named filled
  have labels : ∀ f ∈ (rule.mapValues reread).fields, IsFieldName f.name := by
    intro f member
    have known : f.name ∈ rule.fields.map Field.name := by
      rw [← mapValues_names reread rule]
      exact List.mem_map_of_mem member
    obtain ⟨origin,inside,same⟩ := List.mem_map.mp known
    exact same ▸ named origin inside
  have second := parse?_written (rule.mapValues reread) labels (by rw [mapValues_isEmpty,filled])
  rw [mapValues_mapValues reread_reread] at second
  refine ⟨?_,_,round,second⟩
  rw [round,Option.some.injEq,mapValues_fixed]
  simp only [reread_exact]

-- A word may end in a lone backslash. Between quotes it gets a second one, once.
theorem written_settles_runs :
    (∃ rule, rule = ofPairs [("note".toList,"x\\".toList),("path".toList,"a \\\\\"".toList)] ∧
      parse? true rule.written = some rule) ∧
    ∃ rule, rule = ofPairs [("note".toList,"x\\".toList),("path".toList,"a b\\".toList)] ∧
      parse? true rule.written ≠ some rule ∧
      ∃ again, parse? true rule.written = some again ∧ parse? true again.written = some again := by
  constructor
  · have named := ofPairs_named
      (show ∀ p ∈ [("note".toList,"x\\".toList),("path".toList,"a \\\\\"".toList)], IsFieldName p.1 by decide)
    have run : EvenRuns '"' "a \\\\\"".toList := Text.evenRuns_exact.mpr
      (.char (by decide) (.char (by decide) (.pair (by decide) (.char (by decide) .nil))))
    have word : ¬NeedsQuotes "x\\".toList := by decide
    refine ⟨_,rfl,(written_settles named (ofPairs_filled (by simp))).1.mpr ?_⟩
    intro f member value inside quoted
    have known : f ∈ [⟨"note".toList,"x\\".toList,[]⟩,⟨"path".toList,"a \\\\\"".toList,[]⟩] := member
    rcases List.mem_cons.mp known with rfl | later
    · cases List.mem_singleton.mp inside
      exact absurd quoted word
    · cases List.mem_singleton.mp later
      cases List.mem_singleton.mp inside
      exact run
  · have named := ofPairs_named
      (show ∀ p ∈ [("note".toList,"x\\".toList),("path".toList,"a b\\".toList)], IsFieldName p.1 by decide)
    obtain ⟨exactly,settles⟩ := written_settles named (ofPairs_filled (by simp))
    refine ⟨_,rfl,?_,settles⟩
    intro same
    have even := exactly.mp same ⟨"path".toList,"a b\\".toList,[]⟩ (by decide) "a b\\".toList (by decide) (by decide)
    exact absurd (even "a b\\".toList [] rfl (by simp)) (by decide)

end FieldedSearch.Rule
