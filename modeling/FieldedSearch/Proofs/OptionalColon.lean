import FieldedSearch.Proofs.Covering

namespace FieldedSearch.Clause

open Text (OnlyBlank StartsSolid EndsWord)

variable {s name gap : Text}

-- Where a clause begins whatever stands in front: at the marker of a negation and at a label.
def StartsClause (s : Text) : Prop :=
  (∃ c r, s = '-' :: c :: r ∧ isBlank c = false) ∨ ∃ name r, IsFieldName name ∧ s = name ++ ':' :: r

theorem takeNegation_exact (s : Text) :
    (takeNegation s).1 = true ↔ ∃ c r, s = '-' :: c :: r ∧ isBlank c = false := by
  constructor
  · intro marked
    unfold takeNegation at marked
    split at marked
    · next c r =>
        split at marked
        · cases marked
        · next solid => exact ⟨c,r,rfl,by simpa using solid⟩
    · cases marked
  · intro found
    obtain ⟨c,r,rfl,solid⟩ := found
    simp [takeNegation,solid]

theorem takeName_label (s : Text) :
    ((takeName s).1.isEmpty = false ∧ (takeName s).2.head? = some ':') ↔
      ∃ name r, IsFieldName name ∧ s = name ++ ':' :: r := by
  constructor
  · intro found
    obtain ⟨whole,named⟩ := takeName_sound s
    obtain ⟨r,behind⟩ := List.head?_eq_some_iff.mp found.2
    exact ⟨_,r,named found.1,behind ▸ whole⟩
  · intro found
    obtain ⟨name,r,named,rfl⟩ := found
    have read : takeName (name ++ ':' :: r) = (name,':' :: r) := takeName_complete named (by rintro c t ⟨⟩; decide)
    obtain ⟨c,t,rfl,_⟩ := named
    rw [read]
    exact ⟨rfl,rfl⟩

theorem startsClause_exact (s : Text) : startsClause s = true ↔ StartsClause s := by
  rw [startsClause,Bool.or_eq_true,Bool.and_eq_true,Bool.not_eq_true',decide_eq_true_iff,takeNegation_exact,
    takeName_label,StartsClause]

instance (s : Text) : Decidable (StartsClause s) := decidable_of_iff _ (startsClause_exact s)

theorem takeName_gap (named : IsFieldName name) (blank : OnlyBlank gap) (spaced : gap ≠ []) (s : Text) :
    takeName (name ++ (gap ++ s)) = (name,gap ++ s) := by
  refine takeName_complete named ?_
  intro c r same
  exact Text.stopped_by_blank isNameChar_solid (blank.endsWord spaced s c r same)

theorem afterLabel_gap (blank : OnlyBlank gap) (spaced : gap ≠ []) (solid : StartsSolid s) :
    afterLabel (gap ++ s) = if startsClause s then none else some s := by
  obtain ⟨d,gap,rfl⟩ := List.exists_cons_of_ne_nil spaced
  have front : isBlank d = true := blank d List.mem_cons_self
  have uncoloned : d ≠ ':' := by rintro rfl; revert front; decide
  have value : Text.dropBlank (gap ++ s) = s := by
    rw [Text.dropBlank_append fun c member => blank c (List.mem_cons_of_mem _ member),Text.dropBlank_solid solid]
  have filled : s.isEmpty = false := by
    obtain ⟨c,r,rfl,_⟩ := solid
    rfl
  simp only [List.cons_append,afterLabel,value,uncoloned,front,filled,Bool.false_or,if_false,if_true]

theorem takeLabel_gap (named : IsFieldName name) (blank : OnlyBlank gap) (spaced : gap ≠ [])
    (solid : StartsSolid s) :
    takeLabel (name ++ (gap ++ s)) = if startsClause s then none else some (name,s) := by
  simp only [takeLabel,takeName_gap named blank spaced,afterLabel_gap blank spaced solid,named.filled,
    Bool.false_eq_true,if_false]
  split <;> rfl

-- The value is looked for at the same place, with the colon and without.
theorem take_value (named : IsFieldName name) (blank : OnlyBlank gap) (spaced : gap ≠ []) (solid : StartsSolid s)
    (inside : ¬StartsClause s) : take (name ++ (gap ++ s)) = take (name ++ ':' :: (gap ++ s)) := by
  have unlooked : startsClause s ≠ true := fun starts => inside ((startsClause_exact s).mp starts)
  simp only [take,takeNegation_name named,takeLabel_colon named blank solid,
    takeLabel_gap named blank spaced solid,if_neg unlooked]

theorem takeValue_name (named : IsFieldName name) (ends : EndsWord s) :
    takeValue (name ++ s) = ((name,.bare),s) := by
  have solid : ∀ c ∈ name, isBlank c = false := fun c member => isNameChar_solid c (named.chars c member)
  have unquoted : name.head? ≠ some '"' ∧ name.head? ≠ some '\'' := by
    constructor <;> intro quote <;> cases named.chars _ (List.mem_of_head? quote)
  exact takeValue_bare (openingQuote_bare unquoted.1 unquoted.2) (List.isEmpty_eq_false_iff.mp named.filled) solid ends

-- Refused, the name is read once more from its front, and the gap is still there.
theorem take_refused (named : IsFieldName name) (blank : OnlyBlank gap) (spaced : gap ≠ []) (solid : StartsSolid s)
    (starts : StartsClause s) : take (name ++ (gap ++ s)) = (⟨false,none,name,.bare⟩,gap ++ s) := by
  simp only [take,takeNegation_name named,takeLabel_gap named blank spaced solid,
    if_pos ((startsClause_exact s).mpr starts),takeValue_name named (blank.endsWord spaced s)]

theorem scan_colonless (named : IsFieldName name) (blank : OnlyBlank gap) (spaced : gap ≠ [])
    (solid : StartsSolid s) :
    (¬StartsClause s → scan (name ++ gap ++ s) = scan (name ++ ':' :: (gap ++ s))) ∧
    (StartsClause s → scan (name ++ gap ++ s) = ⟨false,none,name,.bare⟩ :: scan s) := by
  have begins := (name_solid named).append
  rw [List.append_assoc,scan_solid (begins _)]
  constructor
  · intro inside
    rw [scan_solid (begins _),take_value named blank spaced solid inside]
  · intro starts
    rw [take_refused named blank spaced solid starts,scan_blank blank]

-- A lone dash is a value. A label begins a clause even where no value follows it.
theorem scan_colonless_dashes :
    (¬StartsClause "- x:y".toList ∧ scan "a \t- x:y".toList = scan "a: \t- x:y".toList) ∧
    StartsClause "b-c:".toList ∧ scan "a \tb-c:".toList = ⟨false,none,"a".toList,.bare⟩ :: scan "b-c:".toList := by
  have named : IsFieldName "a".toList := by decide
  have blank : OnlyBlank " \t".toList := List.all_eq_true.mp (show " \t".toList.all isBlank = true by decide)
  have value := scan_colonless named blank (by decide) (s := "- x:y".toList) ⟨'-',_,rfl,by decide⟩
  have label := scan_colonless named blank (by decide) (s := "b-c:".toList) ⟨'b',_,rfl,by decide⟩
  have inside : ¬StartsClause "- x:y".toList := by decide
  have starts : StartsClause "b-c:".toList := by decide
  exact ⟨⟨inside,value.1 inside⟩,starts,label.2 starts⟩

end FieldedSearch.Clause
