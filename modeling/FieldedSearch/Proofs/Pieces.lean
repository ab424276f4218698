import Mathlib.Data.List.Forall2
import FieldedSearch.Text

namespace FieldedSearch.Text

variable {α : Type} {covers other : α → Text → Prop} {item : α} {items : List α} {s t : Text}

-- Pieces may be empty. Nothing of the text is left over.
def Pieces (covers : α → Text → Prop) (items : List α) (s : Text) : Prop :=
  ∃ pieces, List.Forall₂ covers items pieces ∧ s = pieces.flatten

theorem pieces_nil : Pieces covers [] s ↔ s = [] := by
  simp [Pieces,List.forall₂_nil_left_iff]

theorem pieces_cons : Pieces covers (item :: items) s ↔
    ∃ piece rest, s = piece ++ rest ∧ covers item piece ∧ Pieces covers items rest := by
  constructor
  · intro cut
    obtain ⟨pieces,covered,whole⟩ := cut
    cases covered with
    | cons first later => exact ⟨_,_,whole,first,_,later,rfl⟩
  · intro cut
    obtain ⟨piece,rest,whole,first,pieces,later,flat⟩ := cut
    refine ⟨piece :: pieces,.cons first later,?_⟩
    simp [whole,flat]

-- Only the pieces of the text itself matter, so a property of its characters may be assumed.
theorem pieces_congr (same : ∀ item ∈ items, ∀ piece, piece ⊆ s → (covers item piece ↔ other item piece)) :
    Pieces covers items s ↔ Pieces other items s := by
  induction items generalizing s with
  | nil => exact pieces_nil.trans pieces_nil.symm
  | cons item items ih =>
      simp only [pieces_cons]
      refine exists_congr fun piece => exists_congr fun rest => and_congr_right fun whole => ?_
      subst whole
      refine and_congr (same item List.mem_cons_self piece (List.subset_append_left _ _)) (ih ?_)
      intro later member inner inside
      exact same later (List.mem_cons_of_mem _ member) inner
        (List.Subset.trans inside (List.subset_append_right _ _))

end FieldedSearch.Text
