import FieldedSearch.Proofs.JsonText

namespace FieldedSearch.Json

variable {json : Json} {level : Nat} {items : List Json} {members : List (Text × Json)}

theorem newline_spaces (level : Nat) : Spaces (newline level) := by
  intro c member
  rcases List.mem_cons.mp member with rfl | blank
  · rfl
  · rw [List.eq_of_mem_replicate blank]
    rfl

theorem spells_indentedItems (spelled : ∀ item ∈ items, Spells (indented level item) (.value (tree item)))
    (filled : items ≠ []) (outer : Nat) :
    Spells (indentedItems level items ++ newline outer) (.items (itemTrees items)) := by
  induction items with
  | nil => exact absurd rfl filled
  | cons item items ih =>
      obtain ⟨first,later⟩ := List.forall_mem_cons.mp spelled
      have front := Spells.spaced (newline_spaces level) first
      cases items with
      | nil => simpa [indentedItems,itemTrees] using Spells.lastItem front (newline_spaces outer)
      | cons next items =>
          have behind := ih later (List.cons_ne_nil _ _)
          simpa [indentedItems,itemTrees] using Spells.nextItem front spaces_nil behind

theorem spells_indentedMembers
    (spelled : ∀ member ∈ members, Spells (indented level member.2) (.value (tree member.2))) (filled : members ≠ [])
    (outer : Nat) : Spells (indentedMembers level members ++ newline outer) (.members (memberTrees members)) := by
  have space : Spaces [' '] := List.forall_mem_singleton.mpr rfl
  induction members with
  | nil => exact absurd rfl filled
  | cons member members ih =>
      obtain ⟨key,value⟩ := member
      obtain ⟨first,later⟩ := List.forall_mem_cons.mp spelled
      have named := keyText_written (newline_spaces level) key
      have front := Spells.spaced space first
      cases members with
      | nil => simpa [indentedMembers,memberTrees] using Spells.lastMember named front (newline_spaces outer)
      | cons next members =>
          have behind := ih later (List.cons_ne_nil _ _)
          simpa [indentedMembers,memberTrees] using Spells.nextMember named front spaces_nil behind

theorem Integral.spells_indented (integral : Integral json) (level : Nat) :
    Spells (indented level json) (.value (tree json)) := by
  induction integral generalizing level with
  | null => exact Integral.null.spells
  | bool value => exact (Integral.bool value).spells
  | integer n => exact (Integral.integer n).spells
  | string s => exact (Integral.string s).spells
  | @array items _ ih =>
      cases items with
      | nil => exact .noItems spaces_nil
      | cons item items =>
          have inside := spells_indentedItems (fun item member => ih item member (level + 1)) (List.cons_ne_nil _ _) level
          simpa [indented,tree] using Spells.array inside
  | @object members _ ih =>
      cases members with
      | nil => exact .noMembers spaces_nil
      | cons member members =>
          have inside :=
            spells_indentedMembers (fun member known => ih member known (level + 1)) (List.cons_ne_nil _ _) level
          simpa [indented,tree] using Spells.object inside

end FieldedSearch.Json
