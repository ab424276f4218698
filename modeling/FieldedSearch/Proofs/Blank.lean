import FieldedSearch.Text.Blank

namespace FieldedSearch
namespace Text

variable {s gap : Text}

def OnlyBlank (s : Text) : Prop := ∀ c ∈ s, isBlank c = true

instance (s : Text) : Decidable s.OnlyBlank := List.decidableBAll _ s

def StartsSolid (s : Text) : Prop := ∃ c r, s = c :: r ∧ isBlank c = false

def EndsWord (rest : Text) : Prop := ∀ c r, rest = c :: r → isBlank c = true

theorem dropBlank_append (blank : OnlyBlank gap) (s : Text) : dropBlank (gap ++ s) = dropBlank s :=
  List.dropWhile_append_of_pos blank

theorem dropBlank_solid (solid : StartsSolid s) : dropBlank s = s := by
  obtain ⟨c,r,rfl,word⟩ := solid
  simp [dropBlank,word]

theorem StartsSolid.append (solid : StartsSolid s) (rest : Text) : StartsSolid (s ++ rest) := by
  obtain ⟨c,r,rfl,word⟩ := solid
  exact ⟨c,r ++ rest,rfl,word⟩

theorem cut_blank (s : Text) : ∃ gap, OnlyBlank gap ∧ s = gap ++ dropBlank s :=
  ⟨s.takeWhile isBlank,fun _ member => List.all_eq_true.mp List.all_takeWhile _ member,
    (List.takeWhile_append_dropWhile (p := isBlank)).symm⟩

theorem stopped_by_blank {c : Char} {p : Char → Bool} (solid : ∀ c, p c = true → isBlank c = false)
    (space : isBlank c = true) : p c = false := by
  cases inside : p c with
  | false => rfl
  | true => rw [solid c inside] at space; cases space

theorem endsWord_dropWhile (s : Text) : EndsWord (s.dropWhile fun c => !isBlank c) := by
  intro c r same
  have stopped := List.head?_dropWhile_not (fun c => !isBlank c) s
  rw [same] at stopped
  simpa using stopped

theorem dropBlank_eq_nil (s : Text) : dropBlank s = [] ↔ OnlyBlank s := by
  constructor
  · intro none
    obtain ⟨gap,blank,cut⟩ := cut_blank s
    rw [none,List.append_nil] at cut
    exact cut ▸ blank
  · intro blank
    have nothing := dropBlank_append blank []
    rwa [List.append_nil] at nothing

theorem OnlyBlank.append (left : OnlyBlank s) (right : OnlyBlank gap) : OnlyBlank (s ++ gap) := by
  intro c member
  rcases List.mem_append.mp member with inside | behind
  · exact left c inside
  · exact right c behind

theorem OnlyBlank.reverse (blank : OnlyBlank gap) : OnlyBlank gap.reverse :=
  fun c member => blank c (List.mem_reverse.mp member)

theorem OnlyBlank.endsWord (blank : OnlyBlank gap) (spaced : gap ≠ []) (s : Text) : EndsWord (gap ++ s) := by
  obtain ⟨d,gap,rfl⟩ := List.exists_cons_of_ne_nil spaced
  intro c r same
  obtain ⟨rfl,_⟩ := List.cons.inj same
  exact blank d List.mem_cons_self

theorem trim_blank_append (blank : OnlyBlank gap) (s : Text) : trim (gap ++ s) = trim s := by
  rw [trim,trim,dropBlank_append blank]

theorem dropBlank_append_blank (blank : OnlyBlank gap) (s : Text) :
    dropBlank (s ++ gap) = if (dropBlank s).isEmpty then [] else dropBlank s ++ gap := by
  have gone := (dropBlank_eq_nil gap).mpr blank
  simp only [dropBlank] at gone ⊢
  rw [List.dropWhile_append,gone]
  rfl

theorem trim_append_blank (blank : OnlyBlank gap) (s : Text) : trim (s ++ gap) = trim s := by
  rw [trim,trim,dropBlank_append_blank blank]
  split
  · next none => rw [List.isEmpty_iff.mp none]
  · rw [List.reverse_append]
    exact congrArg List.reverse (dropBlank_append blank.reverse _)

theorem dropBlank_of_solid (solid : ∀ c ∈ s, isBlank c = false) : dropBlank s = s := by
  cases s with
  | nil => rfl
  | cons c r => exact dropBlank_solid ⟨c,r,rfl,solid c List.mem_cons_self⟩

theorem trim_of_ends (starts : StartsSolid s) (ends : StartsSolid s.reverse) : trim s = s := by
  have back := dropBlank_solid ends
  rw [dropBlank] at back
  rw [trim,dropBlank_solid starts,back,List.reverse_reverse]

theorem trim_of_solid (solid : ∀ c ∈ s, isBlank c = false) : trim s = s := by
  have back := dropBlank_of_solid fun c member => solid c (List.mem_reverse.mp member)
  rw [dropBlank] at back
  rw [trim,dropBlank_of_solid solid,back,List.reverse_reverse]

theorem cut_trim (s : Text) : ∃ lead trail, OnlyBlank lead ∧ OnlyBlank trail ∧ s = lead ++ trim s ++ trail := by
  obtain ⟨lead,front,cut⟩ := cut_blank s
  obtain ⟨trail,back,rest⟩ := cut_blank (dropBlank s).reverse
  refine ⟨lead,trail.reverse,front,back.reverse,?_⟩
  have whole := congrArg List.reverse rest
  rw [List.reverse_reverse,List.reverse_append] at whole
  rw [List.append_assoc]
  exact cut.trans (congrArg (lead ++ ·) whole)

theorem trim_cons {c : Char} (solid : isBlank c = false) (r : Text) : ∃ t, trim (c :: r) = c :: t := by
  rw [trim,dropBlank_solid ⟨c,r,rfl,solid⟩,List.reverse_cons,List.dropWhile_append]
  split
  · exact ⟨[],by simp [solid]⟩
  · exact ⟨_,List.reverse_append⟩

theorem trim_trim (s : Text) : trim (trim s) = trim s := by
  obtain ⟨lead,trail,front,back,cut⟩ := cut_trim s
  have again := congrArg trim cut
  rw [trim_append_blank back,trim_blank_append front] at again
  exact again.symm

end Text
end FieldedSearch
