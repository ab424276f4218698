import FieldedSearch.History
import FieldedSearch.Proofs.PatternReading

namespace FieldedSearch

open Ere (Stands)
open Text (Pieces)

variable {mark field opening run : Text} {values : List Text}

def Text.Begins (mark s : Text) : Prop := ∃ front rest, s = front ++ rest ∧ front.lowerAscii = mark

theorem Text.begins_exact : Begins mark field ↔ mark.isPrefixOf field.lowerAscii = true := by
  rw [List.isPrefixOf_iff_prefix]
  constructor
  · intro cut
    obtain ⟨front,rest,whole,lowered⟩ := cut
    exact ⟨rest.lowerAscii,by rw [whole,← lowered,lowerAscii,lowerAscii,lowerAscii,List.map_append]⟩
  · intro found
    obtain ⟨rest,whole⟩ := found
    obtain ⟨front,back,split,lowered,_⟩ := List.map_eq_append_iff.mp whole.symm
    exact ⟨front,back,split,lowered⟩

namespace History

-- What may stand before the name of a trailer. Trailers were once written with another prefix.
structure Opening (field opening : Text) : Prop where
  whole : Text.Begins "x-vp-".toList field → opening = []
  named : Text.Begins "vp-".toList field → opening = [] ∨ opening = "X-".toList
  bare : ¬Text.Begins "x-vp-".toList field → ¬Text.Begins "vp-".toList field →
    opening = "X-VP-".toList ∨ opening = "VP-".toList

theorem unnamed_of_whole (whole : Text.Begins "x-vp-".toList field) : ¬Text.Begins "vp-".toList field := by
  intro named
  obtain ⟨rest,left⟩ := List.isPrefixOf_iff_prefix.mp (Text.begins_exact.mp whole)
  obtain ⟨other,right⟩ := List.isPrefixOf_iff_prefix.mp (Text.begins_exact.mp named)
  cases (List.cons.inj (left.trans right.symm)).1

theorem stands_trailerPrefix (field : Text) : Stands (trailerPrefix field) (Opening field) := by
  by_cases whole : Text.Begins "x-vp-".toList field
  · have unnamed := unnamed_of_whole whole
    rw [trailerPrefix,if_pos (Text.begins_exact.mp whole)]
    refine Stands.nil.congr fun run => ⟨fun none => ?_,fun opening => opening.whole whole⟩
    exact ⟨fun _ => none,fun named => absurd named unnamed,fun other => absurd whole other⟩
  · rw [trailerPrefix,if_neg (fun found => whole (Text.begins_exact.mpr found))]
    by_cases named : Text.Begins "vp-".toList field
    · rw [if_pos (Text.begins_exact.mp named)]
      have written : Stands "(X-)?".toList _ := Stands.maybe id (fun value run => run = value)
        (fun value member => Stands.literal value (by
          rw [List.mem_singleton.mp member]
          decide)) (List.cons_ne_nil "X-".toList [])
      refine written.congr fun run => ⟨fun either => ?_,fun opening => ?_⟩
      · refine ⟨fun other => absurd other whole,fun _ => ?_,fun _ other => absurd named other⟩
        simpa using either
      · simpa using opening.named named
    · rw [if_neg (fun found => named (Text.begins_exact.mpr found))]
      have written : Stands "(X-VP-|VP-)".toList _ := Stands.oneOf id (fun value run => run = value)
        (fun value member => Stands.literal value (by
          simp only [List.mem_cons,List.not_mem_nil,or_false] at member
          rcases member with same | same <;> subst same <;> decide))
        (List.cons_ne_nil "X-VP-".toList ["VP-".toList])
      refine written.congr fun run => ⟨fun either => ?_,fun opening => ?_⟩
      · refine ⟨fun other => absurd other whole,fun other => absurd other named,fun _ _ => ?_⟩
        simpa using either
      · simpa using opening.bare whole named

theorem finds_trailer (name : IsPlain field) (some : values ≠ [])
    (guarded : ∀ value ∈ values, IsGuarded value) {line : Text} (single : '\n' ∉ line) :
    Ere.Finds (trailerPattern field values) line ↔ ∃ opening t, line = opening ++ field ++ ": ".toList ++ t ∧
      Opening field opening ∧ ∃ value ∈ values, Pieces Text.StarCovers value t := by
  have colon : Stands ": ".toList (· = ": ".toList) := Stands.literal _ (by decide)
  have globs := Stands.oneOf pattern (Pieces StarCoversLine) (fun value member => stands_pattern (guarded value member)) some
  have whole := (((stands_trailerPrefix field).append (stands_plain name)).append colon).append globs
  have cut : trailerPattern field values = '^' :: (trailerPrefix field ++ pattern field ++ ": ".toList ++
      ('(' :: Text.join ['|'] (values.map pattern) ++ [')'])) ++ ['$'] := by
    simp [trailerPattern]
  rw [cut,whole.finds_exact]
  constructor
  · intro found
    obtain ⟨_,t,split,⟨_,_,rest,⟨opening,_,front,opens,same⟩,mark⟩,value,member,globbed⟩ := found
    have text : line = opening ++ field ++ ": ".toList ++ t := by rw [split,rest,front,same,mark]
    have inner : '\n' ∉ t := fun inside => single (text ▸ List.mem_append_right _ inside)
    exact ⟨opening,t,text,opens,value,member,(pieces_starCovers inner).mp globbed⟩
  · intro found
    obtain ⟨opening,t,text,opens,value,member,globbed⟩ := found
    have inner : '\n' ∉ t := fun inside => single (text ▸ List.mem_append_right _ inside)
    exact ⟨_,t,text,⟨_,_,rfl,⟨opening,field,rfl,opens,rfl⟩,rfl⟩,value,member,(pieces_starCovers inner).mpr globbed⟩

-- A name without a prefix has the spellings that it has with the current one.
theorem opening_prefixed (unwhole : ¬Text.Begins "x-vp-".toList field) (unnamed : ¬Text.Begins "vp-".toList field) :
    (∃ opening, run = opening ++ field ∧ Opening field opening) ↔
      ∃ opening, run = opening ++ ("VP-".toList ++ field) ∧ Opening ("VP-".toList ++ field) opening := by
  have named : Text.Begins "vp-".toList ("VP-".toList ++ field) := ⟨"VP-".toList,field,rfl,rfl⟩
  have short : ¬Text.Begins "x-vp-".toList ("VP-".toList ++ field) := fun whole => unnamed_of_whole whole named
  constructor
  · intro spelled
    obtain ⟨opening,split,opens⟩ := spelled
    rcases opens.bare unwhole unnamed with same | same
    · refine ⟨"X-".toList,by rw [split,same]; rfl,?_⟩
      exact ⟨fun whole => absurd whole short,fun _ => .inr rfl,fun _ other => absurd named other⟩
    · refine ⟨[],by rw [split,same]; rfl,?_⟩
      exact ⟨fun _ => rfl,fun _ => .inl rfl,fun _ other => absurd named other⟩
  · intro spelled
    obtain ⟨opening,split,opens⟩ := spelled
    rcases opens.named named with same | same
    · refine ⟨"VP-".toList,by rw [split,same]; rfl,?_⟩
      exact ⟨fun whole => absurd whole unwhole,fun other => absurd other unnamed,fun _ _ => .inr rfl⟩
    · refine ⟨"X-VP-".toList,by rw [split,same]; rfl,?_⟩
      exact ⟨fun whole => absurd whole unwhole,fun other => absurd other unnamed,fun _ _ => .inl rfl⟩

theorem finds_trailer_prefixed (name : IsPlain field) (some : values ≠ []) (guarded : ∀ value ∈ values, IsGuarded value)
    (unwhole : ¬Text.Begins "x-vp-".toList field) (unnamed : ¬Text.Begins "vp-".toList field) {line : Text}
    (single : '\n' ∉ line) : Ere.Finds (trailerPattern field values) line ↔
      Ere.Finds (trailerPattern ("VP-".toList ++ field) values) line := by
  have current : IsPlain "VP-".toList := by decide
  have prefixed : IsPlain ("VP-".toList ++ field) := List.forall_mem_append.mpr ⟨current,name⟩
  rw [finds_trailer name some guarded single,finds_trailer prefixed some guarded single]
  constructor
  · intro found
    obtain ⟨opening,t,text,opens,globbed⟩ := found
    obtain ⟨other,same,spelled⟩ := (opening_prefixed unwhole unnamed).mp ⟨opening,rfl,opens⟩
    exact ⟨other,t,by rw [text,same],spelled,globbed⟩
  · intro found
    obtain ⟨opening,t,text,opens,globbed⟩ := found
    obtain ⟨other,same,spelled⟩ := (opening_prefixed unwhole unnamed).mpr ⟨opening,rfl,opens⟩
    exact ⟨other,t,by rw [text,same],spelled,globbed⟩

-- The one argument of a trailer field, the lines that it selects, and that a name without a prefix selects the same
-- lines with one.
theorem trailer_selects_exact (name : IsPlain field) (some : values ≠ []) (guarded : ∀ value ∈ values, IsGuarded value) :
    (∀ context, role field = .trailer →
      fieldArguments context field values (role field) = [.grep (trailerPattern field values)]) ∧
    (∀ line : Text, '\n' ∉ line → (Ere.Finds (trailerPattern field values) line ↔
      ∃ opening t, line = opening ++ field ++ ": ".toList ++ t ∧ Opening field opening ∧
        ∃ value ∈ values, Pieces Text.StarCovers value t)) ∧
    (¬Text.Begins "x-vp-".toList field → ¬Text.Begins "vp-".toList field → ∀ line : Text, '\n' ∉ line →
      (Ere.Finds (trailerPattern field values) line ↔
        Ere.Finds (trailerPattern ("VP-".toList ++ field) values) line)) := by
  refine ⟨fun context trailer => by rw [trailer]; rfl,fun line single => ?_,fun unwhole unnamed line single => ?_⟩
  · exact finds_trailer name some guarded single
  · exact finds_trailer_prefixed name some guarded unwhole unnamed single

theorem trailer_selects_exact_marks :
    IsPlain "post.title".toList ∧ ["x".toList,"[a]*\\".toList] ≠ [] ∧
    (∀ value ∈ ["x".toList,"[a]*\\".toList], IsGuarded value) ∧
    role "post.title".toList = .trailer ∧ trailerPattern "post.title".toList ["x".toList,"[a]*\\".toList] =
      "^(X-VP-|VP-)post\\.title: (x|\\[a].*\\\\)$".toList ∧
    Ere.Finds "^(X-VP-|VP-)post\\.title: (x|\\[a].*\\\\)$".toList "X-VP-post.title: [a] | b\\".toList := by
  have name : IsPlain "post.title".toList := by decide
  have guarded : ∀ value ∈ ["x".toList,"[a]*\\".toList], IsGuarded value := by decide
  have opening : Opening "post.title".toList "X-VP-".toList :=
    ⟨fun whole => absurd (Text.begins_exact.mp whole) (by decide),
      fun named => absurd (Text.begins_exact.mp named) (by decide),fun _ _ => .inl rfl⟩
  have globbed : Pieces Text.StarCovers "[a]*\\".toList "[a] | b\\".toList := by
    refine ⟨["[".toList,"a".toList,"]".toList," | b".toList,"\\".toList],?_,rfl⟩
    exact .cons (fun _ => rfl) (.cons (fun _ => rfl) (.cons (fun _ => rfl)
      (.cons (fun other => absurd rfl other) (.cons (fun _ => rfl) .nil))))
  have lines := (trailer_selects_exact name (List.cons_ne_nil "x".toList ["[a]*\\".toList]) guarded).2.1
  refine ⟨name,List.cons_ne_nil _ _,guarded,rfl,rfl,(lines _ (by decide)).mpr ?_⟩
  exact ⟨_,"[a] | b\\".toList,rfl,opening,_,List.mem_cons_of_mem _ List.mem_cons_self,globbed⟩

end History
end FieldedSearch
