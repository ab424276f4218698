import FieldedSearch.Proofs.ActionBlock
import FieldedSearch.Proofs.PatternReading

namespace FieldedSearch

open Ere (Stands)
open Text (Pieces)

variable {value s t : Text} {language other : Text → Prop}

def Text.Unbracketed (s : Text) : Prop := '<' ∉ s ∧ '>' ∉ s ∧ '\n' ∉ s

instance (s : Text) : Decidable s.Unbracketed := inferInstanceAs (Decidable (_ ∧ _ ∧ _))

namespace History

structure Identity where
  name : Text
  email : Text
  name_unbracketed : name.Unbracketed
  email_unbracketed : email.Unbracketed

namespace Identity

def line (identity : Identity) : Text := identity.name ++ " <".toList ++ identity.email ++ ['>']

-- What an author value asks for, read as a glob.
structure Meets (identity : Identity) (value : Text) : Prop where
  whole : '<' ∈ value → Pieces Text.StarCovers value identity.line
  email : '<' ∉ value → '@' ∈ value → Pieces Text.StarCovers value identity.email
  name : '<' ∉ value → '@' ∉ value → Pieces Text.StarCovers value identity.name

variable {identity : Identity}

theorem newline_line (identity : Identity) : '\n' ∉ identity.line := by
  simp [line,identity.name_unbracketed.2.2,identity.email_unbracketed.2.2]

-- The line has a single opening bracket, so there is one place to cut it.
theorem line_cut (same : identity.line = s ++ " <".toList ++ t ++ ['>']) : identity.name = s ∧ identity.email = t := by
  have whole : (identity.name ++ [' ']) ++ '<' :: (identity.email ++ ['>']) = (s ++ [' ']) ++ '<' :: (t ++ ['>']) := by
    simpa [line] using same
  have ahead : '<' ∉ identity.name ++ [' '] := by simp [identity.name_unbracketed.1]
  have behind : '<' ∉ identity.email ++ ['>'] := by simp [identity.email_unbracketed.1]
  obtain ⟨front,_,back⟩ := (List.append_cons_inj_of_notMem ahead behind).mp whole
  exact ⟨List.append_cancel_right front,List.append_cancel_right back⟩

theorem finds_parts (left : Stands s language) (right : Stands t other) (identity : Identity) :
    Ere.Finds ('^' :: (s ++ " <".toList ++ t ++ ['>']) ++ ['$']) identity.line ↔
      language identity.name ∧ other identity.email := by
  have opening : Stands " <".toList (· = " <".toList) := Stands.literal _ (by decide)
  have closing : Stands ['>'] (· = ['>']) := Stands.plain (by decide)
  rw [(((left.append opening).append right).append closing).finds_exact]
  constructor
  · intro found
    obtain ⟨_,_,whole,⟨_,email,rest,⟨name,_,front,named,mark⟩,mailed⟩,last⟩ := found
    rw [rest,front,mark,last] at whole
    obtain ⟨sameName,sameEmail⟩ := line_cut whole
    rw [sameName,sameEmail]
    exact ⟨named,mailed⟩
  · intro parts
    exact ⟨_,_,rfl,⟨_,_,rfl,⟨_,_,rfl,parts.1,rfl⟩,parts.2⟩,rfl⟩

theorem finds_whole (guarded : IsGuarded value) (identity : Identity) :
    Ere.Finds ('^' :: pattern value ++ ['$']) identity.line ↔ Pieces Text.StarCovers value identity.line :=
  ((stands_pattern guarded).finds_exact identity.line).trans (pieces_starCovers identity.newline_line)

theorem finds_email (guarded : IsGuarded value) (identity : Identity) :
    Ere.Finds ("^.* <".toList ++ pattern value ++ ">$".toList) identity.line ↔
      Pieces Text.StarCovers value identity.email := by
  have cut : "^.* <".toList ++ pattern value ++ ">$".toList =
      '^' :: (".*".toList ++ " <".toList ++ pattern value ++ ['>']) ++ ['$'] := by simp
  rw [cut,finds_parts Stands.any (stands_pattern guarded),pieces_starCovers identity.email_unbracketed.2.2]
  exact and_iff_right identity.name_unbracketed.2.2

theorem finds_name (guarded : IsGuarded value) (identity : Identity) :
    Ere.Finds ('^' :: pattern value ++ " <.*>$".toList) identity.line ↔
      Pieces Text.StarCovers value identity.name := by
  have cut : '^' :: pattern value ++ " <.*>$".toList =
      '^' :: (pattern value ++ " <".toList ++ ".*".toList ++ ['>']) ++ ['$'] := by simp
  rw [cut,finds_parts (stands_pattern guarded) Stands.any,pieces_starCovers identity.name_unbracketed.2.2]
  exact and_iff_left identity.email_unbracketed.2.2

theorem finds_author (guarded : IsGuarded value) (identity : Identity) :
    Ere.Finds (authorPattern value) identity.line ↔ identity.Meets value := by
  unfold authorPattern
  split
  · next bracket =>
      have inside : '<' ∈ value := List.contains_iff_mem.mp bracket
      rw [finds_whole guarded]
      exact ⟨fun globbed => ⟨fun _ => globbed,fun out => absurd inside out,fun out => absurd inside out⟩,
        fun meets => meets.whole inside⟩
  · next plain =>
      have outside : '<' ∉ value := fun inside => plain (List.contains_iff_mem.mpr inside)
      split
      · next sign =>
          have mailed : '@' ∈ value := List.contains_iff_mem.mp sign
          rw [finds_email guarded]
          exact ⟨fun globbed => ⟨fun inside => absurd inside outside,fun _ _ => globbed,fun _ out => absurd mailed out⟩,
            fun meets => meets.email outside mailed⟩
      · next unsigned =>
          have named : '@' ∉ value := fun mailed => unsigned (List.contains_iff_mem.mpr mailed)
          rw [finds_name guarded]
          exact ⟨fun globbed => ⟨fun inside => absurd inside outside,fun _ mailed => absurd mailed named,
            fun _ _ => globbed⟩,fun meets => meets.name outside named⟩

end Identity

def NamesAuthor (case : CaseMode) (rule : Rule) (value : Text) : Prop :=
  ∃ f ∈ rule.fields, case.apply f.name = "author".toList ∧ value ∈ f.values

theorem author_mem_arguments {options : HistoryOptions} {rule : Rule} (context : DateContext)
    (given : NamesAuthor options.case rule value) : .author (authorPattern value) ∈ arguments options context rule := by
  obtain ⟨f,member,named,inside⟩ := given
  refine ownArguments_mem (List.mem_flatMap.mpr ⟨f,member,?_⟩)
  rw [named]
  exact List.mem_map_of_mem inside

theorem author_selects_exact (guarded : IsGuarded value) :
    (∀ (options : HistoryOptions) (context : DateContext) (rule : Rule), NamesAuthor options.case rule value →
      .author (authorPattern value) ∈ arguments options context rule) ∧
    ∀ identity : Identity, Ere.Finds (authorPattern value) identity.line ↔ identity.Meets value := by
  refine ⟨fun options context rule given => author_mem_arguments context given,fun identity => ?_⟩
  exact identity.finds_author guarded

theorem author_selects_exact_email :
    IsGuarded "*.b@[c]".toList ∧
    NamesAuthor .preserve (.ofPairs [("author".toList,"Joe".toList),("author".toList,"*.b@[c]".toList)]) "*.b@[c]".toList ∧
    Argument.author "^.* <.*\\.b@\\[c]>$".toList ∈ arguments ⟨.preserve,false⟩ ⟨.unixEpoch,.utc⟩
      (.ofPairs [("author".toList,"Joe".toList),("author".toList,"*.b@[c]".toList)]) ∧
    Ere.Finds "^.* <.*\\.b@\\[c]>$".toList "Ann <a.b@[c]>".toList := by
  have guarded : IsGuarded "*.b@[c]".toList := by decide
  have given : NamesAuthor .preserve (.ofPairs [("author".toList,"Joe".toList),("author".toList,"*.b@[c]".toList)])
      "*.b@[c]".toList := ⟨_,List.mem_singleton_self _,rfl,by decide⟩
  let identity : Identity := ⟨"Ann".toList,"a.b@[c]".toList,by decide,by decide⟩
  have globbed : Pieces Text.StarCovers "*.b@[c]".toList "a.b@[c]".toList := by
    refine ⟨["a".toList,".".toList,"b".toList,"@".toList,"[".toList,"c".toList,"]".toList],?_,rfl⟩
    exact .cons (fun other => absurd rfl other) (.cons (fun _ => rfl) (.cons (fun _ => rfl) (.cons (fun _ => rfl)
      (.cons (fun _ => rfl) (.cons (fun _ => rfl) (.cons (fun _ => rfl) .nil))))))
  obtain ⟨argued,lines⟩ := author_selects_exact guarded
  refine ⟨guarded,given,argued ⟨.preserve,false⟩ ⟨.unixEpoch,.utc⟩ _ given,(lines identity).mpr ?_⟩
  exact ⟨fun inside => absurd inside (by decide),fun _ _ => globbed,fun _ out => absurd (by decide) out⟩

end History
end FieldedSearch
