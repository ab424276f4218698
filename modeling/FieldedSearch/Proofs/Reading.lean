import FieldedSearch.Clause
import FieldedSearch.Proofs.Blank

namespace FieldedSearch

open Text (OnlyBlank StartsSolid EndsWord)

theorem isNameChar_or (c : Char) : isNameChar c = (isNameStart c || c = '-') := rfl

theorem isFieldName_cons (c : Char) (r : Text) :
    IsFieldName (c :: r) ↔ isNameStart c = true ∧ ∀ d ∈ r, isNameChar d = true := by
  constructor
  · intro named
    obtain ⟨_,_,same,starts,inside⟩ := named
    cases same
    exact ⟨starts,inside⟩
  · intro named
    exact ⟨c,r,rfl,named⟩

theorem IsFieldName.chars {name : Text} (named : IsFieldName name) : ∀ c ∈ name, isNameChar c = true := by
  obtain ⟨c,r,rfl,starts,later⟩ := named
  refine List.forall_mem_cons.mpr ⟨?_,later⟩
  rw [isNameChar_or,starts,Bool.true_or]

theorem IsFieldName.filled {name : Text} (named : IsFieldName name) : name.isEmpty = false := by
  obtain ⟨c,r,rfl,_⟩ := named
  rfl

instance (s : Text) : Decidable (IsFieldName s) :=
  match s with
  | [] => isFalse fun named => by obtain ⟨c,r,same,_⟩ := named; cases same
  | c :: r => decidable_of_iff (isNameStart c = true ∧ r.all isNameChar = true)
      (by rw [isFieldName_cons,List.all_eq_true])

namespace Clause

-- The body of a quoted value with its closing delimiter, and the value that it stands for. A pair that starts with a
-- backslash never closes, so the body ends at the first delimiter outside such pairs.
inductive Quoted (delimiter : Char) : Text → Text → Prop where
  | closed : Quoted delimiter [delimiter] []
  | escaped {body value : Text} : Quoted delimiter body value →
      Quoted delimiter ('\\' :: delimiter :: body) (delimiter :: value)
  | pair {c : Char} {body value : Text} : c ≠ delimiter → Quoted delimiter body value →
      Quoted delimiter ('\\' :: c :: body) ('\\' :: c :: value)
  | char {c : Char} {body value : Text} : c ≠ delimiter → c ≠ '\\' → Quoted delimiter body value →
      Quoted delimiter (c :: body) (c :: value)

-- The source of a value, with the text behind it, since a bare word reaches up to a blank or the end.
inductive ValueSource : Text → Quote → Text → Text → Prop where
  | quoted {quote : Quote} {delimiter : Char} {body value rest : Text} : quote.delimiter = some delimiter →
      Quoted delimiter body value → ValueSource value quote (delimiter :: body) rest
  | bare {word rest : Text} : word ≠ [] → (∀ c ∈ word, isBlank c = false) → EndsWord rest →
      ValueSource word .bare word rest

variable {c delimiter : Char} {s r source rest body gap word value name left : Text}
variable {field : Option Text} {quote : Quote}

theorem takeQuoted_sound (closed : takeQuoted delimiter s = some (value,rest)) :
    ∃ body, Quoted delimiter body value ∧ s = body ++ rest := by
  fun_induction takeQuoted delimiter s generalizing value rest with
  | case1 => simp at closed
  | case2 c r ih =>
      obtain ⟨⟨inner,left⟩,read,same⟩ := Option.map_eq_some_iff.mp closed
      obtain ⟨body,quoted,rfl⟩ := ih read
      cases same
      by_cases ends : c = delimiter
      · subst c
        exact ⟨_,by rw [if_pos rfl]; exact .escaped quoted,rfl⟩
      · exact ⟨_,by rw [if_neg ends]; exact .pair ends quoted,rfl⟩
  | case3 r _ =>
      cases closed
      exact ⟨_,.closed,rfl⟩
  | case4 c r single other ih =>
      obtain ⟨⟨inner,left⟩,read,same⟩ := Option.map_eq_some_iff.mp closed
      obtain ⟨body,quoted,rfl⟩ := ih read
      cases same
      have plain : c ≠ '\\' := by
        rintro rfl
        cases quoted <;> exact single _ _ rfl rfl
      exact ⟨_,.char other plain quoted,rfl⟩

theorem takeQuoted_complete (plain : delimiter ≠ '\\') (quoted : Quoted delimiter body value) (rest : Text) :
    takeQuoted delimiter (body ++ rest) = some (value,rest) := by
  induction quoted with
  | closed =>
      rw [List.singleton_append,takeQuoted.eq_3 _ _ _ (fun _ _ same => absurd same plain)]
      simp
  | escaped _ ih => simp [takeQuoted,ih]
  | pair other _ ih => simp [takeQuoted,ih,other]
  | char other single _ ih =>
      rw [List.cons_append,takeQuoted.eq_3 _ _ _ (fun _ _ same => absurd same single)]
      simp [ih,other]

theorem delimiter_solid (closing : quote.delimiter = some delimiter) :
    isBlank delimiter = false ∧ delimiter ≠ '\\' := by
  cases quote <;> cases closing <;> decide

theorem ValueSource.solid (valued : ValueSource value quote source rest) : StartsSolid source := by
  cases valued with
  | quoted closing _ => exact ⟨_,_,rfl,(delimiter_solid closing).1⟩
  | bare filled solid _ =>
      cases source with
      | nil => exact absurd rfl filled
      | cons c r => exact ⟨c,r,rfl,solid c List.mem_cons_self⟩

theorem openingQuote_cons (closing : (openingQuote s).delimiter = some delimiter) : s = delimiter :: s.tail := by
  unfold openingQuote at closing
  split at closing <;> cases closing <;> rfl

theorem openingQuote_delimiter (closing : quote.delimiter = some delimiter) (r : Text) :
    openingQuote (delimiter :: r) = quote := by
  cases quote <;> cases closing <;> rfl

theorem openingQuote_bare (double : s.head? ≠ some '"') (single : s.head? ≠ some '\'') :
    openingQuote s = .bare := by
  unfold openingQuote
  split
  · exact absurd rfl double
  · exact absurd rfl single
  · rfl

theorem openingQuote_append (c : Char) (r rest : Text) : openingQuote (c :: r ++ rest) = openingQuote (c :: r) := by
  simp only [openingQuote,List.cons_append]
  split <;> split <;> simp_all

theorem takeBare_sound (solid : StartsSolid s) : ValueSource (takeBare s).1 .bare (takeBare s).1 (takeBare s).2 := by
  obtain ⟨c,r,rfl,word⟩ := solid
  refine .bare ?_ ?_ (Text.endsWord_dropWhile _)
  · simp [takeBare,word]
  · intro d member
    simpa using List.all_eq_true.mp (List.all_takeWhile (p := fun c => !isBlank c)) d member

theorem takeValue_sound (solid : StartsSolid s) :
    ∃ source, ValueSource (takeValue s).1.1 (takeValue s).1.2 source (takeValue s).2 ∧
      s = source ++ (takeValue s).2 := by
  simp only [takeValue]
  split
  · next value rest read =>
      obtain ⟨delimiter,closing,closed⟩ := Option.bind_eq_some_iff.mp read
      obtain ⟨body,quoted,same⟩ := takeQuoted_sound closed
      refine ⟨delimiter :: body,.quoted closing quoted,?_⟩
      rw [openingQuote_cons closing,same,List.cons_append]
  · exact ⟨_,takeBare_sound solid,List.takeWhile_append_dropWhile.symm⟩

theorem takeValue_quoted (closing : quote.delimiter = some delimiter) (quoted : Quoted delimiter body value)
    (rest : Text) : takeValue (delimiter :: body ++ rest) = ((value,quote),rest) := by
  have read := takeQuoted_complete (delimiter_solid closing).2 quoted rest
  simp [takeValue,openingQuote_delimiter closing,closing,read]

-- A word that opens with a quote is bare only if the quote is never closed, so completeness asks for another start.
theorem takeValue_bare (plain : openingQuote word = .bare) (filled : word ≠ [])
    (solid : ∀ c ∈ word, isBlank c = false) (ends : EndsWord rest) :
    takeValue (word ++ rest) = ((word,.bare),rest) := by
  have unquoted : openingQuote (word ++ rest) = .bare := by
    cases word with
    | nil => exact absurd rfl filled
    | cons c r => exact (openingQuote_append c r rest).trans plain
  have kept : ∀ c ∈ word, (!isBlank c) = true := fun c member => by simp [solid c member]
  have stopped : rest.takeWhile (fun c => !isBlank c) = [] ∧ rest.dropWhile (fun c => !isBlank c) = rest := by
    cases rest with
    | nil => simp
    | cons c r => simp [ends c r rfl]
  simp [takeValue,unquoted,Quote.delimiter,takeBare,List.takeWhile_append_of_pos kept,
    List.dropWhile_append_of_pos kept,stopped]

theorem takeName_sound (s : Text) :
    s = (takeName s).1 ++ (takeName s).2 ∧ ((takeName s).1.isEmpty = false → IsFieldName (takeName s).1) := by
  unfold takeName
  split
  · next c r =>
      split
      · next starts =>
          refine ⟨by simp [List.takeWhile_append_dropWhile],fun _ => ⟨c,_,rfl,starts,?_⟩⟩
          exact fun d member => List.all_eq_true.mp List.all_takeWhile d member
      · exact ⟨rfl,by simp⟩
  · exact ⟨rfl,by simp⟩

theorem takeName_complete (named : IsFieldName name) (ends : ∀ c r, rest = c :: r → isNameChar c = false) :
    takeName (name ++ rest) = (name,rest) := by
  obtain ⟨c,r,rfl,starts,inside⟩ := named
  have stopped : rest.takeWhile isNameChar = [] ∧ rest.dropWhile isNameChar = rest := by
    cases rest with
    | nil => simp
    | cons d t => simp [ends d t rfl]
  simp [takeName,starts,List.takeWhile_append_of_pos inside,List.dropWhile_append_of_pos inside,stopped]

theorem dropBlank_solid_of_filled (filled : (Text.dropBlank s).isEmpty = false) : StartsSolid (Text.dropBlank s) := by
  cases same : Text.dropBlank s with
  | nil => simp [same] at filled
  | cons c r => exact ⟨c,r,rfl,dropBlank_head s c r same⟩

-- What stands between a name and its value: a colon with any gap behind it, or a gap that is not empty.
def Separates (separator : Text) : Prop :=
  ∃ gap, OnlyBlank gap ∧ (separator = ':' :: gap ∨ separator = gap ∧ gap ≠ [])

theorem afterLabel_sound (found : afterLabel s = some left) :
    StartsSolid left ∧ ∃ separator, Separates separator ∧ s = separator ++ left := by
  cases s with
  | nil => simp [afterLabel] at found
  | cons c r =>
      obtain ⟨gap,blank,cut⟩ := Text.cut_blank r
      simp only [afterLabel] at found
      split at found
      · next colon =>
          split at found
          · cases found
          · next filled =>
              cases found
              refine ⟨dropBlank_solid_of_filled (by simpa using filled),_,⟨gap,blank,.inl rfl⟩,?_⟩
              rw [colon,List.cons_append,← cut]
      · split at found
        · next spaced =>
            split at found
            · cases found
            · next filled =>
                cases found
                simp only [Bool.or_eq_true,not_or,Bool.not_eq_true] at filled
                refine ⟨dropBlank_solid_of_filled filled.1,c :: gap,⟨c :: gap,?_,.inr ⟨rfl,by simp⟩⟩,?_⟩
                · intro d member
                  rcases List.mem_cons.mp member with rfl | inside
                  · exact spaced
                  · exact blank d inside
                · rw [List.cons_append,← cut]
        · cases found

theorem takeLabel_sound (found : takeLabel s = some (name,left)) :
    IsFieldName name ∧ StartsSolid left ∧ ∃ separator, Separates separator ∧ s = name ++ separator ++ left := by
  unfold takeLabel at found
  split at found
  · cases found
  · next filled =>
      obtain ⟨value,read,same⟩ := Option.map_eq_some_iff.mp found
      obtain ⟨solid,separator,separates,cut⟩ := afterLabel_sound read
      obtain ⟨whole,named⟩ := takeName_sound s
      cases same
      refine ⟨named (by simpa using filled),solid,separator,separates,?_⟩
      rw [List.append_assoc,← cut]
      exact whole

theorem takeLabel_colon (named : IsFieldName name) (blank : OnlyBlank gap) (solid : StartsSolid left) :
    takeLabel (name ++ ':' :: (gap ++ left)) = some (name,left) := by
  have read : takeName (name ++ ':' :: (gap ++ left)) = (name,':' :: (gap ++ left)) :=
    takeName_complete named (by rintro c r ⟨⟩; decide)
  have filled : left.isEmpty = false := by
    obtain ⟨c,r,rfl,_⟩ := solid
    rfl
  simp only [takeLabel,read,named.filled,filled,afterLabel,Text.dropBlank_append blank,Text.dropBlank_solid solid]
  rfl

theorem takeNegation_name (named : IsFieldName name) (rest : Text) :
    takeNegation (name ++ rest) = (false,name ++ rest) := by
  obtain ⟨c,r,rfl,starts,_⟩ := named
  have other : c ≠ '-' := by rintro rfl; revert starts; decide
  simp [takeNegation,other]

theorem take_colon (named : IsFieldName name) (blank : OnlyBlank gap) (solid : StartsSolid left)
    (valued : takeValue left = ((value,quote),rest)) :
    take (name ++ ':' :: (gap ++ left)) = (⟨false,some name,value,quote⟩,rest) := by
  simp only [take,takeNegation_name named,takeLabel_colon named blank solid,valued]

theorem scan_step (begins : Text.dropBlank s = c :: r) :
    scan s = (take (c :: r)).1 :: scan (take (c :: r)).2 := by
  rw [scan]
  split
  · next same => rw [begins] at same; cases same
  · next same => rw [begins] at same; cases same; rfl

theorem scan_end (ends : Text.dropBlank s = []) : scan s = [] := by
  rw [scan]
  split
  · rfl
  · next same => rw [ends] at same; cases same

theorem scan_solid (solid : StartsSolid s) : scan s = (take s).1 :: scan (take s).2 := by
  have begins := Text.dropBlank_solid solid
  obtain ⟨c,r,rfl,_⟩ := solid
  exact scan_step begins

theorem scan_blank (blank : OnlyBlank gap) (s : Text) : scan (gap ++ s) = scan s := by
  cases begins : Text.dropBlank s with
  | nil => rw [scan_end begins,scan_end (by rw [Text.dropBlank_append blank,begins])]
  | cons c r => rw [scan_step begins,scan_step (by rw [Text.dropBlank_append blank,begins])]

end Clause
end FieldedSearch
