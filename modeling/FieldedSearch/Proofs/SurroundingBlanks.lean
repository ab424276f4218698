import FieldedSearch.Proofs.Covering
import FieldedSearch.Rule

namespace FieldedSearch.Clause
open Text (OnlyBlank)

variable {delimiter : Char} {body value gap lead trail : Text} {quote : Quote}

theorem Quoted.closes (quoted : Quoted delimiter body value) : delimiter ∈ body := by
  induction quoted with
  | closed => exact List.mem_cons_self
  | escaped _ ih => exact List.mem_cons_of_mem _ (List.mem_cons_of_mem _ ih)
  | pair _ _ ih => exact List.mem_cons_of_mem _ (List.mem_cons_of_mem _ ih)
  | char _ _ _ ih => exact List.mem_cons_of_mem _ ih

theorem takeQuoted_absent {s : Text} (absent : delimiter ∉ s) : takeQuoted delimiter s = none := by
  cases read : takeQuoted delimiter s with
  | none => rfl
  | some closed =>
      obtain ⟨value,rest⟩ := closed
      obtain ⟨body,quoted,rfl⟩ := takeQuoted_sound read
      exact absurd (List.mem_append_left _ quoted.closes) absent

-- A gap behind the text, for each reader in turn.

variable (blank : OnlyBlank gap)
include blank

-- A run of characters none of which is blank stops at the gap, if it gets there.
theorem run_behind {p : Char → Bool} (solid : ∀ c, p c = true → isBlank c = false) (s : Text) :
    (s ++ gap).takeWhile p = s.takeWhile p ∧ (s ++ gap).dropWhile p = s.dropWhile p ++ gap := by
  induction s with
  | nil =>
      cases gap with
      | nil => exact ⟨rfl,rfl⟩
      | cons d r => simp [Text.stopped_by_blank solid (blank d List.mem_cons_self)]
  | cons c r ih =>
      cases inside : p c with
      | false => simp [inside]
      | true => simpa [inside] using ih

theorem takeNegation_behind (s : Text) :
    takeNegation (s ++ gap) = ((takeNegation s).1,(takeNegation s).2 ++ gap) := by
  match s with
  | [] =>
      cases gap with
      | nil => rfl
      | cons d r =>
          have other : d ≠ '-' := by rintro rfl; cases blank _ List.mem_cons_self
          simp [takeNegation,other]
  | [c] =>
      cases gap with
      | nil => simp [takeNegation]
      | cons d r =>
          by_cases dash : c = '-'
          · simp [takeNegation,dash,blank d List.mem_cons_self]
          · simp [takeNegation,dash]
  | c :: d :: r =>
      by_cases dash : c = '-'
      · simp only [takeNegation,dash,List.cons_append]
        split <;> rfl
      · simp [takeNegation,dash]

theorem takeName_behind (s : Text) : takeName (s ++ gap) = ((takeName s).1,(takeName s).2 ++ gap) := by
  cases s with
  | nil =>
      cases gap with
      | nil => rfl
      | cons d r => simp [takeName,Text.stopped_by_blank isNameStart_solid (blank d List.mem_cons_self)]
  | cons c r =>
      obtain ⟨taken,left⟩ := run_behind blank isNameChar_solid r
      simp only [List.cons_append,takeName,taken,left]
      split <;> rfl

-- The gap closes nothing, not even where the text ends in a backslash that takes the first blank for its pair.
theorem takeQuoted_behind (closing : quote.delimiter = some delimiter) (s : Text) :
    takeQuoted delimiter (s ++ gap) = (takeQuoted delimiter s).map fun (value,rest) => (value,rest ++ gap) := by
  have absent : delimiter ∉ gap := by
    intro member
    have space := blank delimiter member
    rw [(delimiter_solid closing).1] at space
    cases space
  fun_induction takeQuoted delimiter s with
  | case1 => exact takeQuoted_absent absent
  | case2 c r ih =>
      simp only [List.cons_append,takeQuoted,ih,Option.map_map]
      rfl
  | case3 r unpaired =>
      rw [List.cons_append,takeQuoted.eq_3 _ _ _ fun _ _ single => absurd single (delimiter_solid closing).2,if_pos rfl]
      rfl
  | case4 c r unpaired other ih =>
      by_cases single : c = '\\'
      · -- Nothing stood behind this backslash, so all that stands there now is the gap.
        have last : r = [] := by
          cases r with
          | nil => rfl
          | cons d t => exact (unpaired d t single rfl).elim
        subst last
        rw [takeQuoted_absent (by simpa [Ne.symm other] using absent)]
        rfl
      · rw [List.cons_append,takeQuoted.eq_3 _ _ _ fun _ _ same => absurd same single,if_neg other,ih,Option.map_map,
          Option.map_map]
        rfl

theorem takeBare_behind (s : Text) : takeBare (s ++ gap) = ((takeBare s).1,(takeBare s).2 ++ gap) := by
  obtain ⟨taken,left⟩ := run_behind blank (p := fun c => !isBlank c) (by simp) s
  rw [takeBare,taken,left]
  rfl

theorem openingQuote_behind (s : Text) : openingQuote (s ++ gap) = openingQuote s := by
  cases s with
  | nil =>
      cases gap with
      | nil => rfl
      | cons d r =>
          have space : isBlank d = true := blank d List.mem_cons_self
          refine openingQuote_bare ?_ ?_ <;> rintro ⟨⟩ <;> cases space
  | cons c r => exact openingQuote_append c r gap

theorem takeValue_behind (s : Text) : takeValue (s ++ gap) = ((takeValue s).1,(takeValue s).2 ++ gap) := by
  simp only [takeValue,openingQuote_behind blank,takeBare_behind blank]
  cases closing : (openingQuote s).delimiter with
  | none => rfl
  | some delimiter =>
      have opened := openingQuote_cons closing
      have tail : (s ++ gap).tail = s.tail ++ gap := by rw [opened]; rfl
      rw [Option.bind_some,Option.bind_some,tail,takeQuoted_behind blank closing]
      cases takeQuoted delimiter s.tail <;> rfl

theorem startsClause_behind (s : Text) : startsClause (s ++ gap) = startsClause s := by
  simp only [startsClause,takeNegation_behind blank,takeName_behind blank]
  cases (takeName s).2 with
  | cons c r => rfl
  | nil =>
      cases gap with
      | nil => rfl
      | cons d r =>
          have other : d ≠ ':' := by rintro rfl; cases blank _ List.mem_cons_self
          simp [other]

-- A label or a name with only blanks behind it is still without a value.
theorem afterLabel_behind (s : Text) : afterLabel (s ++ gap) = (afterLabel s).map (· ++ gap) := by
  cases s with
  | nil =>
      cases gap with
      | nil => rfl
      | cons d r =>
          have gone := (Text.dropBlank_eq_nil r).mpr fun c member => blank c (List.mem_cons_of_mem _ member)
          simp [afterLabel,gone]
  | cons c r =>
      simp only [List.cons_append,afterLabel,Text.dropBlank_append_blank blank]
      cases Text.dropBlank r with
      | nil => simp
      | cons d t =>
          have looked := startsClause_behind blank (d :: t)
          simp only [List.isEmpty_cons,Bool.false_eq_true,if_false,List.cons_append,Bool.false_or] at looked ⊢
          rw [looked]
          split
          · rfl
          · split
            · split <;> rfl
            · rfl

theorem takeLabel_behind (s : Text) :
    takeLabel (s ++ gap) = (takeLabel s).map fun (name,value) => (name,value ++ gap) := by
  simp only [takeLabel,takeName_behind blank,afterLabel_behind blank]
  split
  · rfl
  · rw [Option.map_map,Option.map_map]
    rfl

theorem take_behind (s : Text) : take (s ++ gap) = ((take s).1,(take s).2 ++ gap) := by
  simp only [take,takeNegation_behind blank,takeLabel_behind blank]
  cases takeLabel (takeNegation s).2 with
  | none => simp only [Option.map_none,takeValue_behind blank]
  | some label => simp only [Option.map_some,takeValue_behind blank]

theorem scan_behind (s : Text) : scan (s ++ gap) = scan s := by
  fun_induction scan s with
  | case1 s ends => exact scan_end (by rw [Text.dropBlank_append_blank blank,ends]; rfl)
  | case2 s c r begins ih =>
      have step : Text.dropBlank (s ++ gap) = c :: (r ++ gap) := by rw [Text.dropBlank_append_blank blank,begins]; rfl
      rw [scan_step step,← List.cons_append,take_behind blank,ih]

omit blank

theorem scan_surrounded (front : OnlyBlank lead) (behind : OnlyBlank trail) (query : Text) :
    scan (lead ++ query ++ trail) = scan query ∧
    ∀ allowEmpty, Rule.parse? allowEmpty (lead ++ query ++ trail) = Rule.parse? allowEmpty query := by
  have scanned : scan (lead ++ query ++ trail) = scan query := by
    rw [scan_behind behind,scan_blank front]
  refine ⟨scanned,?_⟩
  intro allowEmpty
  rw [Rule.parse?,Rule.parse?,scanned]

-- The quote stays open, although its last backslash has a blank to take now.
theorem scan_surrounded_open_quote :
    OnlyBlank "\t".toList ∧ OnlyBlank " \n".toList ∧
    scan ("\t".toList ++ "-b: \"a\\".toList ++ " \n".toList) = [⟨true,some ['b'],"\"a\\".toList,.bare⟩] ∧
    ∀ allowEmpty, Rule.parse? allowEmpty ("\t".toList ++ "-b: \"a\\".toList ++ " \n".toList) =
      Rule.parse? allowEmpty "-b: \"a\\".toList := by
  have front : OnlyBlank "\t".toList := by decide
  have behind : OnlyBlank " \n".toList := by decide
  obtain ⟨scanned,parsed⟩ := scan_surrounded front behind "-b: \"a\\".toList
  exact ⟨front,behind,scanned.trans (by decide +kernel),parsed⟩

end FieldedSearch.Clause
