import FieldedSearch.Glob

namespace FieldedSearch.Glob

variable {tokens : List Token} {text s : Text} {c : Char}

theorem matches_nil_exact : Matches [] s ↔ s = [] := by
  constructor
  · rintro ⟨⟩; rfl
  · rintro rfl; exact .done

theorem matches_wildcard_exact :
    Matches (.wildcard :: tokens) s ↔ ∃ run rest, s = run ++ rest ∧ '\n' ∉ run ∧ Matches tokens rest := by
  constructor
  · rintro (_ | ⟨line,later⟩); exact ⟨_,_,rfl,line,later⟩
  · rintro ⟨run,rest,rfl,line,later⟩; exact .wildcard line later

theorem matches_literal_exact :
    Matches (.literal text :: tokens) s ↔ ∃ rest, s = text ++ rest ∧ Matches tokens rest := by
  constructor
  · rintro (_ | _ | later); exact ⟨_,rfl,later⟩
  · rintro ⟨rest,rfl,later⟩; exact .literal later

theorem matches_wildcard_cons : Matches (.wildcard :: tokens) (c :: s) ↔
    Matches tokens (c :: s) ∨ c ≠ '\n' ∧ Matches (.wildcard :: tokens) s := by
  constructor
  · intro whole
    obtain ⟨run,rest,cut,line,later⟩ := matches_wildcard_exact.mp whole
    cases run with
    | nil => exact .inl (cut ▸ later)
    | cons d r =>
        obtain ⟨rfl,rfl⟩ := List.cons.inj cut
        simp only [List.mem_cons,not_or] at line
        exact .inr ⟨Ne.symm line.1,.wildcard line.2 later⟩
  · rintro (later | ⟨inside,more⟩)
    · exact matches_wildcard_exact.mpr ⟨[],_,rfl,List.not_mem_nil,later⟩
    · obtain ⟨run,rest,rfl,line,later⟩ := matches_wildcard_exact.mp more
      exact matches_wildcard_exact.mpr ⟨c :: run,rest,rfl,by simp [Ne.symm inside,line],later⟩

theorem matches_wildcard_nil : Matches (.wildcard :: tokens) [] ↔ Matches tokens [] := by
  constructor
  · intro whole
    obtain ⟨run,rest,cut,_,later⟩ := matches_wildcard_exact.mp whole
    obtain ⟨rfl,rfl⟩ := List.append_eq_nil_iff.mp cut.symm
    exact later
  · intro later
    exact matches_wildcard_exact.mpr ⟨[],_,rfl,List.not_mem_nil,later⟩

-- One entry for each suffix, that of the whole text first.
def Answers (holds : Text → Prop) : Text → List Bool → Prop
  | [],[entry] => entry = true ↔ holds []
  | c :: s,entry :: later => (entry = true ↔ holds (c :: s)) ∧ Answers holds s later
  | _,_ => False

theorem answers_head {holds : Text → Prop} {entries : List Bool} (answers : Answers holds s entries) :
    entries.headD false = true ↔ holds s := by
  cases s with
  | nil => match entries with
    | [entry] => exact answers
    | [] => cases answers
    | _ :: _ :: _ => cases answers
  | cons c s => cases entries with
    | nil => cases answers
    | cons entry later => exact answers.1

theorem endTable_answers (s : Text) : Answers (Matches []) s (endTable s) := by
  induction s with
  | nil => exact iff_of_true rfl .done
  | cons c s ih => exact ⟨by simp [matches_nil_exact],ih⟩

theorem wildcardTable_answers {entries : List Bool} (answers : Answers (Matches tokens) s entries) :
    Answers (Matches (.wildcard :: tokens)) s (wildcardTable s entries) := by
  induction s generalizing entries with
  | nil => match entries with
    | [entry] => exact answers.trans matches_wildcard_nil.symm
    | [] => cases answers
    | _ :: _ :: _ => cases answers
  | cons c s ih => cases entries with
    | nil => cases answers
    | cons entry later =>
        have rest := ih answers.2
        refine ⟨?_,rest⟩
        rw [matches_wildcard_cons,← answers.1,← answers_head rest]
        simp

theorem literalEntry_exact {entries : List Bool} (answers : Answers (Matches tokens) s entries) :
    literalEntry text s entries = true ↔ Matches (.literal text :: tokens) s := by
  rw [matches_literal_exact]
  induction text generalizing s entries with
  | nil =>
      have first := answers_head answers
      cases entries with
      | nil => cases s <;> cases answers
      | cons entry later => simpa [literalEntry] using first
  | cons d text ih =>
      cases s with
      | nil => simp [literalEntry]
      | cons c s => cases entries with
        | nil => cases answers
        | cons entry later =>
            simp only [literalEntry,Bool.and_eq_true,decide_eq_true_eq,ih answers.2,List.cons_append,List.cons.injEq]
            constructor
            · rintro ⟨rfl,rest,cut,later⟩; exact ⟨rest,⟨rfl,cut⟩,later⟩
            · rintro ⟨rest,⟨rfl,cut⟩,later⟩; exact ⟨rfl,rest,cut,later⟩

theorem literalTable_answers {entries : List Bool} (answers : Answers (Matches tokens) s entries) :
    Answers (Matches (.literal text :: tokens)) s (literalTable text s entries) := by
  induction s generalizing entries with
  | nil => exact literalEntry_exact answers
  | cons c s ih => cases entries with
    | nil => cases answers
    | cons entry later => exact ⟨literalEntry_exact answers,ih answers.2⟩

theorem table_answers (tokens : List Token) (s : Text) : Answers (Matches tokens) s (table tokens s) := by
  induction tokens with
  | nil => exact endTable_answers s
  | cons token tokens ih => cases token with
    | wildcard => exact wildcardTable_answers ih
    | literal text => exact literalTable_answers ih

theorem accepts_exact (tokens : List Token) (s : Text) : accepts tokens s = true ↔ Matches tokens s :=
  answers_head (table_answers tokens s)

end FieldedSearch.Glob
