import FieldedSearch.Text

namespace FieldedSearch.Text

variable {mark c : Char} {s t : Text}

def endingRun (s : Text) : Nat := (s.reverse.takeWhile (· = '\\')).length

-- Every run of backslashes right before the mark, or at the end, is even.
def EvenRuns (mark : Char) (s : Text) : Prop :=
  ∀ before after, s = before ++ after → (∀ c ∈ after.head?, c = mark) → endingRun before % 2 = 0

-- From the front: no backslash takes the mark or the end along.
inductive Paired (mark : Char) : Text → Prop where
  | nil : Paired mark []
  | pair {c : Char} {s : Text} : c ≠ mark → Paired mark s → Paired mark ('\\' :: c :: s)
  | char {c : Char} {s : Text} : c ≠ '\\' → Paired mark s → Paired mark (c :: s)

theorem endingRun_front (front s : Text) :
    endingRun (front ++ s) = endingRun s ∨ endingRun (front ++ s) = endingRun s + endingRun front := by
  simp only [endingRun,List.reverse_append,List.takeWhile_append]
  split
  · next whole => exact .inr (by rw [List.length_append,whole])
  · exact .inl rfl

theorem endingRun_char (other : c ≠ '\\') (s : Text) : endingRun (c :: s) = endingRun s := by
  have alone : endingRun [c] = 0 := by simp [endingRun,other]
  rcases endingRun_front [c] s with behind | both
  · exact behind
  · rw [alone] at both
    exact both

theorem endingRun_pair (c : Char) (s : Text) : endingRun ('\\' :: c :: s) % 2 = endingRun s % 2 := by
  have alone : endingRun ['\\',c] % 2 = 0 := by
    by_cases single : c = '\\' <;> simp [endingRun,single]
  rcases endingRun_front ['\\',c] s with behind | both
  · exact congrArg (· % 2) behind
  · change endingRun (['\\',c] ++ s) % 2 = _
    omega

theorem evenRuns_char (other : c ≠ '\\') : EvenRuns mark (c :: s) ↔ EvenRuns mark s := by
  constructor
  · intro even before after cut free
    have run := even (c :: before) after (congrArg (c :: ·) cut) free
    rwa [endingRun_char other] at run
  · intro even before after cut free
    cases before with
    | nil => rfl
    | cons d before =>
        obtain ⟨rfl,rest⟩ := List.cons.inj cut
        rw [endingRun_char other]
        exact even before after rest free

theorem evenRuns_pair (other : c ≠ mark) : EvenRuns mark ('\\' :: c :: s) ↔ EvenRuns mark s := by
  constructor
  · intro even before after cut free
    have run := even ('\\' :: c :: before) after (congrArg ('\\' :: c :: ·) cut) free
    rwa [endingRun_pair] at run
  · intro even before after cut free
    cases before with
    | nil => rfl
    | cons d before =>
        obtain ⟨rfl,behind⟩ := List.cons.inj cut
        cases before with
        -- Between the two there would have to be the mark.
        | nil =>
            have begins : after = c :: s := behind.symm
            exact absurd (free c (by rw [begins]; rfl)) other
        | cons e before =>
            obtain ⟨rfl,rest⟩ := List.cons.inj behind
            rw [endingRun_pair]
            exact even before after rest free

theorem EvenRuns.unended (even : EvenRuns mark s) : s ≠ ['\\'] := by
  intro alone
  exact absurd (even ['\\'] [] alone (by simp)) (by decide)

theorem EvenRuns.unmarked (even : EvenRuns mark ('\\' :: c :: s)) : c ≠ mark := by
  intro marked
  exact absurd (even ['\\'] (c :: s) rfl (by simp [marked])) (by decide)

theorem EvenRuns.paired : ∀ s, EvenRuns mark s → Paired mark s
  | [],_ => .nil
  | [_],even => .char (fun single => even.unended (congrArg (fun c => [c]) single)) .nil
  | c :: d :: s,even => by
      by_cases single : c = '\\'
      · subst single
        exact .pair even.unmarked (paired s ((evenRuns_pair even.unmarked).mp even))
      · exact .char single (paired (d :: s) ((evenRuns_char single).mp even))

theorem evenRuns_exact : EvenRuns mark s ↔ Paired mark s := by
  constructor
  · exact EvenRuns.paired s
  · intro paired
    induction paired with
    | nil =>
        intro before after cut _
        rw [(List.append_eq_nil_iff.mp cut.symm).1]
        rfl
    | pair other _ ih => exact (evenRuns_pair other).mpr ih
    | char other _ ih => exact (evenRuns_char other).mpr ih

theorem Paired.append (left : Paired mark s) (right : Paired mark t) : Paired mark (s ++ t) := by
  induction left with
  | nil => exact right
  | pair other _ ih => exact .pair other ih
  | char other _ ih => exact .char other ih

theorem paired_of_absent (absent : '\\' ∉ s) : Paired mark s := by
  induction s with
  | nil => exact .nil
  | cons c s ih =>
      simp only [List.mem_cons,not_or] at absent
      exact .char (Ne.symm absent.1) (ih absent.2)

end FieldedSearch.Text
