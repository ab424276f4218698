import FieldedSearch.History
import FieldedSearch.Proofs.Digits

namespace FieldedSearch

theorem Text.substitute_absent {s : Text} {old : Char} (absent : old ∉ s) (new : Text) : s.substitute old new = s := by
  induction s with
  | nil => rfl
  | cons c r ih =>
      simp only [List.mem_cons,not_or] at absent
      have rest := ih absent.2
      simp only [substitute] at rest
      simp [substitute,Ne.symm absent.1,rest]

theorem Date.text_chars (d : Date) : ∀ c ∈ d.text, c.isDigit = true ∨ c = '-' := by
  intro c member
  simp only [Date.text,List.mem_append,List.mem_cons] at member
  rcases member with (year | rfl | month) | rfl | day
  · split at year
    · rcases List.mem_cons.mp year with rfl | digit
      · exact .inr rfl
      · exact .inl (Text.padded_digits _ _ c digit)
    · exact .inl (Text.padded_digits _ _ c year)
  · exact .inr rfl
  · exact .inl (Text.padded_digits _ _ c month)
  · exact .inr rfl
  · exact .inl (Text.padded_digits _ _ c day)

theorem Date.text_absent (d : Date) {c : Char} (other : c.isDigit = false ∧ c ≠ '-') : c ∉ d.text := by
  intro member
  rcases d.text_chars c member with digit | dash
  · exact Bool.false_ne_true (other.1.symm.trans digit)
  · exact other.2 dash

theorem Date.text_unquoted (d : Date) : '"' ∉ d.text := d.text_absent (by decide)

namespace History

def afterMark? (mark s : Text) : Option Text := if mark.isPrefixOf s then some (s.drop mark.length) else none

def dayWith? (clock s : Text) : Option Date :=
  (Moment.takeDate s).bind fun (day,rest) => if rest = clock then some day else none

def readDay? (alone timed : Date → DateBound) (clock : Text) : Text → Option DateBound
  | '"' :: s => (dayWith? (clock ++ ['"']) s).map timed
  | s => (dayWith? [] s).map alone

-- A day alone is excluded. The first and the last second include theirs.
def readBound? (argument : Text) : Option DateBound :=
  match afterMark? "--after=".toList argument with
  | some s => readDay? .after .fromStart " 00:00:00".toList s
  | none => (afterMark? "--before=".toList argument).bind (readDay? .before .toEnd " 23:59:59".toList)

theorem afterMark?_append (mark s : Text) : afterMark? mark (mark ++ s) = some s := by
  simp [afterMark?]

theorem dayWith?_text (d : Date) (clock : Text) : dayWith? clock (d.text ++ clock) = some d := by
  simp [dayWith?,Moment.takeDate_text]

variable {alone timed : Date → DateBound} {clock : Text}

theorem readDay?_alone (d : Date) : readDay? alone timed clock d.text = some (alone d) := by
  have read := dayWith?_text d []
  rw [List.append_nil] at read
  unfold readDay?
  split
  · next s same => exact absurd (same ▸ List.mem_cons_self) d.text_unquoted
  · rw [read]; rfl

theorem readDay?_timed (d : Date) (unquoted : '"' ∉ clock) :
    readDay? alone timed clock (quote (d.text ++ clock)) = some (timed d) := by
  have absent : '"' ∉ d.text ++ clock := by simp [d.text_unquoted,unquoted]
  have read := dayWith?_text d (clock ++ ['"'])
  rw [← List.append_assoc] at read
  rw [quote,Text.substitute_absent absent]
  simp only [List.cons_append,readDay?]
  rw [read]
  rfl

theorem readBound?_after (s : Text) :
    readBound? ("--after=".toList ++ s) = readDay? .after .fromStart " 00:00:00".toList s := by
  unfold readBound?
  rw [afterMark?_append]

theorem readBound?_before (s : Text) :
    readBound? ("--before=".toList ++ s) = readDay? .before .toEnd " 23:59:59".toList s := by
  have other : afterMark? "--after=".toList ("--before=".toList ++ s) = none := rfl
  unfold readBound?
  rw [other,afterMark?_append]
  rfl

theorem readBound?_text (bound : DateBound) : readBound? bound.text = some bound := by
  cases bound with
  | after d => exact (readBound?_after _).trans (readDay?_alone d)
  | before d => exact (readBound?_before _).trans (readDay?_alone d)
  | fromStart d => exact (readBound?_after _).trans (readDay?_timed d (by decide))
  | toEnd d => exact (readBound?_before _).trans (readDay?_timed d (by decide))

end History
end FieldedSearch
