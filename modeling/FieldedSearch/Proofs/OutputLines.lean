import FieldedSearch.CommandLine.Run

namespace FieldedSearch.CommandLine

variable {s rest : Text} {texts : List Text}

-- After the last newline there is a piece only if something stands there.
def cutLines : Text → List Text
  | [] => []
  | c :: r =>
      if c = '\n' then ['\n'] :: cutLines r
      else
        match cutLines r with
        | [] => [[c]]
        | first :: others => (c :: first) :: others

def ended (s : Text) : Text := s ++ ['\n']

theorem cutLines_newline (r : Text) : cutLines ('\n' :: r) = ['\n'] :: cutLines r := if_pos rfl

theorem lines_cons (s : Text) (texts : List Text) : lines (s :: texts) = s ++ '\n' :: lines texts := by
  rw [lines,List.flatMap_cons,List.append_assoc]
  rfl

theorem lines_singleton (s : Text) : lines [s] = ended s := lines_cons s []

theorem cutLines_line (unbroken : '\n' ∉ s) (rest : Text) : cutLines (s ++ '\n' :: rest) = ended s :: cutLines rest := by
  induction s with
  | nil => exact cutLines_newline rest
  | cons c r ih =>
      rw [List.mem_cons,not_or] at unbroken
      rw [List.cons_append,cutLines,if_neg (Ne.symm unbroken.1),ih unbroken.2]
      rfl

theorem length_cutLines (s rest : Text) :
    (cutLines (s ++ '\n' :: rest)).length = s.count '\n' + 1 + (cutLines rest).length := by
  induction s with
  | nil => rw [List.nil_append,cutLines_newline,List.length_cons,List.count_nil]; omega
  | cons c r ih =>
      rw [List.cons_append,cutLines]
      by_cases newline : c = '\n'
      · subst newline
        rw [if_pos rfl,List.length_cons,ih,List.count_cons_self]
        omega
      · rw [if_neg newline,List.count_cons_of_ne (by simpa using newline),← ih]
        cases cut : cutLines (r ++ '\n' :: rest) with
        | nil => rw [cut,List.length_nil] at ih; omega
        | cons => rfl

theorem length_le_cutLines (texts : List Text) : texts.length ≤ (cutLines (lines texts)).length := by
  induction texts with
  | nil => exact Nat.zero_le _
  | cons s texts ih =>
      rw [lines_cons,length_cutLines,List.length_cons]
      omega

theorem cutLines_lines (unbroken : ∀ s ∈ texts, '\n' ∉ s) : cutLines (lines texts) = texts.map ended := by
  induction texts with
  | nil => rfl
  | cons s texts ih =>
      obtain ⟨first,later⟩ := List.forall_mem_cons.mp unbroken
      rw [lines_cons,cutLines_line first,ih later]
      rfl

theorem cutLines_exact (texts : List Text) :
    (cutLines (lines texts)).length = texts.length ↔ ∀ s ∈ texts, '\n' ∉ s := by
  induction texts with
  | nil => exact iff_of_true rfl fun s member => absurd member List.not_mem_nil
  | cons s texts ih =>
      have least := length_le_cutLines texts
      rw [List.forall_mem_cons,← ih,← List.count_eq_zero,lines_cons,length_cutLines,List.length_cons]
      omega

end FieldedSearch.CommandLine
