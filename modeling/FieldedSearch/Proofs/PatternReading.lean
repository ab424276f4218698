import FieldedSearch.History.Pattern
import FieldedSearch.Proofs.ExtendedPattern
import FieldedSearch.Proofs.Pieces

namespace FieldedSearch

open Text (Pieces)

-- A value as a glob: a backslash is a character like any other here.
def Text.StarCovers (c : Char) (piece : Text) : Prop := c ≠ '*' → piece = [c]

namespace History

open Ere (Stands)

variable {c : Char} {value run : Text} {values : List Text}

-- Marks of an expression that values bring in unprotected.
def isPassed (c : Char) : Bool := "^+?()\x7b\x7d|".toList.contains c

def IsGuarded (value : Text) : Prop := ∀ c ∈ value, isPassed c = false

def IsPlain (value : Text) : Prop := ∀ c ∈ value, isPassed c = false ∧ c ≠ '*'

instance (value : Text) : Decidable (IsGuarded value) := List.decidableBAll _ value
instance (value : Text) : Decidable (IsPlain value) := List.decidableBAll _ value

def StarCoversLine (c : Char) (piece : Text) : Prop := if c = '*' then '\n' ∉ piece else piece = [c]

theorem isMark_cases (mark : Ere.isMark c = true) :
    (c = '\\' || c = '$' || c = '.' || c = '[') = true ∨ c = '*' ∨ isPassed c = true := by
  have all : "\\.[()*+?\x7b|^$".toList.all (fun c => (c = '\\' || c = '$' || c = '.' || c = '[') || (c = '*' || isPassed c)) =
      true := by decide
  have sorted := List.all_eq_true.mp all c (List.contains_iff_mem.mp mark)
  rcases (Bool.or_eq_true _ _).mp sorted with escaped | other
  · exact .inl escaped
  · exact .inr (((Bool.or_eq_true _ _).mp other).imp_left of_decide_eq_true)

theorem stands_patternChar (guarded : isPassed c = false) : Stands (patternChar c) (StarCoversLine c) := by
  unfold patternChar
  split
  · next escaped =>
      have mark : Ere.isMark c = true ∧ c ≠ '*' := by
        simp only [Bool.or_eq_true,decide_eq_true_eq] at escaped
        rcases escaped with ((same | same) | same) | same <;> subst same <;> decide
      exact (Stands.escaped mark.1).congr fun run => by simp [StarCoversLine,mark.2]
  · next unescaped =>
      split
      · next star => exact Stands.any.congr fun run => by simp [StarCoversLine,star]
      · next single =>
          have plain : Ere.isMark c = false := by
            rw [Bool.eq_false_iff]
            intro mark
            rcases isMark_cases mark with escaped | star | passed
            · exact unescaped escaped
            · exact single star
            · cases guarded.symm.trans passed
          exact (Stands.plain plain).congr fun run => by simp [StarCoversLine,single]

theorem stands_pattern (guarded : IsGuarded value) :
    Stands (pattern value) (Pieces StarCoversLine value) := by
  induction value with
  | nil => exact Stands.nil.congr fun run => Text.pieces_nil.symm
  | cons c value ih =>
      obtain ⟨first,later⟩ := List.forall_mem_cons.mp guarded
      exact ((stands_patternChar first).append (ih later)).congr fun run => Text.pieces_cons.symm

theorem pieces_word (starless : '*' ∉ value) : Pieces StarCoversLine value run ↔ run = value := by
  induction value generalizing run with
  | nil => exact Text.pieces_nil
  | cons c value ih =>
      simp only [List.mem_cons,not_or] at starless
      have single : c ≠ '*' := Ne.symm starless.1
      simp only [Text.pieces_cons,ih starless.2,StarCoversLine,single,if_false]
      simp

theorem stands_plain (plain : IsPlain value) : Stands (pattern value) (· = value) := by
  have starless : '*' ∉ value := fun member => (plain '*' member).2 rfl
  exact (stands_pattern fun c member => (plain c member).1).congr fun run => pieces_word starless

-- On one line there is nothing that a star may not stand for.
theorem pieces_starCovers (line : '\n' ∉ run) : Pieces StarCoversLine value run ↔ Pieces Text.StarCovers value run := by
  refine Text.pieces_congr fun c _ piece inside => ?_
  have inner : '\n' ∉ piece := fun member => line (inside member)
  by_cases star : c = '*'
  · simp [StarCoversLine,Text.StarCovers,star,inner]
  · simp [StarCoversLine,Text.StarCovers,star]

def Choice (values : List Text) (run : Text) : Prop := if values = [] then '\n' ∉ run else run ∈ values

theorem choice_filled (some : values ≠ []) : Choice values run ↔ run ∈ values := by
  rw [Choice,if_neg some]

theorem stands_anyOf (plain : ∀ value ∈ values, IsPlain value) :
    Stands (anyOf values) (Choice values) := by
  match values with
  | [] => exact Stands.any.congr fun run => by simp [Choice]
  | [value] =>
      have alone := stands_plain (plain value List.mem_cons_self)
      exact alone.congr fun run => by simp [Choice]
  | first :: second :: more =>
      have each := Stands.oneOf pattern (fun value run => run = value) (fun value member => stands_plain (plain value member))
        (List.cons_ne_nil first (second :: more))
      exact each.congr fun run => by simp [Choice]

end History
end FieldedSearch
