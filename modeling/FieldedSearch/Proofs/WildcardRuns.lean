import FieldedSearch.Proofs.Pieces
import FieldedSearch.Proofs.Regex
import FieldedSearch.Record

namespace FieldedSearch

open Text (Pieces)

def Token.Covers : Token → Text → Prop
  | .wildcard,_ => True
  | .literal text,piece => piece = text

-- Zero or more characters, but no line feed.
def Token.CoversLine : Token → Text → Prop
  | .wildcard,piece => '\n' ∉ piece
  | .literal text,piece => piece = text

variable {tokens : List Token} {s value actual : Text}

theorem Glob.matches_pieces : Glob.Matches tokens s ↔ Pieces Token.CoversLine tokens s := by
  induction tokens generalizing s with
  | nil => exact Glob.matches_nil_exact.trans Text.pieces_nil.symm
  | cons token tokens ih =>
      cases token with
      | wildcard => simp only [Glob.matches_wildcard_exact,Text.pieces_cons,Token.CoversLine,ih]
      | literal text =>
          simp only [Glob.matches_literal_exact,Text.pieces_cons,Token.CoversLine,ih]
          constructor
          · intro cut
            obtain ⟨rest,whole,later⟩ := cut
            exact ⟨text,rest,whole,rfl,later⟩
          · intro cut
            obtain ⟨piece,rest,whole,same,later⟩ := cut
            exact ⟨rest,same ▸ whole,later⟩

theorem Token.pieces_line (line : '\n' ∉ s) : Pieces CoversLine tokens s ↔ Pieces Covers tokens s := by
  refine Text.pieces_congr fun token _ piece inside => ?_
  cases token with
  | wildcard => exact iff_of_true (fun member => line (inside member)) trivial
  | literal text => exact Iff.rfl

namespace Record

theorem valueMatches_glob (engine : Engine) (wild : Tokens.hasWildcard (Token.ofValue value) = true) (actual : Text) :
    valueMatches engine .preserve value actual = true ↔
      engine.builds .preserve (Tokens.regex (Token.ofValue value)) = true ∧ Glob.Matches (Token.ofValue value) actual := by
  simp only [valueMatches,wild,if_true,globMatches,Bool.and_eq_true,Glob.accepts_exact]

theorem valueMatches_regex (engine : Engine) (wild : Tokens.hasWildcard (Token.ofValue value) = true) (actual : Text) :
    valueMatches engine .preserve value actual = true ↔
      engine.builds .preserve (Tokens.regex (Token.ofValue value)) = true ∧
        Regex.Finds (Tokens.regex (Token.ofValue value)) actual :=
  (valueMatches_glob engine wild actual).trans (and_congr_right fun _ => (Regex.finds_exact _ _).symm)

-- The three readings of a value whose pattern is built: the table of the matcher, the pieces of the text, and the pattern.
theorem wildcard_runs_exact (engine : Engine) (wild : Tokens.hasWildcard (Token.ofValue value) = true)
    (actual : Text) :
    (engine.builds .preserve (Tokens.regex (Token.ofValue value)) = true →
      (valueMatches engine .preserve value actual = true ↔ Pieces Token.CoversLine (Token.ofValue value) actual) ∧
      (valueMatches engine .preserve value actual = true ↔ Regex.Finds (Tokens.regex (Token.ofValue value)) actual) ∧
      ('\n' ∉ actual →
        (valueMatches engine .preserve value actual = true ↔ Pieces Token.Covers (Token.ofValue value) actual))) ∧
    (engine.builds .preserve (Tokens.regex (Token.ofValue value)) = false →
      valueMatches engine .preserve value actual = false) := by
  constructor
  · intro built
    have cut : valueMatches engine .preserve value actual = true ↔ Pieces Token.CoversLine (Token.ofValue value) actual := by
      rw [valueMatches_glob engine wild,Glob.matches_pieces]
      exact and_iff_right built
    have finds := (valueMatches_regex engine wild actual).trans (and_iff_right built)
    exact ⟨cut,finds,fun line => cut.trans (Token.pieces_line line)⟩
  · intro refused
    simp only [valueMatches,wild,if_true,refused,Bool.false_and]

theorem wildcard_runs_exact_marks : Tokens.hasWildcard (Token.ofValue "(v1.0)*\\**".toList) = true ∧
    Pieces Token.Covers (Token.ofValue "(v1.0)*\\**".toList) "(v1.0) *é".toList ∧
    Regex.Finds (Tokens.regex (Token.ofValue "(v1.0)*\\**".toList)) "(v1.0) *é".toList := by
  have wild : Tokens.hasWildcard (Token.ofValue "(v1.0)*\\**".toList) = true := rfl
  have selected : valueMatches .unlimited .preserve "(v1.0)*\\**".toList "(v1.0) *é".toList = true := by decide
  obtain ⟨_,finds,covers⟩ := (wildcard_runs_exact .unlimited wild "(v1.0) *é".toList).1 rfl
  exact ⟨wild,(covers (by decide)).mp selected,finds.mp selected⟩

-- A line feed is a character of some kind, and no wildcard stands for it.
theorem wildcard_runs_stop : Tokens.hasWildcard (Token.ofValue "x*".toList) = true ∧
    ¬(valueMatches .unlimited .preserve "x*".toList "x\n".toList = true ↔
      Pieces Token.Covers (Token.ofValue "x*".toList) "x\n".toList) := by
  have covered : Pieces Token.Covers (Token.ofValue "x*".toList) "x\n".toList :=
    ⟨["x".toList,"\n".toList],.cons rfl (.cons trivial .nil),rfl⟩
  have refused : valueMatches .unlimited .preserve "x*".toList "x\n".toList = false := by decide
  refine ⟨rfl,fun same => ?_⟩
  cases refused.symm.trans (same.mpr covered)

end Record
end FieldedSearch
