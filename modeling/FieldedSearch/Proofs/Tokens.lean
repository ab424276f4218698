import FieldedSearch.Token

namespace FieldedSearch

inductive Token.Grown : List Token → Prop where
  | nil : Grown []
  | wildcard {tokens : List Token} : Grown tokens → Grown (.wildcard :: tokens)
  | char (c : Char) {tokens : List Token} : Grown tokens → Grown (prepend c tokens)

theorem Token.ofValue_grown (value : Text) : Grown (ofValue value) := by
  fun_induction ofValue value with
  | case1 => exact .nil
  | case2 r ih => exact .char '*' ih
  | case3 r ih => exact .char '\\' ih
  | case4 r _ _ ih => exact .wildcard ih
  | case5 c r _ _ _ ih => exact .char c ih

namespace Tokens

variable {tokens : List Token}

theorem likePattern_prepend (c : Char) (tokens : List Token) :
    likePattern (Token.prepend c tokens) = c :: likePattern tokens := by
  match tokens with
  | [] | .wildcard :: _ | .literal _ :: _ => rfl

theorem literalText_prepend (c : Char) (tokens : List Token) :
    literalText (Token.prepend c tokens) = c :: literalText tokens := by
  match tokens with
  | [] | .wildcard :: _ | .literal _ :: _ => rfl

theorem plain_prepend (c : Char) (tokens : List Token) : plain (Token.prepend c tokens) = c :: plain tokens := by
  match tokens with
  | [] | .wildcard :: _ | .literal _ :: _ => rfl

theorem hasWildcard_prepend (c : Char) (tokens : List Token) :
    hasWildcard (Token.prepend c tokens) = hasWildcard tokens := by
  match tokens with
  | [] | .wildcard :: _ | .literal _ :: _ => rfl

theorem hasWildcard_chars (s : Text) : hasWildcard (s.foldr Token.prepend []) = false := by
  induction s with
  | nil => rfl
  | cons c s ih => exact (hasWildcard_prepend c _).trans ih

theorem literalText_chars (s : Text) : literalText (s.foldr Token.prepend []) = s := by
  induction s with
  | nil => rfl
  | cons c s ih => exact (literalText_prepend c _).trans (congrArg (c :: ·) ih)

theorem likePattern_length (tokens : List Token) : (likePattern tokens).length = (plain tokens).length := by
  induction tokens with
  | nil => rfl
  | cons token tokens ih =>
      have front : token.likePattern.length = token.plain.length := by cases token <;> rfl
      simp only [likePattern,plain] at ih ⊢
      rw [List.flatMap_cons,List.flatMap_cons,List.length_append,List.length_append,front,ih]

theorem likePattern_literal (exact : hasWildcard tokens = false) : likePattern tokens = literalText tokens := by
  induction tokens with
  | nil => rfl
  | cons token tokens ih =>
      simp only [hasWildcard,List.any_cons,Bool.or_eq_false_iff] at exact
      cases token with
      | wildcard => cases exact.1
      | literal text => exact congrArg (text ++ ·) (ih exact.2)

theorem likePattern_backslash : '\\' ∈ likePattern tokens ↔ '\\' ∈ literalText tokens := by
  simp only [likePattern,literalText,List.mem_flatMap]
  refine exists_congr fun token => and_congr_right fun _ => ?_
  cases token with
  | wildcard => simp [Token.likePattern,Token.literalText]
  | literal text => exact Iff.rfl

theorem likePattern_solid (unescaped : ∀ text, Token.literal text ∈ tokens → '\\' ∉ text) :
    '\\' ∉ likePattern tokens := by
  rw [likePattern_backslash]
  intro found
  obtain ⟨token,member,inside⟩ := List.mem_flatMap.mp found
  cases token with
  | wildcard => cases inside
  | literal text => exact unescaped text member inside

end Tokens
end FieldedSearch
