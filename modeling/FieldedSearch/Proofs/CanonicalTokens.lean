import Mathlib.Data.List.Chain
import FieldedSearch.Proofs.LiteralQuery

namespace FieldedSearch.Tokens

open Token (Grown prepend ofValue)

variable {c : Char} {s : Text} {token : Token} {tokens : List Token}

structure Canonical (tokens : List Token) : Prop where
  filled : ∀ s, .literal s ∈ tokens → s ≠ []
  apart : tokens.IsChain fun left right => left.isWildcard = true ∨ right.isWildcard = true

theorem Canonical.tail (canonical : Canonical (token :: tokens)) : Canonical tokens :=
  ⟨fun s member => canonical.filled s (List.mem_cons_of_mem token member),canonical.apart.tail⟩

theorem Canonical.wildcard (canonical : Canonical tokens) : Canonical (.wildcard :: tokens) := by
  refine ⟨fun s member => ?_,?_⟩
  · exact canonical.filled s ((List.mem_cons.mp member).resolve_left nofun)
  · exact List.isChain_cons.mpr ⟨fun _ _ => .inl rfl,canonical.apart⟩

theorem Canonical.literal (canonical : Canonical tokens) (filled : s ≠ [])
    (behind : ∀ next ∈ tokens.head?, next.isWildcard = true) : Canonical (.literal s :: tokens) := by
  refine ⟨fun t member => ?_,?_⟩
  · rcases List.mem_cons.mp member with same | later
    · rw [Token.literal.inj same]
      exact filled
    · exact canonical.filled t later
  · exact List.isChain_cons.mpr ⟨fun next found => .inr (behind next found),canonical.apart⟩

theorem Canonical.behind (canonical : Canonical (.literal s :: tokens)) : ∀ next ∈ tokens.head?, next.isWildcard = true :=
  fun next found => ((List.isChain_cons.mp canonical.apart).1 next found).resolve_left nofun

theorem Canonical.prepend (canonical : Canonical tokens) (c : Char) : Canonical (prepend c tokens) := by
  match tokens with
  | [] => exact canonical.literal (List.cons_ne_nil c []) nofun
  | .wildcard :: rest =>
      refine canonical.literal (List.cons_ne_nil c []) fun next found => ?_
      rw [← Option.some.inj found]
      rfl
  | .literal s :: rest => exact canonical.tail.literal (List.cons_ne_nil c s) canonical.behind

theorem grown_literal (grown : Grown tokens) (behind : ∀ next ∈ tokens.head?, next.isWildcard = true) (c : Char)
    (s : Text) : Grown (.literal (c :: s) :: tokens) := by
  induction s generalizing c with
  | nil =>
      have alone : prepend c tokens = .literal [c] :: tokens := by
        match tokens with
        | [] | .wildcard :: _ => rfl
        | .literal t :: _ => cases behind (.literal t) rfl
      exact alone ▸ grown.char c
  | cons d s ih => exact (ih d).char c

-- The declared form is the one that grows character by character.
theorem canonical_exact : Canonical tokens ↔ Grown tokens := by
  constructor
  · intro canonical
    induction tokens with
    | nil => exact .nil
    | cons token tokens ih =>
        have grown := ih canonical.tail
        cases token with
        | wildcard => exact grown.wildcard
        | literal s =>
            obtain ⟨c,s,rfl⟩ := List.exists_cons_of_ne_nil (canonical.filled s List.mem_cons_self)
            exact grown_literal grown canonical.behind c s
  · intro grown
    induction grown with
    | nil => exact ⟨nofun,.nil⟩
    | wildcard _ ih => exact ih.wildcard
    | char c _ ih => exact ih.prepend c

theorem written_prepend (c : Char) (tokens : List Token) :
    written (prepend c tokens) = Text.starless [c] ++ written tokens := by
  match tokens with
  | [] | .wildcard :: _ => simp [written,prepend,Token.written,Text.starless]
  | .literal s :: rest => simp [written,prepend,Token.written,Text.starless,Text.escape]

-- Reading goes over what was written a character or a wildcard at a time, as the tokens grew.
theorem ofValue_written (grown : Grown tokens) : ofValue (written tokens) = tokens := by
  induction grown with
  | nil => rfl
  | @wildcard tokens grown ih =>
      have front : written (.wildcard :: tokens) = '*' :: written tokens := rfl
      rw [front,Token.ofValue.eq_def]
      simp [ih]
  | char c _ ih =>
      rw [written_prepend,Token.ofValue_starless_append,ih]
      rfl

theorem canonical_roundtrip : (∀ value, Canonical (ofValue value)) ∧
    (∀ tokens, Canonical tokens ↔ ofValue (written tokens) = tokens) ∧
    ∀ value, ofValue (written (ofValue value)) = ofValue value := by
  have given : ∀ value, Canonical (ofValue value) := fun value => canonical_exact.mpr (Token.ofValue_grown value)
  refine ⟨given,fun tokens => ⟨fun canonical => ?_,fun same => same ▸ given _⟩,fun value => ?_⟩
  · exact ofValue_written (canonical_exact.mp canonical)
  · exact ofValue_written (Token.ofValue_grown value)

end FieldedSearch.Tokens
