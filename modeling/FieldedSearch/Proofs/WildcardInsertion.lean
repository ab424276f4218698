import FieldedSearch.Proofs.Glob
import FieldedSearch.Proofs.LetterFolding
import FieldedSearch.Proofs.LiteralQuery

namespace FieldedSearch

variable {a b s t u before : Text} {c : Char} {case : CaseMode} {tokens : List Token}

def Text.widened (a b : Text) : Text := a.starless ++ '*' :: b.starless

def Tokens.ofText (s : Text) : List Token := if s = [] then [] else [.literal s]

-- Folding its lower case does not give what folding the character gives.
def Unfolded (c : Char) : Prop := (Text.lowercase [c]).map foldChar ≠ [foldChar c]

def SameUnfolded (t u : Text) : Prop := ∀ c, Unfolded c → ∀ i : Nat, t[i]? = some c ↔ u[i]? = some c

namespace Tokens

theorem foldr_prepend (unlettered : ∀ text rest, tokens ≠ .literal text :: rest) (s : Text) :
    s.foldr Token.prepend tokens = ofText s ++ tokens := by
  induction s with
  | nil => rfl
  | cons c s ih =>
      rw [List.foldr_cons,ih]
      by_cases last : s = []
      · subst last
        match tokens with
        | [] | .wildcard :: _ => rfl
        | .literal text :: rest => exact absurd rfl (unlettered text rest)
      · simp [ofText,last,Token.prepend]

theorem ofValue_starless (t : Text) : Token.ofValue t.starless = ofText t := by
  rw [Token.ofValue_starless,foldr_prepend (by simp),List.append_nil]

theorem ofValue_widened (a b : Text) : Token.ofValue (Text.widened a b) = ofText a ++ .wildcard :: ofText b := by
  have star : Token.ofValue ('*' :: b.starless) = .wildcard :: ofText b := by
    rw [Token.ofValue.eq_def]
    simp [ofValue_starless]
  rw [Text.widened,Token.ofValue_starless_append,star]
  exact foldr_prepend (by simp) a

theorem hasWildcard_widened (a b : Text) : hasWildcard (Token.ofValue (Text.widened a b)) = true := by
  simp [ofValue_widened,hasWildcard,Token.isWildcard]

theorem mapText_ofText (f : Char → Char) (s : Text) :
    (ofText s).map (·.mapText (·.map f)) = ofText (s.map f) := by
  by_cases empty : s = []
  · subst empty
    rfl
  · simp [ofText,empty,Token.mapText]

end Tokens

namespace Glob

theorem matches_ofText (a s : Text) (tokens : List Token) :
    Matches (Tokens.ofText a ++ tokens) s ↔ ∃ rest, s = a ++ rest ∧ Matches tokens rest := by
  by_cases empty : a = []
  · simp [Tokens.ofText,empty]
  · rw [Tokens.ofText,if_neg empty]
    exact matches_literal_exact

theorem matches_widened :
    Matches (Tokens.ofText a ++ .wildcard :: Tokens.ofText b) s ↔ ∃ run, s = a ++ (run ++ b) ∧ '\n' ∉ run := by
  have last : ∀ rest, Matches (Tokens.ofText b) rest ↔ rest = b := by
    intro rest
    have whole := matches_ofText b rest []
    simpa [matches_nil_exact] using whole
  rw [matches_ofText]
  simp only [matches_wildcard_exact,last]
  constructor
  · intro cut
    obtain ⟨_,whole,run,_,rest,line,same⟩ := cut
    exact ⟨run,by rw [whole,rest,same],line⟩
  · intro cut
    obtain ⟨run,whole,line⟩ := cut
    exact ⟨run ++ b,whole,run,b,rfl,line,rfl⟩

end Glob

namespace Text

-- A character is lowered to one that folds as it does, and only the dotted capital I to more than one.
theorem lowerFrom_cons (single : c ≠ 'İ') (before s : Text) : ∃ d, lowerFrom before (c :: s) = d :: lowerFrom (c :: before) s ∧
    (CaseTables.unfolded.holds c = false → foldChar d = foldChar c) := by
  by_cases sigma : c = 'Σ'
  · subst sigma
    refine ⟨lowerSigma before s,by rw [lowerFrom,if_pos rfl]; rfl,fun _ => ?_⟩
    rw [lowerSigma]
    split
    · exact CaseTables.computed.sigma.2
    · exact CaseTables.computed.sigma.1
  · exact ⟨mapChar CaseTables.lower c,by rw [lowerFrom,if_neg sigma,if_neg single]; rfl,foldChar_lower⟩

theorem lowerFrom_dotted (before s : Text) :
    lowerFrom before ('İ' :: s) = 'i' :: '\u0307' :: lowerFrom ('İ' :: before) s := rfl

theorem length_lowerFrom (before s : Text) : (lowerFrom before s).length = s.length + s.count 'İ' := by
  induction s generalizing before with
  | nil => rfl
  | cons c s ih =>
      by_cases dotted : c = 'İ'
      · subst dotted
        simp only [lowerFrom_dotted,List.length_cons,ih,List.count_cons_self]
        omega
      · obtain ⟨d,lowered,_⟩ := lowerFrom_cons dotted before s
        simp only [lowered,List.length_cons,ih,List.count_cons_of_ne dotted]
        omega

end Text

theorem dotted_unfolded : CaseTables.unfolded.holds 'İ' = true := by decide

theorem unfolded_lowered (single : CaseTables.unfolded.holds c = true) : Text.lowercase [c] ≠ [c] := by
  have moved : ∀ range ∈ CaseTables.unfolded, ∀ n ∈ List.range' range.1 (range.2 + 1 - range.1),
      Text.lowercase [Char.ofNat n] ≠ [Char.ofNat n] := by decide +kernel
  obtain ⟨range,listed,inside⟩ := List.any_eq_true.mp single
  have bounds : range.1 ≤ c.toNat ∧ c.toNat ≤ range.2 := by simpa using inside
  have lowered := moved range listed c.toNat (List.mem_range'_1.mpr (by omega))
  rwa [Char.ofNat_toNat] at lowered

theorem unfolded_table : Unfolded c ↔ CaseTables.unfolded.holds c = true := by
  constructor
  · intro apart
    cases ordinary : CaseTables.unfolded.holds c with
    | true => rfl
    | false =>
        have single : c ≠ 'İ' := by
          rintro rfl
          cases ordinary.symm.trans dotted_unfolded
        obtain ⟨d,lowered,folds⟩ := Text.lowerFrom_cons single [] []
        have whole : (Text.lowercase [c]).map foldChar = [foldChar c] := by
          rw [Text.lowercase,lowered,← folds ordinary]
          rfl
        exact absurd whole apart
  · intro single alike
    obtain ⟨d,lowered,same⟩ := List.map_eq_singleton_iff.mp alike
    rw [eq_of_unfolded single same] at lowered
    exact unfolded_lowered single lowered

theorem foldChar_dotted : foldChar c = 'İ' ↔ c = 'İ' := by
  have kept : foldChar 'İ' = 'İ' := eq_of_unfolded dotted_unfolded (foldChar_foldChar 'İ')
  constructor
  · exact fun same => eq_of_unfolded dotted_unfolded (same.trans kept.symm)
  · exact fun same => same ▸ kept

theorem count_folded (s : Text) : (s.map foldChar).count 'İ' = s.count 'İ' := by
  simp only [List.count,List.countP_map]
  refine List.countP_congr fun c _ => ?_
  simp [foldChar_dotted]

theorem SameUnfolded.tail {d : Char} (same : SameUnfolded (c :: t) (d :: u)) : SameUnfolded t u := by
  intro e single i
  simpa using same e single (i + 1)

theorem SameUnfolded.head {d : Char} (same : SameUnfolded (c :: t) (d :: u)) :
    c = d ∨ CaseTables.unfolded.holds c = false ∧ CaseTables.unfolded.holds d = false := by
  cases left : CaseTables.unfolded.holds c with
  | true =>
      have first := (same c (unfolded_table.mpr left) 0).mp rfl
      exact .inl (Option.some.inj first).symm
  | false => cases right : CaseTables.unfolded.holds d with
    | true =>
        have first := (same d (unfolded_table.mpr right) 0).mpr rfl
        exact .inl (Option.some.inj first)
    | false => exact .inr ⟨rfl,rfl⟩

theorem SameUnfolded.head_dotted {d : Char} (same : SameUnfolded (c :: t) (d :: u)) : c = 'İ' ↔ d = 'İ' := by
  rcases same.head with alike | ⟨left,right⟩
  · rw [alike]
  · have other : ∀ {e : Char}, CaseTables.unfolded.holds e = false → e ≠ 'İ' := by
      intro e ordinary dotted
      rw [dotted,dotted_unfolded] at ordinary
      cases ordinary
    exact iff_of_false (other left) (other right)

-- Texts with one lower case fold alike, but for their unfolded characters.
theorem SameUnfolded.folded {other : Text} (same : SameUnfolded t u)
    (lowered : Text.lowerFrom before t = Text.lowerFrom other u) : t.map foldChar = u.map foldChar := by
  induction t generalizing u before other with
  | nil =>
      have lengths := congrArg List.length lowered
      simp only [Text.length_lowerFrom,List.length_nil,List.count_nil] at lengths
      have empty : u = [] := List.length_eq_zero_iff.mp (by omega)
      rw [empty]
  | cons c t ih => cases u with
    | nil =>
        have lengths := congrArg List.length lowered
        simp only [Text.length_lowerFrom,List.length_cons,List.length_nil,List.count_nil] at lengths
        omega
    | cons d u =>
        by_cases dotted : c = 'İ'
        · have alike := same.head_dotted.mp dotted
          subst dotted alike
          have later : Text.lowerFrom ('İ' :: before) t = Text.lowerFrom ('İ' :: other) u :=
            (List.cons.inj (List.cons.inj lowered).2).2
          rw [List.map_cons,List.map_cons,ih same.tail later]
        · obtain ⟨e,left,foldsLeft⟩ := Text.lowerFrom_cons dotted before t
          obtain ⟨f,right,foldsRight⟩ := Text.lowerFrom_cons (mt same.head_dotted.mpr dotted) other u
          rw [left,right] at lowered
          obtain ⟨equal,later⟩ := List.cons.inj lowered
          have alike : foldChar c = foldChar d := by
            rcases same.head with first | ⟨ordinary,plain⟩
            · rw [first]
            · rw [← foldsLeft ordinary,← foldsRight plain,equal]
          rw [List.map_cons,List.map_cons,alike,ih same.tail later]

theorem sameUnfolded_of_folded (folded : t.map foldChar = u.map foldChar) : SameUnfolded t u := by
  have carried : ∀ {t u : Text} {c : Char} {i : Nat}, t.map foldChar = u.map foldChar →
      CaseTables.unfolded.holds c = true → t[i]? = some c → u[i]? = some c := by
    intro t u c i folded single found
    have place := congrArg (·[i]?) folded
    simp only [List.getElem?_map,found,Option.map_some] at place
    obtain ⟨d,known,same⟩ := Option.map_eq_some_iff.mp place.symm
    rw [known,eq_of_unfolded single same]
  exact fun c single i => ⟨carried folded (unfolded_table.mp single),carried folded.symm (unfolded_table.mp single)⟩

namespace Record

theorem valueMatches_widened (engine : Engine) (case : CaseMode) : valueMatches engine case (Text.widened a b) u = true ↔
    engine.builds case (Tokens.regex (Token.ofValue (Text.widened a b))) = true ∧
      globMatches case (Token.ofValue (Text.widened a b)) u = true := by
  simp only [valueMatches,Tokens.hasWildcard_widened,if_true,Bool.and_eq_true]

theorem globMatches_widened_preserve : globMatches .preserve (Token.ofValue (Text.widened a b)) u = true ↔
    ∃ run, u = a ++ (run ++ b) ∧ '\n' ∉ run := by
  rw [globMatches,Glob.accepts_exact,Tokens.ofValue_widened,Glob.matches_widened]

theorem globMatches_widened_fold : globMatches .fold (Token.ofValue (Text.widened a b)) u = true ↔
    ∃ run, u.map foldChar = a.map foldChar ++ (run ++ b.map foldChar) ∧ '\n' ∉ run := by
  rw [globMatches,Glob.accepts_exact,Tokens.ofValue_widened,List.map_append,List.map_cons,Tokens.mapText_ofText,
    Tokens.mapText_ofText]
  exact Glob.matches_widened

-- In a text with the same lower case a wildcard has nothing to stand for: what is longer has fewer dotted capitals.
theorem widened_folds (lowered : (a ++ b).lowercase = u.lowercase) :
    globMatches .fold (Token.ofValue (Text.widened a b)) u = true ↔ (a ++ b).map foldChar = u.map foldChar := by
  rw [globMatches_widened_fold]
  constructor
  · intro cut
    obtain ⟨run,whole,_⟩ := cut
    have lengths := congrArg List.length lowered
    have sizes := congrArg List.length whole
    have dotted := congrArg (List.count 'İ') whole
    simp only [Text.lowercase,Text.length_lowerFrom,List.length_append,List.count_append] at lengths
    simp only [List.length_map,List.length_append] at sizes
    simp only [List.count_append,count_folded] at dotted
    have empty : run = [] := List.length_eq_zero_iff.mp (by omega)
    rw [whole,empty,List.nil_append,List.map_append]
  · intro same
    exact ⟨[],by rw [← same,List.map_append,List.nil_append],List.not_mem_nil⟩

-- The value stands for the same text still, but texts are compared in lower case, and globs after folding.
theorem widened_keeps_exact (engine : Engine) (case : CaseMode) (a b u : Text)
    (found : valueMatches engine case (a ++ b).starless u = true) :
    Token.ofValue (a ++ b).starless = Tokens.ofText (a ++ b) ∧
    Token.ofValue (Text.widened a b) = Tokens.ofText a ++ .wildcard :: Tokens.ofText b ∧
    (valueMatches engine case (Text.widened a b) u = true ↔
      engine.builds case (Tokens.regex (Token.ofValue (Text.widened a b))) = true ∧
        (case = .fold → SameUnfolded (a ++ b) u)) := by
  refine ⟨Tokens.ofValue_starless _,Tokens.ofValue_widened a b,?_⟩
  have equal := (valueMatches_starless engine case (a ++ b) u).mp found
  rw [valueMatches_widened]
  refine and_congr_right fun _ => ?_
  cases case with
  | preserve =>
      have whole : u = a ++ ([] ++ b) := equal.symm
      exact iff_of_true (globMatches_widened_preserve.mpr ⟨[],whole,List.not_mem_nil⟩) nofun
  | fold =>
      refine (widened_folds equal).trans ⟨fun folded _ => sameUnfolded_of_folded folded,fun same => ?_⟩
      exact (same rfl).folded equal

-- A final sigma is no obstacle: it is lowered by its place, but folded like any other.
theorem widened_keeps_exact_sigma :
    valueMatches .unlimited .fold (Text.starless ("ΟΔ".toList ++ "ΟΣ".toList)) "οδος".toList = true ∧
    SameUnfolded ("ΟΔ".toList ++ "ΟΣ".toList) "οδος".toList ∧
    valueMatches .unlimited .fold (Text.widened "ΟΔ".toList "ΟΣ".toList) "οδος".toList = true := by
  have both : valueMatches .unlimited .fold (Text.starless ("ΟΔ".toList ++ "ΟΣ".toList)) "οδος".toList = true ∧
      ("ΟΔ".toList ++ "ΟΣ".toList).map foldChar = "οδος".toList.map foldChar := by
    decide +kernel
  obtain ⟨found,folded⟩ := both
  have same := sameUnfolded_of_folded folded
  have kept := (widened_keeps_exact .unlimited .fold "ΟΔ".toList "ΟΣ".toList "οδος".toList found).2.2
  exact ⟨found,same,kept.mpr ⟨rfl,fun _ => same⟩⟩

-- In lower case the dotted capital I is two characters, an `i` and a dot. Folded, it is neither.
theorem widened_loses_dotted : valueMatches .unlimited .fold (Text.starless ("İ".toList ++ [])) "i\u0307".toList = true ∧
    ¬valueMatches .unlimited .fold (Text.widened "İ".toList []) "i\u0307".toList = true := by
  decide +kernel

end Record
end FieldedSearch
