import FieldedSearch.Proofs.Backslashes
import FieldedSearch.Proofs.Tokens

namespace FieldedSearch

variable {mark c : Char} {s : Text}

namespace Text

-- Every occurrence of a text that is not empty, from the left, and none that overlaps the one before.
def replaceAll (old new : Text) : Text → Text
  | [] => []
  | c :: r =>
      if old.isPrefixOf (c :: r) then new ++ replaceAll old new (r.drop (old.length - 1))
      else c :: replaceAll old new r
termination_by s => s.length
decreasing_by
  · simp only [List.length_cons,List.length_drop]
    omega
  · simp

def unescape (mark : Char) (s : Text) : Text := replaceAll ['\\',mark] [mark] s

-- A star that no backslash takes along: the run in front of it is even.
def isFreeStar (s : Text) (i : Nat) : Bool := s[i]? = some '*' && endingRun (s.take i) % 2 = 0

def freeStars (s : Text) : Nat := (List.range s.length).countP s.isFreeStar

theorem unescape_nil (mark : Char) : unescape mark [] = [] := by
  rw [unescape,replaceAll]

theorem unescape_pair (mark : Char) (s : Text) : unescape mark ('\\' :: mark :: s) = mark :: unescape mark s := by
  rw [unescape,replaceAll]
  simp [unescape]

theorem unescape_char (plain : c ≠ '\\') (s : Text) : unescape mark (c :: s) = c :: unescape mark s := by
  rw [unescape,replaceAll]
  simp [unescape,Ne.symm plain]

theorem unescape_lone (unmarked : s.head? ≠ some mark) : unescape mark ('\\' :: s) = '\\' :: unescape mark s := by
  rw [unescape,replaceAll]
  cases s with
  | nil => simp [unescape]
  | cons d s =>
      have other : mark ≠ d := fun same => unmarked (by rw [same]; rfl)
      simp [unescape,other]

theorem unescape_head (plain : s.head? ≠ some '\\') : (unescape mark s).head? = s.head? := by
  cases s with
  | nil => rw [unescape_nil]
  | cons c s =>
      have single : c ≠ '\\' := fun same => plain (by rw [same]; rfl)
      rw [unescape_char single]
      rfl

theorem countP_range_succ (p : Nat → Bool) (n : Nat) :
    (List.range (n + 1)).countP p = (if p 0 then 1 else 0) + (List.range n).countP fun i => p (i + 1) := by
  rw [List.range_succ_eq_map,List.countP_cons,List.countP_map,Nat.add_comm]
  rfl

theorem isFreeStar_zero (c : Char) (s : Text) : isFreeStar (c :: s) 0 = true ↔ c = '*' := by
  simp [isFreeStar,endingRun]

theorem isFreeStar_char (plain : c ≠ '\\') (s : Text) (i : Nat) : isFreeStar (c :: s) (i + 1) = isFreeStar s i := by
  simp [isFreeStar,endingRun_char plain]

theorem isFreeStar_taken (c : Char) (s : Text) : isFreeStar ('\\' :: c :: s) 1 = false := by
  simp [isFreeStar,endingRun]

theorem isFreeStar_pair (c : Char) (s : Text) (i : Nat) : isFreeStar ('\\' :: c :: s) (i + 2) = isFreeStar s i := by
  simp [isFreeStar,endingRun_pair]

theorem freeStars_char (plain : c ≠ '\\') (s : Text) :
    freeStars (c :: s) = (if c = '*' then 1 else 0) + freeStars s := by
  rw [freeStars,List.length_cons,countP_range_succ]
  simp only [isFreeStar_zero,isFreeStar_char plain]
  rfl

-- A backslash and what it takes along are no free stars, and change nothing for the rest.
theorem freeStars_pair (c : Char) (s : Text) : freeStars ('\\' :: c :: s) = freeStars s := by
  rw [freeStars,List.length_cons,List.length_cons,countP_range_succ,countP_range_succ]
  simp [isFreeStar_zero,isFreeStar_pair,isFreeStar_taken,freeStars]

theorem freeStars_lone (unstarred : s.head? ≠ some '*') (plain : s.head? ≠ some '\\') :
    freeStars ('\\' :: s) = freeStars s := by
  cases s with
  | nil => rfl
  | cons d s =>
      have other : d ≠ '*' := fun same => unstarred (by rw [same]; rfl)
      have single : d ≠ '\\' := fun same => plain (by rw [same]; rfl)
      rw [freeStars_pair,freeStars_char single,if_neg other,Nat.zero_add]

theorem freeStars_pos : 0 < freeStars s ↔ ∃ before after, s = before ++ '*' :: after ∧ endingRun before % 2 = 0 := by
  simp only [freeStars,List.countP_pos_iff,List.mem_range,isFreeStar,Bool.and_eq_true,decide_eq_true_eq]
  constructor
  · intro found
    obtain ⟨i,inside,star,even⟩ := found
    have there : s[i] = '*' := Option.some.inj ((List.getElem?_eq_getElem inside).symm.trans star)
    have cut : s = s.take i ++ '*' :: s.drop (i + 1) := by
      rw [← there,← List.drop_eq_getElem_cons inside,List.take_append_drop]
    exact ⟨_,_,cut,even⟩
  · intro found
    obtain ⟨before,after,whole,even⟩ := found
    subst whole
    exact ⟨before.length,by simp,by simp,by simpa using even⟩

end Text

-- How a value is read: pairs first, and a backslash by itself only where no pair begins.
inductive Token.Spells : Text → List Token → Prop where
  | nil : Spells [] []
  | pair {c : Char} {s : Text} {tokens : List Token} : c = '*' ∨ c = '\\' → Spells s tokens →
      Spells ('\\' :: c :: s) (prepend c tokens)
  | star {s : Text} {tokens : List Token} : Spells s tokens → Spells ('*' :: s) (.wildcard :: tokens)
  | char {c : Char} {s : Text} {tokens : List Token} : c ≠ '\\' → c ≠ '*' → Spells s tokens →
      Spells (c :: s) (prepend c tokens)
  | lone {s : Text} {tokens : List Token} : s.head? ≠ some '*' → s.head? ≠ some '\\' → Spells s tokens →
      Spells ('\\' :: s) (prepend '\\' tokens)

theorem Text.head_unpaired {d : Char} (unread : ∀ t, c = '\\' → s = d :: t → False) (single : c = '\\') :
    s.head? ≠ some d := by
  cases s with
  | nil => nofun
  | cons e s =>
      intro same
      exact unread s single (by rw [Option.some.inj same])

theorem Token.ofValue_spells (v : Text) : Spells v (ofValue v) := by
  fun_induction ofValue v with
  | case1 => exact .nil
  | case2 r ih => exact .pair (.inl rfl) ih
  | case3 r ih => exact .pair (.inr rfl) ih
  | case4 r _ _ ih => exact .star ih
  | case5 c r star pair other ih =>
      by_cases single : c = '\\'
      · have unstarred := Text.head_unpaired star single
        have plain := Text.head_unpaired pair single
        subst single
        exact .lone unstarred plain ih
      · exact .char single other ih

namespace Tokens

open Text (unescape freeStars)

variable {v : Text} {tokens : List Token}

theorem count_prepend (c : Char) (tokens : List Token) :
    (Token.prepend c tokens).count .wildcard = tokens.count .wildcard := by
  match tokens with
  | [] | .wildcard :: _ | .literal _ :: _ => rfl

-- The first replacement takes one backslash from a run before a star, and the second halves what is left of every run.
theorem plain_spelled (spells : Token.Spells v tokens) : plain tokens = unescape '\\' (unescape '*' v) := by
  induction spells with
  | nil => rw [Text.unescape_nil,Text.unescape_nil]; rfl
  | @pair c s _ marked _ ih =>
      rw [plain_prepend,ih]
      rcases marked with same | same
      · rw [same,Text.unescape_pair,Text.unescape_char (by decide)]
      · rw [same,Text.unescape_lone (s := '\\' :: s) (by simp)]
        by_cases star : s.head? = some '*'
        -- The second backslash goes with the star, and the first is left over from the pair.
        · obtain ⟨t,whole⟩ := List.head?_eq_some_iff.mp star
          rw [whole,Text.unescape_pair,Text.unescape_char (by decide),Text.unescape_lone (by simp)]
        · rw [Text.unescape_lone star,Text.unescape_pair]
  | star _ ih =>
      rw [Text.unescape_char (by decide),Text.unescape_char (by decide),← ih]
      rfl
  | char single _ _ ih => rw [plain_prepend,ih,Text.unescape_char single,Text.unescape_char single]
  | @lone s _ unstarred plain _ ih =>
      have kept : (unescape '*' s).head? ≠ some '\\' := by rwa [Text.unescape_head plain]
      rw [plain_prepend,ih,Text.unescape_lone unstarred,Text.unescape_lone kept]

theorem count_spelled (spells : Token.Spells v tokens) : tokens.count .wildcard = freeStars v := by
  induction spells with
  | nil => rfl
  | pair _ _ ih => rw [count_prepend,ih,Text.freeStars_pair]
  | star _ ih => rw [List.count_cons_self,ih,Text.freeStars_char (by decide),if_pos rfl,Nat.add_comm]
  | char single unstarred _ ih => rw [count_prepend,ih,Text.freeStars_char single,if_neg unstarred,Nat.zero_add]
  | lone unstarred plain _ ih => rw [count_prepend,ih,Text.freeStars_lone unstarred plain]

theorem hasWildcard_count (tokens : List Token) : hasWildcard tokens = true ↔ 0 < tokens.count .wildcard := by
  rw [List.count_pos_iff,hasWildcard,List.any_eq_true]
  constructor
  · intro found
    obtain ⟨token,member,wild⟩ := found
    cases token with
    | wildcard => exact member
    | literal text => cases wild
  · intro member
    exact ⟨.wildcard,member,rfl⟩

theorem ofValue_closed_form (v : Text) :
    plain (Token.ofValue v) = Text.replaceAll "\\\\".toList "\\".toList (Text.replaceAll "\\*".toList "*".toList v) ∧
    (Token.ofValue v).count .wildcard = freeStars v ∧
    (hasWildcard (Token.ofValue v) = true ↔
      ∃ before after, v = before ++ '*' :: after ∧ Text.endingRun before % 2 = 0) := by
  have counted := count_spelled (Token.ofValue_spells v)
  refine ⟨plain_spelled (Token.ofValue_spells v),counted,?_⟩
  rw [hasWildcard_count,counted,Text.freeStars_pos]

end Tokens
end FieldedSearch
