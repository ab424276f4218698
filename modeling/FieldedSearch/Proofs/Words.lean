import FieldedSearch.Proofs.Backslashes

namespace FieldedSearch.Words

open Text (EvenRuns)

-- Quotes are kept, with what stands between them as it is written.
inductive Part where
  | char (c : Char)
  | quoted (inside : Text)
  deriving DecidableEq, Repr

def Part.text : Part → Text
  | .char c => [c]
  | .quoted inside => '"' :: inside ++ ['"']

def takeInside : Text → Option (Text × Text)
  | [] => none
  | '\\' :: c :: r => (takeInside r).map fun (inside,rest) => ('\\' :: c :: inside,rest)
  | c :: r => if c = '"' then some ([],r) else (takeInside r).map fun (inside,rest) => (c :: inside,rest)

theorem takeInside_length (s inside rest : Text) (closed : takeInside s = some (inside,rest)) :
    rest.length < s.length := by
  fun_induction takeInside s generalizing inside rest with
  | case1 => cases closed
  | case2 c r ih =>
      obtain ⟨⟨inner,left⟩,read,same⟩ := Option.map_eq_some_iff.mp closed
      cases same
      have shorter := ih _ _ read
      simp only [List.length_cons]
      omega
  | case3 r _ => cases closed; simp
  | case4 c r _ _ ih =>
      obtain ⟨⟨inner,left⟩,read,same⟩ := Option.map_eq_some_iff.mp closed
      cases same
      exact Nat.lt_succ_of_lt (ih _ _ read)

-- The first word and the words behind it. Nothing when a quote stays open.
def cut : Text → Option (List Part × List (List Part))
  | [] => some ([],[])
  | c :: r =>
      if c = ' ' then (cut r).map fun (word,words) => ([],word :: words)
      else if c = '"' then
        match _closed : takeInside r with
        | none => none
        | some (inside,rest) => (cut rest).map fun (word,words) => (.quoted inside :: word,words)
      else (cut r).map fun (word,words) => (.char c :: word,words)
termination_by s => s.length
decreasing_by
  · exact Nat.lt_succ_self _
  · exact Nat.lt_succ_of_lt (takeInside_length r inside rest _closed)
  · exact Nat.lt_succ_self _

def read? (s : Text) : Option (List (List Part)) := (cut s).map fun (word,words) => word :: words

inductive Inside : Text → Prop where
  | nil : Inside []
  | pair {c : Char} {s : Text} : Inside s → Inside ('\\' :: c :: s)
  | char {c : Char} {s : Text} : c ≠ '"' → c ≠ '\\' → Inside s → Inside (c :: s)

variable {c : Char} {s t inside rest : Text}

theorem takeInside_sound (closed : takeInside s = some (inside,rest)) : Inside inside ∧ s = inside ++ '"' :: rest := by
  fun_induction takeInside s generalizing inside rest with
  | case1 => cases closed
  | case2 c r ih =>
      obtain ⟨⟨inner,left⟩,read,same⟩ := Option.map_eq_some_iff.mp closed
      cases same
      obtain ⟨valid,whole⟩ := ih read
      exact ⟨.pair valid,by rw [whole]; rfl⟩
  | case3 r _ =>
      cases closed
      exact ⟨.nil,rfl⟩
  | case4 c r single unquoted ih =>
      obtain ⟨⟨inner,left⟩,read,same⟩ := Option.map_eq_some_iff.mp closed
      cases same
      obtain ⟨valid,whole⟩ := ih read
      have plain : c ≠ '\\' := by
        intro backslash
        cases r with
        | nil => cases read
        | cons d r => exact single d r backslash rfl
      exact ⟨.char unquoted plain valid,by rw [whole]; rfl⟩

theorem takeInside_complete (valid : Inside inside) (rest : Text) :
    takeInside (inside ++ '"' :: rest) = some (inside,rest) := by
  induction valid with
  | nil => rfl
  | pair _ ih => simp [takeInside,ih]
  | char unquoted single _ ih =>
      rw [List.cons_append,takeInside.eq_3 _ _ fun _ _ same => absurd same single]
      simp [ih,unquoted]

def protect (s : Text) : Text := s.substitute '"' "\\\"".toList

theorem protect_quote (s : Text) : protect ('"' :: s) = '\\' :: '"' :: protect s := rfl

theorem protect_char (unquoted : c ≠ '"') (s : Text) : protect (c :: s) = c :: protect s := by
  rw [protect,Text.substitute_cons,if_neg unquoted]
  rfl

theorem inside_pair : Inside ('\\' :: c :: s) ↔ Inside s := by
  constructor
  · intro valid
    cases valid with
    | pair behind => exact behind
    | char _ single => exact absurd rfl single
  · exact .pair

theorem inside_char (unquoted : c ≠ '"') (single : c ≠ '\\') : Inside (c :: s) ↔ Inside s := by
  constructor
  · intro valid
    cases valid with
    | pair => exact absurd rfl single
    | char _ _ behind => exact behind
  · exact .char unquoted single

theorem inside_protect_char (single : c ≠ '\\') : Inside (protect (c :: s)) ↔ Inside (protect s) := by
  by_cases quote : c = '"'
  · subst quote
    exact inside_pair
  · rw [protect_char quote,inside_char quote single]

-- Protection adds a backslash to the run before a quote, so an odd run leaves the quote free.
theorem inside_protect : ∀ s, Inside (protect s) ↔ EvenRuns '"' s
  | [] => iff_of_true .nil (Text.evenRuns_exact.mpr .nil)
  | [c] => by
      by_cases single : c = '\\'
      · subst single
        refine iff_of_false ?_ fun even => even.unended rfl
        intro valid
        cases (show Inside ['\\'] from valid) with
        | char _ single => exact absurd rfl single
      · rw [inside_protect_char single,Text.evenRuns_char single]
        exact inside_protect []
  | c :: d :: s => by
      by_cases single : c = '\\'
      · subst single
        rw [protect_char (by decide)]
        by_cases quote : d = '"'
        · subst quote
          refine iff_of_false ?_ fun even => even.unmarked rfl
          intro valid
          rw [protect_quote,inside_pair] at valid
          cases valid with
          | char free => exact absurd rfl free
        · rw [protect_char quote,inside_pair,Text.evenRuns_pair quote]
          exact inside_protect s
      · rw [inside_protect_char single,Text.evenRuns_char single]
        exact inside_protect (d :: s)

theorem cut_nil : cut [] = some ([],[]) := by
  rw [cut]

theorem cut_space (s : Text) : cut (' ' :: s) = (cut s).map fun (word,words) => ([],word :: words) := by
  rw [cut,if_pos rfl]

theorem cut_char (solid : c ≠ ' ') (unquoted : c ≠ '"') (s : Text) :
    cut (c :: s) = (cut s).map fun (word,words) => (.char c :: word,words) := by
  rw [cut,if_neg solid,if_neg unquoted]

theorem cut_quote (s : Text) : cut ('"' :: s) =
    (takeInside s).bind fun (inside,rest) => (cut rest).map fun (word,words) => (.quoted inside :: word,words) := by
  rw [cut,if_neg (by decide),if_pos rfl]
  split
  · next opened => rw [opened]; rfl
  · next closed => rw [closed]; rfl

def Plain (s : Text) : Prop := ∀ c ∈ s, c ≠ ' ' ∧ c ≠ '"'

instance : Decidable (Plain s) := List.decidableBAll _ s

theorem cut_plain (plain : Plain t) (s : Text) :
    cut (t ++ s) = (cut s).map fun (word,words) => (t.map .char ++ word,words) := by
  induction t with
  | nil => simp
  | cons c t ih =>
      obtain ⟨solid,unquoted⟩ := plain c List.mem_cons_self
      have later := ih fun d member => plain d (List.mem_cons_of_mem _ member)
      rw [List.cons_append,cut_char solid unquoted,later]
      simp [Function.comp_def]

end FieldedSearch.Words
