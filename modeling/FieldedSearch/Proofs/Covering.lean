import FieldedSearch.Proofs.Reading

namespace FieldedSearch.Clause
open Text (OnlyBlank StartsSolid)

inductive BodySource : Option Text → Text → Quote → Text → Text → Prop where
  | labelled {name separator value source rest : Text} {quote : Quote} : IsFieldName name → Separates separator →
      ValueSource value quote source rest → BodySource (some name) value quote (name ++ separator ++ source) rest
  | unlabelled {value source rest : Text} {quote : Quote} : ValueSource value quote source rest →
      BodySource none value quote source rest

-- The text that a clause was read from, with all the text behind it.
inductive Source : Clause → Text → Text → Prop where
  | plain {field : Option Text} {value source rest : Text} {quote : Quote} :
      BodySource field value quote source rest → Source ⟨false,field,value,quote⟩ source rest
  | negated {field : Option Text} {value source rest : Text} {quote : Quote} :
      BodySource field value quote source rest → StartsSolid source →
      Source ⟨true,field,value,quote⟩ ('-' :: source) rest

variable {s : Text} {clause : Clause} {source rest : Text}

theorem isNameStart_solid (c : Char) (starts : isNameStart c = true) : isBlank c = false := by
  change (decide (c.val ≥ 65 ∧ c.val ≤ 90) || (c.val ≥ 97 && c.val ≤ 122) || (c.val ≥ 48 && c.val ≤ 57) || c = '_') =
    true at starts
  simp only [Bool.or_eq_true,Bool.and_eq_true,decide_eq_true_eq,ge_iff_le,UInt32.le_iff_toNat_le] at starts
  change (((65 ≤ c.toNat ∧ c.toNat ≤ 90) ∨ 97 ≤ c.toNat ∧ c.toNat ≤ 122) ∨ 48 ≤ c.toNat ∧ c.toNat ≤ 57) ∨
    c = '_' at starts
  rcases starts with ranges | rfl
  · simp only [isBlank,Bool.or_eq_false_iff,Bool.and_eq_false_iff,decide_eq_false_iff_not]
    omega
  · decide

theorem isNameChar_solid (c : Char) (inside : isNameChar c = true) : isBlank c = false := by
  rw [isNameChar_or,Bool.or_eq_true] at inside
  rcases inside with starts | dash
  · exact isNameStart_solid c starts
  · rw [decide_eq_true_eq.mp dash]
    decide

theorem isNameChar_ascii {c : Char} (char : isNameChar c = true) : c.toNat < 128 := by
  unfold isNameChar Char.isAlphanum Char.isAlpha Char.isUpper Char.isLower Char.isDigit at char
  simp only [Bool.or_eq_true,Bool.and_eq_true,decide_eq_true_eq,UInt32.le_iff_toNat_le] at char
  change c.val.toNat < 128
  rcases char with ((((⟨_,high⟩ | ⟨_,high⟩) | ⟨_,high⟩) | rfl) | rfl)
  · exact Nat.lt_of_le_of_lt high (by decide)
  · exact Nat.lt_of_le_of_lt high (by decide)
  · exact Nat.lt_of_le_of_lt high (by decide)
  · decide
  · decide

-- What is checked for every name character up to 127 holds of all of them.
theorem isNameChar_table {p : Char → Prop}
    (table : ∀ n < 128, isNameChar (Char.ofNat n) = true → p (Char.ofNat n)) {c : Char} (char : isNameChar c = true) :
    p c := by
  have own := table c.toNat (isNameChar_ascii char)
  rw [Char.ofNat_toNat] at own
  exact own char

theorem name_solid {name : Text} (named : IsFieldName name) : StartsSolid name := by
  obtain ⟨c,r,rfl,starts,_⟩ := named
  exact ⟨c,r,rfl,isNameStart_solid c starts⟩

theorem BodySource.solid {field : Option Text} {value : Text} {quote : Quote}
    (body : BodySource field value quote source rest) : StartsSolid source := by
  cases body with
  | labelled named _ _ => exact ((name_solid named).append _).append _
  | unlabelled valued => exact valued.solid

theorem Source.solid (sourced : Source clause source rest) : StartsSolid source := by
  cases sourced with
  | plain body => exact body.solid
  | negated body _ => exact ⟨'-',_,rfl,by decide⟩

theorem takeNegation_sound (solid : StartsSolid s) :
    takeNegation s = (false,s) ∨ ∃ r, s = '-' :: r ∧ StartsSolid r ∧ takeNegation s = (true,r) := by
  unfold takeNegation
  split
  · next c r =>
      split
      · exact .inl rfl
      · next word => exact .inr ⟨c :: r,rfl,⟨c,r,rfl,by simpa using word⟩,rfl⟩
  · exact .inl rfl

theorem body_sound (solid : StartsSolid s) (negated : Bool) (unmarked : takeNegation query = (negated,s)) :
    ∃ source, BodySource (take query).1.field (take query).1.value (take query).1.quote source (take query).2 ∧
      s = source ++ (take query).2 ∧ (take query).1.negated = negated := by
  simp only [take,unmarked]
  split
  · next name left found =>
      obtain ⟨named,filled,separator,separates,same⟩ := takeLabel_sound found
      obtain ⟨source,valued,cut⟩ := takeValue_sound filled
      refine ⟨_,.labelled named separates valued,?_,rfl⟩
      rw [same,List.append_assoc (name ++ separator),← cut]
  · obtain ⟨source,valued,cut⟩ := takeValue_sound solid
    exact ⟨source,.unlabelled valued,cut,rfl⟩

theorem take_sound (solid : StartsSolid s) :
    ∃ source, Source (take s).1 source (take s).2 ∧ s = source ++ (take s).2 := by
  rcases takeNegation_sound solid with unmarked | ⟨r,rfl,inner,marked⟩
  · obtain ⟨source,body,cut,mark⟩ := body_sound solid false unmarked
    exact ⟨source,by simpa only [← mark] using Source.plain body,cut⟩
  · obtain ⟨source,body,cut,mark⟩ := body_sound inner true marked
    exact ⟨'-' :: source,by simpa only [← mark] using Source.negated body body.solid,by rw [List.cons_append,← cut]⟩

theorem Source.named (sourced : Source clause source rest) {name : Text} (labelled : clause.field = some name) :
    IsFieldName name := by
  cases sourced with
  | plain body | negated body _ => cases body <;> cases labelled; assumption

theorem scan_sourced (query : Text) : ∀ clause ∈ scan query, ∃ source rest, Source clause source rest := by
  fun_induction scan query with
  | case1 s ends => simp
  | case2 s c r begins ih =>
      intro clause member
      rcases List.mem_cons.mp member with rfl | later
      · obtain ⟨source,sourced,_⟩ := take_sound ⟨c,r,rfl,dropBlank_head s c r begins⟩
        exact ⟨source,_,sourced⟩
      · exact ih clause later

structure Piece where
  clause : Clause
  source : Text
  gap : Text

def Piece.texts (pieces : List Piece) : Text := pieces.flatMap fun p => p.source ++ p.gap

-- Every piece holds the source of its clause, as it stands in front of all that follows.
def Piece.Sourced : List Piece → Prop
  | [] => True
  | p :: later => Source p.clause p.source (p.gap ++ texts later) ∧ StartsSolid p.source ∧ OnlyBlank p.gap ∧
      Sourced later

theorem scan_covers (query : Text) : ∃ lead pieces, OnlyBlank lead ∧ query = lead ++ Piece.texts pieces ∧
    Piece.Sourced pieces ∧ scan query = pieces.map Piece.clause := by
  fun_induction scan query with
  | case1 s ends =>
      obtain ⟨lead,blank,cut⟩ := Text.cut_blank s
      exact ⟨lead,[],blank,by simpa [ends,Piece.texts] using cut,trivial,rfl⟩
  | case2 s c r begins ih =>
      obtain ⟨lead,blank,cut⟩ := Text.cut_blank s
      obtain ⟨gap,pieces,blanks,behind,sourced,clauses⟩ := ih
      obtain ⟨source,clause,front⟩ := take_sound ⟨c,r,rfl,dropBlank_head s c r begins⟩
      refine ⟨lead,⟨_,source,gap⟩ :: pieces,blank,?_,⟨behind ▸ clause,clause.solid,blanks,sourced⟩,?_⟩
      · rw [cut,begins,front,behind]
        simp [Piece.texts]
      · rw [clauses,List.map_cons]

end FieldedSearch.Clause
