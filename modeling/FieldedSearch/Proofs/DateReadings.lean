import FieldedSearch.DateText
import FieldedSearch.Proofs.Blank

namespace FieldedSearch

variable {c : Char} {s r : Text}

theorem Text.takeFixed_undigited (undigited : c.isDigit = false) (count : Nat) (r : Text) :
    takeFixed (count + 1) (c :: r) = none := by
  simp [takeFixed,allDigits,undigited]

theorem Text.takeUpTo_undigited (undigited : c.isDigit = false) (limit : Nat) (r : Text) :
    takeUpTo (limit + 1) (c :: r) = none := by
  simp [takeUpTo,undigited]

theorem DateKeyword.word_letters (keyword : DateKeyword) : ∀ c ∈ keyword.word, c.isLower = true := by
  have letters : keyword.word.all Char.isLower = true := by cases keyword <;> rfl
  exact List.all_eq_true.mp letters

theorem DateKeyword.read?_unlettered (unlettered : c.toLower.isLower = false) (r : Text) : read? (c :: r) = none := by
  rw [read?,List.find?_eq_none]
  intro keyword _ same
  have begins : c.toLower ∈ keyword.word := (of_decide_eq_true same) ▸ List.mem_cons_self
  rw [keyword.word_letters _ begins] at unlettered
  cases unlettered

theorem DateLayout.date?_unseparated (unseparated : ∀ c ∈ s, isSeparator c = false) : date? s = none := by
  have absent : s.find? isSeparator = none := by
    rw [List.find?_eq_none]
    intro c member
    rw [unseparated c member]
    exact Bool.false_ne_true
  rw [date?,candidates,absent]
  rfl

theorem DateLayout.date?_refused (refused : ∀ separator, isSeparator separator = true →
    ∀ layout ∈ ofSeparator separator, takeAll separator ⟨0,0,0⟩ s layout = none) : date? s = none := by
  rw [date?,List.findSome?_eq_none_iff]
  intro layout member
  cases found : s.find? isSeparator with
  | none => simp [read?,found]
  | some separator =>
      simp only [candidates,found,List.partition_eq_filter_filter,List.mem_append,List.mem_filter] at member
      have known : layout ∈ ofSeparator separator := member.elim And.left And.left
      simp [read?,found,refused separator (List.find?_some found) layout known]

def Unnumbered (c : Char) : Prop := c.isDigit = false ∧ c ≠ '-' ∧ c ≠ '+'

instance (c : Char) : Decidable (Unnumbered c) := inferInstanceAs (Decidable (_ ∧ _))

variable (unnumbered : Unnumbered c)
include unnumbered

theorem Moment.read?_unnumbered (r : Text) : read? (c :: r) = none := by
  have year : takeYear (c :: r) = none := by
    simp [takeYear,unnumbered.2,Text.takeFixed_undigited unnumbered.1]
  simp [read?,takeDate,year]

namespace DateLayout

theorem takeNumber_unnumbered (solid : isBlank c = false) (limit : Nat) (r : Text) :
    takeNumber (limit + 1) (c :: r) = none := by
  have word : isAsciiBlank c = false := by
    cases white : isAsciiBlank c with
    | false => rfl
    | true => rw [isBlank_of_isAsciiBlank c white] at solid; cases solid
  simp [takeNumber,word,Text.takeUpTo_undigited unnumbered.1]

theorem takePart_unnumbered (solid : isBlank c = false) (spelled : Spelled) (r : Text) (part : DatePart) :
    takePart spelled (c :: r) part = none := by
  have number := takeNumber_unnumbered unnumbered solid
  cases part with
  | year => simp [takePart,takeYear,unnumbered.2,number]
  | month => simp [takePart,number]
  | day => simp [takePart,number]

theorem date?_unnumbered (solid : isBlank c = false) (r : Text) : date? (c :: r) = none := by
  have part := takePart_unnumbered unnumbered solid
  refine date?_refused fun separator _ => ?_
  unfold ofSeparator
  split <;> simp [takeAll,part]

end DateLayout

namespace Duration

theorem takeSign_unnumbered (r : Text) : takeSign (c :: r) = (none,c :: r) := by
  simp [takeSign,unnumbered.2]

theorem takeCount_unnumbered (r : Text) : takeCount (c :: r) = none := by
  rw [takeCount,Text.takeUpTo_undigited unnumbered.1]
  rfl

theorem worded?_unnumbered (r : Text) : worded? (c :: r) = none := by
  have amounts : takeAmounts (c :: r) = none := by
    rw [takeAmounts,takeCount_unnumbered unnumbered]
  simp [worded?,takeSign_unnumbered unnumbered,amounts]

-- What begins like an ISO duration needs a count or the mark of the times next.
theorem iso?_unnumbered (r : Text) (next : ∀ d t, r = d :: t → Unnumbered d ∧ d.toUpper ≠ 'T') :
    iso? (c :: r) = none := by
  rw [iso?,takeSign_unnumbered unnumbered]
  cases r with
  | nil => simp
  | cons d t =>
      obtain ⟨other,untimed⟩ := next d t rfl
      simp [isoAmounts,untimed,takeCount_unnumbered other]

theorem read?_unnumbered (r : Text) (next : c.toUpper = 'P' → ∀ d t, r = d :: t → Unnumbered d ∧ d.toUpper ≠ 'T') :
    read? (c :: r) = none := by
  rw [read?,takeSign_unnumbered unnumbered]
  split
  · next marked =>
      have upper : c.toUpper = 'P' := by
        simp only [List.head?_cons,Option.some.injEq,Bool.or_eq_true,decide_eq_true_eq] at marked
        rcases marked with rfl | rfl <;> rfl
      rw [iso?_unnumbered unnumbered r (next upper)]
      rfl
  · rw [worded?_unnumbered unnumbered]
    rfl

end Duration

namespace DateText

omit unnumbered

theorem resolve_trim (context : DateContext) (s : Text) : resolve context s.trim = resolve context s := by
  simp only [resolve,Text.trim_trim]

theorem resolve_surrounded (context : DateContext) {lead trail : Text} (front : lead.OnlyBlank)
    (behind : trail.OnlyBlank) (s : Text) : resolve context (lead ++ s ++ trail) = resolve context s := by
  rw [← resolve_trim,Text.trim_append_blank behind,Text.trim_blank_append front,resolve_trim]

variable {context : DateContext} (filled : s ≠ []) (trimmed : s.trim = s)
include filled trimmed

theorem resolve_keyword {days : Days} (keyword : (DateKeyword.read? s).bind (·.days? context.today) = some days) :
    resolve context s = .ok days := by
  simp [resolve,trimmed,filled,keyword]

theorem resolve_layout {d : Date} (keyword : DateKeyword.read? s = none) (layout : DateLayout.date? s = some d) :
    resolve context s = .ok (.single d) := by
  simp [resolve,trimmed,filled,keyword,layout]

theorem resolve_moment (keyword : DateKeyword.read? s = none) (layout : DateLayout.date? s = none)
    (duration : Duration.read? s = none) :
    resolve context s = (moment? context s).elim (.error .unrecognized) fun d => .ok (.single d) := by
  cases moment : moment? context s <;> simp [resolve,trimmed,filled,keyword,layout,moment,duration]

theorem resolve_refused (keyword : (DateKeyword.read? s).bind (·.days? context.today) = none)
    (layout : DateLayout.date? s = none) (moment : Moment.read? s = none) (duration : Duration.read? s = none) :
    resolve context s = .error .unrecognized := by
  have unread : moment? context s = none := by rw [moment?,moment]; rfl
  simp [resolve,trimmed,filled,keyword,layout,unread,duration]

omit filled trimmed

theorem resolve_strange (unnumbered : Unnumbered c) (solid : isBlank c = false) (unlettered : c.toLower.isLower = false)
    (other : c.toUpper ≠ 'P') (r : Text) : resolve context (c :: r) = .error .unrecognized := by
  obtain ⟨t,trimmed⟩ := Text.trim_cons solid r
  rw [← resolve_trim,trimmed]
  refine resolve_refused (List.cons_ne_nil c t) ?_ ?_ ?_ ?_ ?_
  · rw [← trimmed,Text.trim_trim]
  · rw [DateKeyword.read?_unlettered unlettered]
    rfl
  · exact DateLayout.date?_unnumbered unnumbered solid t
  · exact Moment.read?_unnumbered unnumbered t
  · exact Duration.read?_unnumbered unnumbered t fun same => absurd same other

end DateText
end FieldedSearch
