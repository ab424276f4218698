import FieldedSearch.Proofs.ClauseImage

namespace FieldedSearch

def marks : Text := ['-',':','\\','"','\'']

def IsOther (c : Char) : Prop := isBlank c = false ∧ isNameStart c = false ∧ c ∉ marks

structure KeepsClasses (h : Char → Char) : Prop where
  blank : ∀ c, isBlank c = true → isBlank (h c) = true
  word : ∀ c, isNameStart c = true → isNameStart (h c) = true
  dash : h '-' = '-'
  colon : h ':' = ':'
  backslash : h '\\' = '\\'
  quotes : h '"' = '"' ∧ h '\'' = '\'' ∨ h '"' = '\'' ∧ h '\'' = '"'
  other : ∀ c, IsOther c → IsOther (h c)

def Quote.exchanged : Quote → Quote
  | .bare => .bare
  | .single => .double
  | .double => .single

-- A map of the classes either leaves both quotes or exchanges them.
def Quote.under (h : Char → Char) (quote : Quote) : Quote := if h '"' = '"' then quote else quote.exchanged

def Clause.under (h : Char → Char) (clause : Clause) : Clause :=
  ⟨clause.negated,clause.field.map (List.map h),clause.value.map h,clause.quote.under h⟩

-- All that a scan ever asks about a character, but for which of the two quotes it is.
structure Answers where
  blank : Bool
  word : Bool
  dash : Bool
  colon : Bool
  backslash : Bool
  quote : Bool
  deriving DecidableEq

def answers (c : Char) : Answers := ⟨isBlank c,isNameStart c,c = '-',c = ':',c = '\\',c = '"' || c = '\''⟩

theorem Quote.under_bare (h : Char → Char) : Quote.bare.under h = .bare := by
  unfold Quote.under
  split <;> rfl

variable {h : Char → Char} {c delimiter : Char} {r : Text} {quote : Quote}

theorem marks_apart (c : Char) (marked : c ∈ marks) : isBlank c = false ∧ isNameStart c = false := by
  have every : marks.all (fun c => !isBlank c && !isNameStart c) = true := rfl
  simpa using List.all_eq_true.mp every c marked

theorem answers_unmarked (unmarked : c ∉ marks) : answers c = ⟨isBlank c,isNameStart c,false,false,false,false⟩ := by
  simp only [marks,List.mem_cons,not_or] at unmarked
  simp [answers,unmarked]

theorem blank_unmarked (blank : isBlank c = true) : c ∉ marks := by
  intro marked
  rw [(marks_apart c marked).1] at blank
  cases blank

theorem word_unmarked (starts : isNameStart c = true) : c ∉ marks := by
  intro marked
  rw [(marks_apart c marked).2] at starts
  cases starts

theorem answers_blank (blank : isBlank c = true) : answers c = ⟨true,false,false,false,false,false⟩ := by
  have wordless := Text.stopped_by_blank Clause.isNameStart_solid blank
  rw [answers_unmarked (blank_unmarked blank),blank,wordless]

theorem answers_word (starts : isNameStart c = true) : answers c = ⟨false,true,false,false,false,false⟩ := by
  rw [answers_unmarked (word_unmarked starts),Clause.isNameStart_solid c starts,starts]

theorem answers_other (other : IsOther c) : answers c = ⟨false,false,false,false,false,false⟩ := by
  rw [answers_unmarked other.2.2,other.1,other.2.1]

theorem class_cases (c : Char) : isBlank c = true ∨ isNameStart c = true ∨ c ∈ marks ∨ IsOther c := by
  by_cases blank : isBlank c = true
  · exact .inl blank
  · by_cases starts : isNameStart c = true
    · exact .inr (.inl starts)
    · by_cases marked : c ∈ marks
      · exact .inr (.inr (.inl marked))
      · exact .inr (.inr (.inr ⟨by simpa using blank,by simpa using starts,marked⟩))

theorem quoted_delimiter (quoted : (answers c).quote = true) : ∃ quote : Quote, quote.delimiter = some c := by
  simp only [answers,Bool.or_eq_true,decide_eq_true_eq] at quoted
  rcases quoted with rfl | rfl
  · exact ⟨.double,rfl⟩
  · exact ⟨.single,rfl⟩

theorem Clause.openingQuote_plain (plain : (answers c).quote = false) : openingQuote (c :: r) = .bare := by
  simp only [answers,Bool.or_eq_false_iff,decide_eq_false_iff_not] at plain
  exact openingQuote_bare (by simp [plain.1]) (by simp [plain.2])

namespace KeepsClasses

variable (keeps : KeepsClasses h)
include keeps

theorem answers_eq (c : Char) : answers (h c) = answers c := by
  rcases class_cases c with blank | starts | marked | other
  · rw [answers_blank blank,answers_blank (keeps.blank c blank)]
  · rw [answers_word starts,answers_word (keeps.word c starts)]
  · simp only [marks,List.mem_cons,List.not_mem_nil,or_false] at marked
    rcases marked with rfl | rfl | rfl | rfl | rfl
    · rw [keeps.dash]
    · rw [keeps.colon]
    · rw [keeps.backslash]
    · rcases keeps.quotes with same | exchanged
      · rw [same.1]
      · rw [exchanged.1]
        rfl
    · rcases keeps.quotes with same | exchanged
      · rw [same.2]
      · rw [exchanged.2]
        rfl
  · rw [answers_other other,answers_other (keeps.other c other)]

theorem isBlank_eq (c : Char) : isBlank (h c) = isBlank c := congrArg Answers.blank (keeps.answers_eq c)

theorem isNameStart_eq (c : Char) : isNameStart (h c) = isNameStart c := congrArg Answers.word (keeps.answers_eq c)

theorem dash_exact (c : Char) : h c = '-' ↔ c = '-' := decide_eq_decide.mp (congrArg Answers.dash (keeps.answers_eq c))

theorem colon_exact (c : Char) : h c = ':' ↔ c = ':' :=
  decide_eq_decide.mp (congrArg Answers.colon (keeps.answers_eq c))

theorem backslash_exact (c : Char) : h c = '\\' ↔ c = '\\' :=
  decide_eq_decide.mp (congrArg Answers.backslash (keeps.answers_eq c))

theorem isNameChar_eq (c : Char) : isNameChar (h c) = isNameChar c := by
  rw [isNameChar_or,isNameChar_or,keeps.isNameStart_eq,decide_eq_decide.mpr (keeps.dash_exact c)]

theorem apart : h '"' ≠ h '\'' := by
  rcases keeps.quotes with same | exchanged
  · rw [same.1,same.2]
    decide
  · rw [exchanged.1,exchanged.2]
    decide

-- The one question that the answers leave open is settled by the quotes staying apart.
theorem delimiter_exact (closing : quote.delimiter = some delimiter) (c : Char) :
    h c = h delimiter ↔ c = delimiter := by
  constructor
  · intro same
    have delimits : (answers delimiter).quote = true := by
      cases quote <;> cases closing <;> rfl
    have quoted : (answers c).quote = true := by
      rwa [← keeps.answers_eq,same,keeps.answers_eq]
    simp only [answers,Bool.or_eq_true,decide_eq_true_eq] at delimits quoted
    rcases delimits with rfl | rfl <;> rcases quoted with rfl | rfl
    · rfl
    · exact absurd same.symm keeps.apart
    · exact absurd same keeps.apart
    · rfl
  · exact congrArg h

theorem delimiter_under (quote : Quote) : (quote.under h).delimiter = quote.delimiter.map h := by
  rcases keeps.quotes with ⟨double,single⟩ | ⟨double,single⟩
  · cases quote <;> simp [Quote.under,Quote.delimiter,double,single]
  · cases quote <;> simp [Quote.under,Quote.delimiter,Quote.exchanged,double,single]

end KeepsClasses

namespace Clause

variable (keeps : KeepsClasses h)
include keeps

theorem dropBlank_map (s : Text) : Text.dropBlank (s.map h) = (Text.dropBlank s).map h := by
  have same : isBlank ∘ h = isBlank := funext keeps.isBlank_eq
  rw [Text.dropBlank,List.dropWhile_map,same]
  rfl

theorem takeNegation_map (s : Text) : takeNegation (s.map h) = ((takeNegation s).1,(takeNegation s).2.map h) := by
  match s with
  | [] => rfl
  | [c] => simp [takeNegation]
  | c :: d :: r =>
      by_cases dash : c = '-'
      · subst dash
        simp only [List.map_cons,keeps.dash,takeNegation,keeps.isBlank_eq]
        split <;> simp [keeps.dash]
      · have other : h c ≠ '-' := fun same => dash ((keeps.dash_exact c).mp same)
        simp [takeNegation,dash,other]

theorem takeName_map (s : Text) : takeName (s.map h) = ((takeName s).1.map h,(takeName s).2.map h) := by
  have same : isNameChar ∘ h = isNameChar := funext keeps.isNameChar_eq
  cases s with
  | nil => rfl
  | cons c r =>
      simp only [List.map_cons,takeName,keeps.isNameStart_eq,List.takeWhile_map,List.dropWhile_map,same]
      split <;> rfl

theorem unpaired_map (unpaired : ∀ d t, c = '\\' → r = d :: t → False) :
    ∀ d t, h c = '\\' → r.map h = d :: t → False := by
  intro d t single behind
  obtain ⟨e,u,same,_⟩ := List.map_eq_cons_iff.mp behind
  exact unpaired e u ((keeps.backslash_exact c).mp single) same

theorem takeQuoted_map (closing : quote.delimiter = some delimiter) (s : Text) :
    takeQuoted (h delimiter) (s.map h) =
      (takeQuoted delimiter s).map fun (value,rest) => (value.map h,rest.map h) := by
  fun_induction takeQuoted delimiter s with
  | case1 => rfl
  | case2 c r ih =>
      simp only [List.map_cons,keeps.backslash,takeQuoted,ih,Option.map_map,Function.comp_def,
        keeps.delimiter_exact closing]
      congr 1
      funext read
      split <;> simp [keeps.backslash]
  | case3 r unpaired =>
      rw [List.map_cons,takeQuoted.eq_3 _ _ _ (unpaired_map keeps unpaired),if_pos rfl]
      rfl
  | case4 c r unpaired other ih =>
      have inside : h c ≠ h delimiter := fun same => other ((keeps.delimiter_exact closing c).mp same)
      rw [List.map_cons,takeQuoted.eq_3 _ _ _ (unpaired_map keeps unpaired),if_neg inside,ih,Option.map_map,
        Option.map_map]
      rfl

theorem takeBare_map (s : Text) : takeBare (s.map h) = ((takeBare s).1.map h,(takeBare s).2.map h) := by
  have same : (fun c => !isBlank c) ∘ h = fun c => !isBlank c := funext fun c => by
    rw [Function.comp_apply,keeps.isBlank_eq]
  rw [takeBare,takeBare,List.takeWhile_map,List.dropWhile_map,same]

theorem openingQuote_map (s : Text) : openingQuote (s.map h) = (openingQuote s).under h := by
  cases s with
  | nil => exact (Quote.under_bare h).symm
  | cons c r =>
      cases quoted : (answers c).quote with
      | false =>
          have plain : (answers (h c)).quote = false := by rw [keeps.answers_eq,quoted]
          rw [List.map_cons,openingQuote_plain plain,openingQuote_plain quoted,Quote.under_bare]
      | true =>
          obtain ⟨quote,closing⟩ := quoted_delimiter quoted
          have other : (quote.under h).delimiter = some (h c) := by
            rw [keeps.delimiter_under,closing]
            rfl
          rw [List.map_cons,openingQuote_delimiter other,openingQuote_delimiter closing]

theorem takeValue_map (s : Text) : takeValue (s.map h) =
    (((takeValue s).1.1.map h,(takeValue s).1.2.under h),(takeValue s).2.map h) := by
  simp only [takeValue,openingQuote_map keeps,keeps.delimiter_under]
  cases closing : (openingQuote s).delimiter with
  | none => simp [takeBare_map keeps,Quote.under_bare]
  | some delimiter =>
      simp only [Option.map_some,Option.bind_some,← List.map_tail,takeQuoted_map keeps closing]
      cases takeQuoted delimiter s.tail with
      | none => simp [takeBare_map keeps,Quote.under_bare]
      | some read => rfl

theorem startsClause_map (s : Text) : startsClause (s.map h) = startsClause s := by
  have colon : ((takeName s).2.map h).head? = some ':' ↔ (takeName s).2.head? = some ':' := by
    rw [List.head?_map,Option.map_eq_some_iff]
    constructor
    · intro found
      obtain ⟨c,front,same⟩ := found
      rw [front,(keeps.colon_exact c).mp same]
    · intro front
      exact ⟨':',front,keeps.colon⟩
  simp only [startsClause,takeNegation_map keeps,takeName_map keeps,List.isEmpty_map,decide_eq_decide.mpr colon]

theorem afterLabel_map (s : Text) : afterLabel (s.map h) = (afterLabel s).map (List.map h) := by
  cases s with
  | nil => rfl
  | cons c r =>
      simp only [List.map_cons,afterLabel,dropBlank_map keeps,List.isEmpty_map,startsClause_map keeps,
        keeps.colon_exact,keeps.isBlank_eq]
      split
      · split <;> rfl
      · split
        · split <;> rfl
        · rfl

theorem takeLabel_map (s : Text) :
    takeLabel (s.map h) = (takeLabel s).map fun (name,value) => (name.map h,value.map h) := by
  simp only [takeLabel,takeName_map keeps,afterLabel_map keeps,List.isEmpty_map]
  split
  · rfl
  · rw [Option.map_map,Option.map_map]
    rfl

theorem take_map (s : Text) : take (s.map h) = ((take s).1.under h,(take s).2.map h) := by
  simp only [take,takeNegation_map keeps,takeLabel_map keeps]
  cases takeLabel (takeNegation s).2 with
  | none => simp only [Option.map_none,takeValue_map keeps]; rfl
  | some label => simp only [Option.map_some,takeValue_map keeps]; rfl

theorem scan_map (s : Text) : scan (s.map h) = (scan s).map (Clause.under h) := by
  fun_induction scan s with
  | case1 s ends =>
      rw [scan_end (by rw [dropBlank_map keeps,ends]; rfl)]
      rfl
  | case2 s c r begins ih =>
      have front : Text.dropBlank (s.map h) = h c :: r.map h := by rw [dropBlank_map keeps,begins]; rfl
      have step := take_map keeps (c :: r)
      rw [List.map_cons] at step
      rw [scan_step front,step,ih,List.map_cons]

end Clause

def otherQuote (c : Char) : Char := if c = '"' then '\'' else if c = '\'' then '"' else c

theorem otherQuote_unmarked (unmarked : c ∉ marks) : otherQuote c = c := by
  simp only [marks,List.mem_cons,not_or] at unmarked
  simp [otherQuote,unmarked]

theorem otherQuote_name (c : Char) (inside : isNameChar c = true) : otherQuote c = c := by
  rw [isNameChar_or,Bool.or_eq_true] at inside
  rcases inside with starts | dash
  · exact otherQuote_unmarked (word_unmarked starts)
  · rw [decide_eq_true_eq.mp dash]
    rfl

theorem keeps_otherQuote : KeepsClasses otherQuote where
  blank c blank := by rwa [otherQuote_unmarked (blank_unmarked blank)]
  word c starts := by rwa [otherQuote_unmarked (word_unmarked starts)]
  dash := rfl
  colon := rfl
  backslash := rfl
  quotes := .inr ⟨rfl,rfl⟩
  other c other := by rwa [otherQuote_unmarked other.2.2]

theorem keeps_blanks (blanks : ∀ c, isBlank c = true → isBlank (h c) = true)
    (fixed : ∀ c, isBlank c = false → h c = c) : KeepsClasses h where
  blank := blanks
  word c starts := by rwa [fixed c (Clause.isNameStart_solid c starts)]
  dash := fixed _ rfl
  colon := fixed _ rfl
  backslash := fixed _ rfl
  quotes := .inl ⟨fixed _ rfl,fixed _ rfl⟩
  other c other := by rwa [fixed c other.1]

theorem Quote.under_otherQuote (quote : Quote) : quote.under otherQuote = quote.exchanged := if_neg (by decide)

theorem Clause.field_under {query : Text} {clause : Clause} (fixed : ∀ c, isNameChar c = true → h c = c)
    (scanned : clause ∈ scan query) : clause.field.map (List.map h) = clause.field := by
  have named := (scan_formed query clause scanned).named
  cases labelled : clause.field with
  | none => rfl
  | some name =>
      have chars := (named name labelled).chars
      rw [Option.map_some,List.map_congr_left fun c member => fixed c (chars c member),List.map_id']

-- Any map of the classes, then the two quotes for one another, then some blanks for others.
theorem Clause.scan_by_class :
    (∀ h, KeepsClasses h → ∀ query : Text, scan (query.map h) = (scan query).map (Clause.under h)) ∧
    (∀ query : Text, scan (query.map otherQuote) = (scan query).map fun clause =>
      ⟨clause.negated,clause.field,clause.value.map otherQuote,clause.quote.exchanged⟩) ∧
    ∀ h, (∀ c, isBlank c = true → isBlank (h c) = true) → (∀ c, isBlank c = false → h c = c) →
      ∀ query : Text, scan (query.map h) = (scan query).map fun clause =>
        ⟨clause.negated,clause.field,clause.value.map h,clause.quote⟩ := by
  refine ⟨fun h keeps query => scan_map keeps query,?_,?_⟩
  · intro query
    rw [scan_map keeps_otherQuote]
    refine List.map_congr_left fun clause scanned => ?_
    have field : clause.field.map (List.map otherQuote) = clause.field := field_under otherQuote_name scanned
    rw [Clause.under,field,Quote.under_otherQuote]
  · intro h blanks fixed query
    rw [scan_map (keeps_blanks blanks fixed)]
    refine List.map_congr_left fun clause scanned => ?_
    have field : clause.field.map (List.map h) = clause.field :=
      field_under (fun c inside => fixed c (isNameChar_solid c inside)) scanned
    have quote : clause.quote.under h = clause.quote := if_pos (fixed _ rfl)
    rw [Clause.under,field,quote]

def masked (c : Char) : Char :=
  if isBlank c then '\u3000' else if isNameStart c then 'x' else if c ∈ marks then otherQuote c else '*'

theorem keeps_masked : KeepsClasses masked where
  blank c blank := by
    rw [masked,if_pos blank]
    rfl
  word c starts := by
    rw [masked,if_neg (by simp [Clause.isNameStart_solid c starts]),if_pos starts]
    rfl
  dash := rfl
  colon := rfl
  backslash := rfl
  quotes := .inr ⟨rfl,rfl⟩
  other c other := by
    simp only [masked,other.1,other.2.1,other.2.2,Bool.false_eq_true,if_false]
    exact ⟨by decide,by decide,by decide⟩

theorem Clause.scan_by_class_masked :
    "-Joe:'a\\'é b' c \"".toList.map masked = "-xxx:\"x\\\"*\u3000x\"\u3000x\u3000'".toList ∧
    scan "-xxx:\"x\\\"*\u3000x\"\u3000x\u3000'".toList =
      [⟨true,some "xxx".toList,"x\"*\u3000x".toList,.double⟩,⟨false,some ['x'],['\''],.bare⟩] ∧
    scan "a:'b\tc'\td".toList = [⟨false,some ['a'],"b\tc".toList,.single⟩,⟨false,none,['d'],.bare⟩] := by
  obtain ⟨maps,_,blanks⟩ := scan_by_class
  have mask : "-Joe:'a\\'é b' c \"".toList.map masked = "-xxx:\"x\\\"*\u3000x\"\u3000x\u3000'".toList := by decide
  have plain : scan "-Joe:'a\\'é b' c \"".toList =
      [⟨true,some "Joe".toList,"a'é b".toList,.single⟩,⟨false,some ['c'],['"'],.bare⟩] := by decide +kernel
  have spaced : scan "a:'b c' d".toList =
      [⟨false,some ['a'],"b c".toList,.single⟩,⟨false,none,['d'],.bare⟩] := by decide +kernel
  have first := maps masked keeps_masked "-Joe:'a\\'é b' c \"".toList
  have second := blanks (fun c => if isBlank c then '\t' else c) (fun c blank => by rw [if_pos blank]; rfl)
    (fun c solid => if_neg (by simp [solid])) "a:'b c' d".toList
  rw [mask,plain] at first
  rw [spaced] at second
  exact ⟨mask,first,second⟩

end FieldedSearch
