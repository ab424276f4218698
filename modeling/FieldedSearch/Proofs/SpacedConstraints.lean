import FieldedSearch.Proofs.DateConstraint
import FieldedSearch.Proofs.Grouping

namespace FieldedSearch.History

variable {s lead trail : Text} {name value : Text} {context : DateContext} {options : HistoryOptions}

theorem isBlank_apart {c : Char} (blank : isBlank c = true) : c ≠ '<' ∧ c ≠ '>' ∧ c ≠ '=' ∧ c ≠ '.' := by
  refine ⟨?_,?_,?_,?_⟩ <;> rintro rfl <;> cases blank

theorem undotted_behind (blank : lead.OnlyBlank) (undotted : ¬"..".toList <:+: s) : ¬"..".toList <:+: lead ++ s := by
  induction lead with
  | nil => exact undotted
  | cons c lead ih =>
      obtain ⟨first,later⟩ := List.forall_mem_cons.mp blank
      exact DateConstraint.undotted_cons (isBlank_apart first).2.2.2 (ih later)

theorem undotted_ahead (blank : trail.OnlyBlank) (undotted : ¬"..".toList <:+: s) : ¬"..".toList <:+: s ++ trail := by
  have turned : ∀ s : Text, "..".toList <:+: s ↔ "..".toList <:+: s.reverse := fun s => List.reverse_infix.symm
  rw [turned] at undotted ⊢
  rw [List.reverse_append]
  exact undotted_behind blank.reverse undotted

theorem side?_surrounded (front : lead.OnlyBlank) (behind : trail.OnlyBlank) (s : Text) :
    DateBound.side? context (lead ++ s ++ trail) = DateBound.side? context s := by
  rw [side?_exact,side?_exact,DateText.resolve_surrounded context front behind]

theorem side?_refused (front : lead.OnlyBlank) {c : Char} (operator : c = '<' ∨ c = '>') (r : Text) :
    DateBound.side? context (lead ++ c :: r) = none := by
  have refused : DateText.resolve context (c :: r) = .error .unrecognized := by
    rcases operator with rfl | rfl <;> exact DateText.resolve_strange (by decide) (by decide) (by decide) (by decide) r
  rw [side?_exact,← DateText.resolve_trim,Text.trim_blank_append front,DateText.resolve_trim,refused]
  rfl

namespace DateConstraint

structure Gaps where
  first : Text
  second : Text
  third : Text
  fourth : Text
  blank : first.OnlyBlank ∧ second.OnlyBlank ∧ third.OnlyBlank ∧ fourth.OnlyBlank

-- Without an operator the first two gaps are one.
def spaced (gaps : Gaps) : DateConstraint → Text
  | .range lower upper =>
      gaps.first ++ lower ++ gaps.second ++ "..".toList ++ gaps.third ++ upper ++ gaps.fourth
  | .compared comparison date => gaps.first ++ comparison.sign ++ gaps.second ++ date ++ gaps.third

-- Whether blanks stand in front of an operator.
def Detached (gaps : Gaps) : DateConstraint → Prop
  | .range _ _ => False
  | .compared comparison _ => gaps.first ≠ [] ∧ comparison ≠ .within

theorem Plain.surrounded (plain : Plain s) (front : lead.OnlyBlank) (behind : trail.OnlyBlank) :
    Plain (lead ++ s ++ trail) where
  undotted := undotted_ahead behind (undotted_behind front plain.undotted)
  start := by
    intro c r same
    cases lead with
    | cons d lead =>
        obtain ⟨rfl,_⟩ := List.cons.inj same
        exact isBlank_apart (front d List.mem_cons_self)
    | nil =>
        cases s with
        | cons d s =>
            obtain ⟨rfl,_⟩ := List.cons.inj same
            exact plain.start d s rfl
        | nil =>
            have begins : trail = c :: r := same
            exact isBlank_apart (behind c (begins ▸ List.mem_cons_self))
  finish := by
    intro r same
    have last : (lead ++ s ++ trail).getLast? = some '.' := by rw [same,List.getLast?_concat]
    have unblank : ∀ gap : Text, gap.OnlyBlank → gap.getLast? ≠ some '.' := by
      intro gap blank ends
      exact (isBlank_apart (blank '.' (List.mem_of_getLast? ends))).2.2.2 rfl
    rw [List.getLast?_append,List.getLast?_append,Option.or_eq_some_iff,Option.or_eq_some_iff] at last
    rcases last with ends | ⟨_,ends | ⟨_,ends⟩⟩
    · exact unblank trail behind ends
    · obtain ⟨t,dotted⟩ := List.getLast?_eq_some_iff.mp ends
      exact plain.finish t dotted
    · exact unblank lead front ends

-- The bounds of a constraint see its dates only through what these denote.
def bounds (context : DateContext) : DateConstraint → List DateBound
  | .range lower upper =>
      ((DateBound.side? context lower).map fun days => DateBound.notBefore days.first).getD [] ++
        ((DateBound.side? context upper).map fun days => DateBound.notAfter days.last).getD []
  | .compared comparison date =>
      ((DateBound.side? context date).map fun days => DateBound.ofComparison days comparison).getD []

theorem ofValue_text (context : DateContext) {constraint : DateConstraint} (plain : constraint.HasPlainDates) :
    DateBound.ofValue context constraint.text = constraint.bounds context := by
  cases constraint with
  | range lower upper => simp only [DateBound.ofValue,text,splitOnce_dots plain.1.undotted plain.1.finish,bounds]
  | compared comparison date =>
      have single := splitOnce_none (by decide) (sign_undotted plain.undotted comparison)
      simp only [DateBound.ofValue,text,single,takeComparison_sign plain,bounds]

theorem ofValue_attached (context : DateContext) (gaps : Gaps) {constraint : DateConstraint}
    (plain : constraint.HasPlainDates) (attached : ¬constraint.Detached gaps) :
    DateBound.ofValue context (constraint.spaced gaps) = DateBound.ofValue context constraint.text := by
  obtain ⟨first,second,third,fourth⟩ := gaps.blank
  rw [ofValue_text context plain]
  cases constraint with
  | range lower upper =>
      have around : HasPlainDates (.range (gaps.first ++ lower ++ gaps.second) (gaps.third ++ upper ++ gaps.fourth)) :=
        ⟨plain.1.surrounded first second,plain.2.surrounded third fourth⟩
      have same := ofValue_text context around
      simp only [bounds,side?_surrounded,first,second,third,fourth] at same
      rw [bounds,← same]
      simp [spaced,text]
  | compared comparison date =>
      by_cases unsigned : comparison = .within
      · subst unsigned
        have around : HasPlainDates (.compared .within (gaps.first ++ gaps.second ++ date ++ gaps.third)) :=
          Plain.surrounded plain (first.append second) third
        have same := ofValue_text context around
        simp only [bounds,side?_surrounded (first.append second) third] at same
        rw [bounds,← same]
        simp [spaced,text,DateComparison.sign]
      · have none : gaps.first = [] := Classical.not_not.mp fun filled => attached ⟨filled,unsigned⟩
        have around : HasPlainDates (.compared comparison (gaps.second ++ date ++ gaps.third)) :=
          Plain.surrounded plain second third
        have same := ofValue_text context around
        simp only [bounds,side?_surrounded second third] at same
        rw [bounds,← same]
        simp [spaced,text,none]

theorem sign_begins {comparison : DateComparison} (signed : comparison ≠ .within) :
    ∃ c r, comparison.sign = c :: r ∧ (c = '<' ∨ c = '>') := by
  cases comparison with
  | less => exact ⟨_,_,rfl,.inl rfl⟩
  | lessOrEqual => exact ⟨_,_,rfl,.inl rfl⟩
  | greater => exact ⟨_,_,rfl,.inr rfl⟩
  | greaterOrEqual => exact ⟨_,_,rfl,.inr rfl⟩
  | within => cases signed rfl

theorem takeComparison_blank (blank : lead.OnlyBlank) (filled : lead ≠ []) (s : Text) :
    DateBound.takeComparison (lead ++ s) = (.within,lead ++ s) := by
  obtain ⟨c,lead,rfl⟩ := List.exists_cons_of_ne_nil filled
  have apart := isBlank_apart (blank c List.mem_cons_self)
  simp [DateBound.takeComparison,apart]

theorem ofValue_detached (context : DateContext) (gaps : Gaps) {constraint : DateConstraint}
    (plain : constraint.HasPlainDates) (detached : constraint.Detached gaps) :
    DateBound.ofValue context (constraint.spaced gaps) = [] := by
  obtain ⟨first,second,third,_⟩ := gaps.blank
  cases constraint with
  | range => cases detached
  | compared comparison date =>
      have around := (Plain.surrounded plain second third).undotted
      have single := splitOnce_none (by decide) (undotted_behind first (sign_undotted around comparison))
      have whole : spaced gaps (.compared comparison date) =
          gaps.first ++ (comparison.sign ++ (gaps.second ++ date ++ gaps.third)) := by simp [spaced]
      obtain ⟨c,r,sign,operator⟩ := sign_begins detached.2
      have refused : DateBound.side? context
          (gaps.first ++ (comparison.sign ++ (gaps.second ++ date ++ gaps.third))) = none := by
        rw [sign]
        exact side?_refused first operator _
      rw [whole,DateBound.ofValue,single]
      simp only [takeComparison_blank first detached.1,refused]
      rfl

end DateConstraint

-- The value stands at one place among the others, under its name.
def Placed (name : Text) (fields : Text → List Field) : Prop :=
  ∃ before after earlier later, ∀ value, ∃ f : Field, fields value = before ++ f :: after ∧ f.name = name ∧
    f.values = earlier ++ value :: later

theorem placed_addValue (name : Text) (fields : List Field) :
    Placed name fun value => Rule.addValue name value fields := by
  induction fields with
  | nil => exact ⟨[],[],[],[],fun value => ⟨⟨name,value,[]⟩,rfl,rfl,rfl⟩⟩
  | cons g r ih =>
      by_cases own : g.name = name
      · refine ⟨[],r,g.values,[],fun value => ⟨⟨g.name,g.first,g.more ++ [value]⟩,?_,own,rfl⟩⟩
        simp [Rule.addValue,own]
      · obtain ⟨before,after,earlier,later,placed⟩ := ih
        refine ⟨g :: before,after,earlier,later,fun value => ?_⟩
        obtain ⟨f,whole,named,values⟩ := placed value
        exact ⟨f,by simp [Rule.addValue,own,whole],named,values⟩

theorem Placed.addValue {fields : Text → List Field} (placed : Placed name fields) (other more : Text) :
    Placed name fun value => Rule.addValue other more (fields value) := by
  obtain ⟨before,after,earlier,later,placed⟩ := placed
  by_cases ahead : other ∈ before.map Field.name
  · refine ⟨Rule.addValue other more before,after,earlier,later,fun value => ?_⟩
    obtain ⟨f,whole,kept⟩ := placed value
    exact ⟨f,by simp only [whole,Rule.addValue_append,if_pos ahead],kept⟩
  · by_cases own : name = other
    · refine ⟨before,after,earlier,later ++ [more],fun value => ?_⟩
      obtain ⟨f,whole,named,values⟩ := placed value
      refine ⟨⟨f.name,f.first,f.more ++ [more]⟩,?_,named,?_⟩
      · simp only [whole,Rule.addValue_append,if_neg ahead,Rule.addValue,named,if_pos own]
      · rw [← List.cons_append,← List.append_assoc,← values]
        rfl
    · refine ⟨before,Rule.addValue other more after,earlier,later,fun value => ?_⟩
      obtain ⟨f,whole,named,values⟩ := placed value
      exact ⟨f,by simp only [whole,Rule.addValue_append,if_neg ahead,Rule.addValue,named,if_neg own],named,values⟩

theorem Placed.addAll {fields : Text → List Field} (placed : Placed name fields) (pairs : List (Text × Text)) :
    Placed name fun value => Rule.addAll (fields value) pairs := by
  induction pairs generalizing fields with
  | nil => exact placed
  | cons pair pairs ih => exact ih (placed.addValue pair.1 pair.2)

theorem placed_ofPairs (name : Text) (earlier later : List (Text × Text)) :
    Placed name fun value => (Rule.ofPairs (earlier ++ (name,value) :: later)).fields := by
  have placed := (placed_addValue name (Rule.addAll [] earlier)).addAll later
  simpa only [Rule.ofPairs_fields,Rule.addAll,List.foldl_append,List.foldl_cons] using placed

-- What the fields in front ask for does not depend on those behind, apart from what is left to give to the family.
theorem ruleArguments_append (case : CaseMode) (context : DateContext) (actions : List Argument)
    (before : List Field) : ∃ front left, ∀ tail,
      ruleArguments case context actions (before ++ tail) = front ++ ruleArguments case context left tail := by
  induction before generalizing actions with
  | nil => exact ⟨[],actions,fun _ => rfl⟩
  | cons f before ih =>
      by_cases family : role (case.apply f.name) = .action
      · obtain ⟨front,left,given⟩ := ih []
        exact ⟨actions ++ front,left,fun tail => by simp [ruleArguments,family,given]⟩
      · obtain ⟨front,left,given⟩ := ih actions
        refine ⟨fieldArguments context (case.apply f.name) f.values (role (case.apply f.name)) ++ front,left,?_⟩
        intro tail
        simp [ruleArguments,family,given]

theorem actionPart?_date (dated : role name = .date) : actionPart? name = none := by
  unfold role at dated
  split at dated
  · cases dated
  · split at dated
    · next own => rw [own]; decide
    · repeat' split at dated
      all_goals cases dated

theorem actionArguments_placed {case : CaseMode} {rule : Text → Rule}
    (placed : Placed name fun value => (rule value).fields) (dated : role (case.apply name) = .date)
    (value other : Text) : actionArguments case (rule value) = actionArguments case (rule other) := by
  obtain ⟨before,after,earlier,later,placed⟩ := placed
  obtain ⟨f,whole,named,_⟩ := placed value
  obtain ⟨g,also,alike,_⟩ := placed other
  have values : actionValues case (rule value) = actionValues case (rule other) := by
    funext part
    simp only [actionValues,whole,also,List.flatMap_append,List.flatMap_cons,named,alike,actionPart?_date dated]
  rw [actionArguments,actionArguments,values]

def dateArguments (context : DateContext) (values : List Text) : List Argument :=
  values.flatMap fun value => (DateBound.ofValue context value).map .date

theorem arguments_flagged (options : HistoryOptions) (context : DateContext) (rule : Rule) :
    arguments options context rule = arguments options context .empty ++
      ruleArguments options.case context (actionArguments options.case rule) rule.fields := by
  have flags : arguments options context .empty =
      (if options.ignoreCase then [.ignoreCase] else []) ++ [.allMatch,.extended] := List.append_nil _
  rw [flags]
  rfl

theorem arguments_placed (options : HistoryOptions) (context : DateContext) {rule : Text → Rule}
    (placed : Placed name fun value => (rule value).fields) (dated : role (options.case.apply name) = .date) :
    ∃ front back, front ≠ [] ∧ ∀ value, arguments options context (rule value) =
      front ++ (DateBound.ofValue context value).map .date ++ back := by
  have given := fun value => actionArguments_placed placed dated value []
  obtain ⟨before,after,earlier,later,placed⟩ := placed
  obtain ⟨front,left,cut⟩ := ruleArguments_append options.case context (actionArguments options.case (rule [])) before
  refine ⟨arguments options context .empty ++ front ++ dateArguments context earlier,
    dateArguments context later ++ ruleArguments options.case context left after,by simp [arguments],?_⟩
  intro value
  obtain ⟨f,whole,named,values⟩ := placed value
  simp only at whole
  have own : fieldArguments context (options.case.apply f.name) f.values (role (options.case.apply f.name)) =
      dateArguments context earlier ++ (DateBound.ofValue context value).map .date ++ dateArguments context later := by
    simp [named,dated,fieldArguments,values,dateArguments]
  have other : role (options.case.apply f.name) ≠ .action := by
    rw [named,dated]
    decide
  rw [arguments_flagged,given,whole,cut,ruleArguments,if_neg other,own]
  simp only [List.append_assoc]

-- Every argument is seen in the line, so a line that lacks some is shorter.

def lineLength : List Argument → Nat
  | [] => 0
  | argument :: later => argument.text.length + 1 + lineLength later

theorem lineLength_append (front back : List Argument) :
    lineLength (front ++ back) = lineLength front + lineLength back := by
  induction front with
  | nil => exact (Nat.zero_add _).symm
  | cons argument front ih =>
      rw [List.cons_append,lineLength,lineLength,ih]
      omega

theorem length_text {emitted : List Argument} (filled : emitted ≠ []) :
    (text emitted).length + 1 = lineLength emitted := by
  induction emitted with
  | nil => cases filled rfl
  | cons argument later ih =>
      cases later with
      | nil => rfl
      | cons next later =>
          have rest := ih (List.cons_ne_nil next later)
          simp only [text,List.map_cons,Text.join,List.length_append,List.length_singleton] at rest ⊢
          rw [lineLength,← rest]
          omega

theorem text_inserted {front inserted back : List Argument} (filled : front ≠ [])
    (same : text (front ++ inserted ++ back) = text (front ++ back)) : inserted = [] := by
  have more : front ++ inserted ++ back ≠ [] := by simp [filled]
  have fewer : front ++ back ≠ [] := by simp [filled]
  have all := length_text more
  rw [same,length_text fewer,lineLength_append,lineLength_append,lineLength_append] at all
  cases inserted with
  | nil => rfl
  | cons argument later =>
      rw [lineLength] at all
      omega

section
variable {constraint : DateConstraint} (options : HistoryOptions) (context : DateContext)
  (dated : role (options.case.apply name) = .date) (earlier later : List (Text × Text)) (gaps : DateConstraint.Gaps)
  (plain : constraint.HasPlainDates)
include dated plain

theorem spaced_line_exact :
    (¬constraint.Detached gaps →
      arguments options context (Rule.ofPairs (earlier ++ (name,constraint.spaced gaps) :: later)) =
        arguments options context (Rule.ofPairs (earlier ++ (name,constraint.text) :: later))) ∧
    (constraint.Detached gaps →
      arguments options context (Rule.ofPairs (earlier ++ (name,constraint.spaced gaps) :: later)) =
        arguments options context (Rule.ofPairs (earlier ++ (name,[]) :: later))) ∧
    (ofRule options context (Rule.ofPairs (earlier ++ (name,constraint.spaced gaps) :: later)) =
        ofRule options context (Rule.ofPairs (earlier ++ (name,constraint.text) :: later)) ↔
      ¬constraint.Detached gaps ∨ DateBound.ofValue context constraint.text = []) := by
  obtain ⟨front,back,filled,given⟩ := arguments_placed options context (placed_ofPairs name earlier later) dated
  refine ⟨?_,?_,?_⟩
  · intro attached
    rw [given,given,DateConstraint.ofValue_attached context gaps plain attached]
  · intro detached
    have nothing : DateBound.ofValue context [] = [] := rfl
    rw [given,given,DateConstraint.ofValue_detached context gaps plain detached,nothing]
  · rw [ofRule,ofRule,given,given]
    by_cases detached : constraint.Detached gaps
    · rw [DateConstraint.ofValue_detached context gaps plain detached,List.map_nil,List.append_nil]
      constructor
      · intro same
        exact .inr (List.map_eq_nil_iff.mp (text_inserted filled same.symm))
      · intro either
        rw [either.resolve_left fun attached => attached detached,List.map_nil,List.append_nil]
    · rw [DateConstraint.ofValue_attached context gaps plain detached]
      exact iff_of_true rfl (.inl detached)

end

-- Days before a new year, with a blank behind the operator, at the end, and in front of it.

def beforeYear : DateConstraint := .compared .less "2020-01-01".toList

theorem beforeYear_plain : beforeYear.HasPlainDates := DateConstraint.plain_of_undotted (by decide) (by decide)

def innerGaps : DateConstraint.Gaps := ⟨[],[' '],['\t'],[],by decide⟩

def outerGaps : DateConstraint.Gaps := ⟨[' '],[],[],[],by decide⟩

theorem spaced_line_exact_inner :
    role (Options.defaults.history.case.apply "date".toList) = .date ∧ beforeYear.HasPlainDates ∧
      ¬beforeYear.Detached innerGaps ∧ beforeYear.spaced innerGaps = "< 2020-01-01\t".toList ∧
      arguments Options.defaults.history ⟨Date.unixEpoch,.utc⟩
        (Rule.ofPairs [("author".toList,['a']),("date".toList,beforeYear.spaced innerGaps)]) =
      arguments Options.defaults.history ⟨Date.unixEpoch,.utc⟩
        (Rule.ofPairs [("author".toList,['a']),("date".toList,beforeYear.text)]) := by
  have dated : role (Options.defaults.history.case.apply "date".toList) = .date := role_date .preserve
  have attached : ¬beforeYear.Detached innerGaps := fun detached => detached.1 rfl
  obtain ⟨same,_⟩ := spaced_line_exact Options.defaults.history ⟨Date.unixEpoch,.utc⟩ dated [("author".toList,['a'])] []
    innerGaps beforeYear_plain
  exact ⟨dated,beforeYear_plain,attached,rfl,same attached⟩

theorem spaced_line_lost :
    beforeYear.HasPlainDates ∧ beforeYear.spaced outerGaps = ' ' :: beforeYear.text ∧
      ofRule Options.defaults.history ⟨Date.unixEpoch,.utc⟩ (Rule.ofPairs [("date".toList,beforeYear.text)]) =
        "-i --all-match -E --before=2020-01-01".toList ∧
      ofRule Options.defaults.history ⟨Date.unixEpoch,.utc⟩ (Rule.ofPairs [("date".toList,beforeYear.spaced outerGaps)]) =
        "-i --all-match -E".toList := by
  have kept : DateBound.ofValue ⟨Date.unixEpoch,.utc⟩ beforeYear.text =
      [.before ⟨2020,1,1,by decide,by decide,by decide⟩] := rfl
  have lost := DateConstraint.ofValue_detached ⟨Date.unixEpoch,.utc⟩ outerGaps beforeYear_plain ⟨by decide,by decide⟩
  refine ⟨beforeYear_plain,rfl,?_,?_⟩
  · rw [ofRule,arguments_date,kept]
    rfl
  · rw [ofRule,arguments_date,lost]
    rfl

end FieldedSearch.History
