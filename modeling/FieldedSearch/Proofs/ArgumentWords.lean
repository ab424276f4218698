import FieldedSearch.Proofs.BoundText
import FieldedSearch.Proofs.Words

namespace FieldedSearch.History

open Text (EvenRuns Paired)
open Words (Part Plain)

-- What an argument holds outside its quotes, and between them if it has any.
structure Shape where
  bare : Text
  quoted : Option Text

def Argument.shape : Argument → Shape
  | .ignoreCase => ⟨"-i".toList,none⟩
  | .allMatch => ⟨"--all-match".toList,none⟩
  | .extended => ⟨"-E".toList,none⟩
  | .author pattern => ⟨"--author=".toList,some pattern⟩
  | .grep pattern => ⟨"--grep=".toList,some pattern⟩
  | .before text => ⟨"--before=".toList,some text⟩
  | .after text => ⟨"--after=".toList,some text⟩
  | .date (.after day) => ⟨"--after=".toList ++ day.text,none⟩
  | .date (.before day) => ⟨"--before=".toList ++ day.text,none⟩
  | .date (.fromStart day) => ⟨"--after=".toList,some (day.text ++ " 00:00:00".toList)⟩
  | .date (.toEnd day) => ⟨"--before=".toList,some (day.text ++ " 23:59:59".toList)⟩

def Argument.word (a : Argument) : List Part :=
  a.shape.bare.map .char ++ a.shape.quoted.toList.map fun s => .quoted (Words.protect s)

def Argument.Closed (a : Argument) : Prop := ∀ s ∈ a.shape.quoted, EvenRuns '"' s

variable {a : Argument} {s rest value : Text} {word : List Part} {words : List (List Part)}

theorem text_shape (a : Argument) : a.text = a.shape.bare ++ (a.shape.quoted.map quote).getD [] := by
  cases a with
  | ignoreCase | allMatch | extended => rfl
  | author | grep | before | after => rfl
  | date bound =>
      cases bound with
      | after | before => exact (List.append_nil _).symm
      | fromStart | toEnd => rfl

theorem word_text (a : Argument) : a.word.flatMap Part.text = a.text := by
  have bare : ∀ s : Text, (s.map Part.char).flatMap Part.text = s := by
    intro s
    simp [List.flatMap_map,Part.text]
  rw [text_shape,Argument.word,List.flatMap_append,bare]
  cases a.shape.quoted with
  | none => rfl
  | some s => simp [Part.text,quote,Words.protect]

theorem day_plain (flag : Plain s) (d : Date) : Plain (s ++ d.text) := by
  intro c member
  rcases List.mem_append.mp member with front | day
  · exact flag c front
  · rcases d.text_chars c day with digit | dash
    · constructor
      · intro same; subst same; cases digit
      · intro same; subst same; cases digit
    · subst dash
      exact ⟨by decide,by decide⟩

theorem shape_plain (a : Argument) : Plain a.shape.bare := by
  have author : Plain "--author=".toList := by decide
  have grep : Plain "--grep=".toList := by decide
  have before : Plain "--before=".toList := by decide
  have after : Plain "--after=".toList := by decide
  cases a with
  | ignoreCase | allMatch | extended => decide
  | author => exact author
  | grep => exact grep
  | before => exact before
  | after => exact after
  | date bound =>
      cases bound with
      | after day => exact day_plain after day
      | before day => exact day_plain before day
      | fromStart => exact after
      | toEnd => exact before

theorem quote_rest (s rest : Text) :
    ((some s).map quote).getD [] ++ rest = '"' :: (Words.protect s ++ '"' :: rest) := by
  simp [quote,Words.protect]

theorem cut_argument (closed : a.Closed) (rest : Text) :
    Words.cut (a.text ++ rest) = (Words.cut rest).map fun (word,words) => (a.word ++ word,words) := by
  rw [text_shape,List.append_assoc,Words.cut_plain (shape_plain a),Argument.word]
  cases between : a.shape.quoted with
  | none => simp
  | some s =>
      have inside := (Words.inside_protect s).mpr (closed s between)
      rw [quote_rest,Words.cut_quote,Words.takeInside_complete inside]
      simp [Function.comp_def]

theorem closed_of_cut (whole : Words.cut (a.text ++ rest) = some (a.word ++ word,words)) : a.Closed := by
  intro s between
  rw [text_shape,List.append_assoc,Words.cut_plain (shape_plain a),Argument.word,between,quote_rest,
    Words.cut_quote] at whole
  obtain ⟨⟨front,later⟩,read,same⟩ := Option.map_eq_some_iff.mp whole
  obtain ⟨⟨inside,left⟩,closed,behind⟩ := Option.bind_eq_some_iff.mp read
  obtain ⟨_,_,stretch⟩ := Option.map_eq_some_iff.mp behind
  cases stretch
  have parts := congrArg Prod.fst same
  rw [List.append_assoc] at parts
  have first := (List.cons.inj (List.append_cancel_left parts)).1
  rw [← Words.inside_protect,← Part.quoted.inj first]
  exact (Words.takeInside_sound closed).1

theorem read?_last (closed : a.Closed) : Words.read? a.text = some [a.word] := by
  have read := cut_argument closed []
  rw [List.append_nil,Words.cut_nil] at read
  simp [Words.read?,read]

theorem read?_next (closed : a.Closed) (s : Text) :
    Words.read? (a.text ++ ' ' :: s) = (Words.read? s).map (a.word :: ·) := by
  rw [Words.read?,cut_argument closed,Words.cut_space]
  simp [Words.read?,Function.comp_def]

theorem closed_of_read? (whole : Words.read? (a.text ++ rest) = some (a.word :: words)) : a.Closed := by
  obtain ⟨⟨word,later⟩,read,same⟩ := Option.map_eq_some_iff.mp whole
  cases same
  rw [← List.append_nil a.word] at read
  exact closed_of_cut read

-- From argument to argument: the first one closes, or no word is what it was written as.
theorem read?_arguments (a : Argument) (later : List Argument) :
    Words.read? (text (a :: later)) = some ((a :: later).map Argument.word) ↔ ∀ b ∈ a :: later, b.Closed := by
  induction later generalizing a with
  | nil =>
      rw [List.forall_mem_singleton]
      constructor
      · intro whole
        rw [← List.append_nil (text [a])] at whole
        exact closed_of_read? whole
      · exact read?_last
  | cons b later ih =>
      have line : text (a :: b :: later) = a.text ++ ' ' :: text (b :: later) := by
        simp [text,Text.join]
      rw [line,List.forall_mem_cons,← ih b]
      constructor
      · intro whole
        have closed := closed_of_read? whole
        rw [read?_next closed] at whole
        obtain ⟨words,read,same⟩ := Option.map_eq_some_iff.mp whole
        exact ⟨closed,by rw [read,(List.cons.inj same).2]⟩
      · intro both
        rw [read?_next both.1,both.2]
        rfl

theorem patternChar_paired (c : Char) : Paired '"' (patternChar c) := by
  unfold patternChar
  split
  · next escaped =>
      have unquoted : c ≠ '"' := by
        intro same
        subst same
        revert escaped
        decide
      exact .pair unquoted .nil
  · next plain =>
      split
      · exact Text.paired_of_absent (by decide)
      · have single : c ≠ '\\' := by
          intro same
          subst same
          exact plain rfl
        exact .char single .nil

theorem pattern_paired (value : Text) : Paired '"' (pattern value) := by
  induction value with
  | nil => exact .nil
  | cons c value ih => exact (patternChar_paired c).append ih

theorem join_paired {separator : Text} (between : Paired '"' separator) (texts : List Text)
    (paired : ∀ s ∈ texts, Paired '"' s) : Paired '"' (Text.join separator texts) := by
  induction texts with
  | nil => exact .nil
  | cons s texts ih =>
      have first := paired s List.mem_cons_self
      cases texts with
      | nil => exact first
      | cons t texts =>
          have later := ih fun r member => paired r (List.mem_cons_of_mem _ member)
          exact (first.append between).append later

theorem alternatives_paired (values : List Text) : Paired '"' (Text.join ['|'] (values.map pattern)) := by
  refine join_paired (Text.paired_of_absent (by decide)) _ ?_
  exact List.forall_mem_map.mpr fun value _ => pattern_paired value

theorem anyOf_paired (values : List Text) : Paired '"' (anyOf values) := by
  unfold anyOf
  split
  · exact Text.paired_of_absent (by decide)
  · exact pattern_paired _
  · have closing : Paired '"' [')'] := Text.paired_of_absent (by decide)
    exact .char (by decide) ((alternatives_paired _).append closing)

theorem authorPattern_paired (value : Text) : Paired '"' (authorPattern value) := by
  have inner := pattern_paired value
  unfold authorPattern
  split
  · exact .char (by decide) (inner.append (Text.paired_of_absent (by decide)))
  · split
    · exact ((Text.paired_of_absent (by decide)).append inner).append (Text.paired_of_absent (by decide))
    · exact .char (by decide) (inner.append (Text.paired_of_absent (by decide)))

theorem actionPattern_paired (ids : List Text) {head : Text} (paired : Paired '"' head) :
    Paired '"' (actionPattern ids head) := by
  have id : Paired '"' (if ids.isEmpty then "(/.*)?".toList else '/' :: anyOf ids) := by
    split
    · exact Text.paired_of_absent (by decide)
    · exact .char (by decide) (anyOf_paired ids)
  have opening : Paired '"' "^VP-Action: ".toList := Text.paired_of_absent (by decide)
  exact ((opening.append paired).append id).append (Text.paired_of_absent (by decide))

theorem trailerPattern_paired (field : Text) (values : List Text) : Paired '"' (trailerPattern field values) := by
  have spelling : Paired '"' (trailerPrefix field) := by
    unfold trailerPrefix
    split
    · exact .nil
    · split <;> exact Text.paired_of_absent (by decide)
  have name : Paired '"' ('^' :: trailerPrefix field ++ pattern field) :=
    (Paired.char (by decide) spelling).append (pattern_paired field)
  have opening : Paired '"' ": (".toList := Text.paired_of_absent (by decide)
  exact ((name.append opening).append (alternatives_paired values)).append (Text.paired_of_absent (by decide))

theorem closed_quoted (between : a.shape.quoted = some s) : a.Closed ↔ EvenRuns '"' s := by
  rw [Argument.Closed,between]
  simp

theorem actionHeads_paired (pairs scopes actions : List Text) :
    ∀ head ∈ actionHeads pairs scopes actions, Paired '"' head := by
  have joined : Paired '"' (anyOf scopes ++ '/' :: anyOf actions) :=
    (anyOf_paired scopes).append (.char (by decide) (anyOf_paired actions))
  intro head member
  rcases List.mem_append.mp member with qualified | separate
  · split at qualified
    · cases qualified
    · rw [List.mem_singleton.mp qualified]
      exact anyOf_paired pairs
  · split at separate
    · rw [List.mem_singleton.mp separate]
      exact joined
    · cases separate

theorem actionArguments_closed (case : CaseMode) (rule : Rule) : ∀ a ∈ actionArguments case rule, a.Closed := by
  refine List.forall_mem_map.mpr fun head member => ?_
  have paired := actionPattern_paired (actionValues case rule .id) (actionHeads_paired _ _ _ head member)
  exact (closed_quoted rfl).mpr (Text.evenRuns_exact.mpr paired)

theorem date_closed (bound : DateBound) : (Argument.date bound).Closed := by
  have timed : ∀ (day : Date) (clock : Text), '\\' ∉ clock → EvenRuns '"' (day.text ++ clock) := by
    intro day clock absent
    refine Text.evenRuns_exact.mpr (Text.paired_of_absent ?_)
    rw [List.mem_append,not_or]
    exact ⟨day.text_absent (by decide),absent⟩
  cases bound with
  | after | before => intro s between; cases between
  | fromStart day | toEnd day => exact (closed_quoted rfl).mpr (timed day _ (by decide))

def Role.isVerbatim : Role → Bool
  | .before | .after | .text => true
  | .author | .date | .action | .trailer => false

variable {context : DateContext} {case : CaseMode}

theorem fieldArguments_closed (name : Text) (values : List Text) (part : Role) :
    (∀ a ∈ fieldArguments context name values part, a.Closed) ↔
      (part.isVerbatim = true → ∀ value ∈ values, EvenRuns '"' value) := by
  have verbatim : ∀ argument : Text → Argument, (∀ value, (argument value).shape.quoted = some value) →
      ((∀ a ∈ values.map argument, a.Closed) ↔ (true = true → ∀ value ∈ values, EvenRuns '"' value)) := by
    intro argument between
    rw [List.forall_mem_map]
    simp only [closed_quoted (between _),true_implies]
  cases part with
  | before => exact verbatim .before fun _ => rfl
  | after => exact verbatim .after fun _ => rfl
  | text => exact verbatim .grep fun _ => rfl
  | author =>
      refine iff_of_true (List.forall_mem_map.mpr fun value _ => ?_) (fun raw => nomatch raw)
      exact (closed_quoted rfl).mpr (Text.evenRuns_exact.mpr (authorPattern_paired value))
  | date =>
      refine iff_of_true (fun a member => ?_) (fun raw => nomatch raw)
      obtain ⟨value,_,bounds⟩ := List.mem_flatMap.mp member
      obtain ⟨bound,_,rfl⟩ := List.mem_map.mp bounds
      exact date_closed bound
  | trailer =>
      refine iff_of_true (List.forall_mem_singleton.mpr ?_) (fun raw => nomatch raw)
      exact (closed_quoted rfl).mpr (Text.evenRuns_exact.mpr (trailerPattern_paired name values))
  | action => exact iff_of_true (fun a member => nomatch member) (fun raw => nomatch raw)

theorem ruleArguments_closed {actions : List Argument} (closed : ∀ a ∈ actions, a.Closed) (fields : List Field) :
    (∀ a ∈ ruleArguments case context actions fields, a.Closed) ↔
      ∀ f ∈ fields, (role (case.apply f.name)).isVerbatim = true → ∀ value ∈ f.values, EvenRuns '"' value := by
  induction fields generalizing actions with
  | nil => simp [ruleArguments]
  | cons f fields ih =>
      rw [List.forall_mem_cons,ruleArguments]
      split
      · next family =>
          have none : ∀ a ∈ ([] : List Argument), a.Closed := fun _ member => nomatch member
          rw [List.forall_mem_append,ih none,family]
          exact and_congr_left fun _ => iff_of_true closed fun raw => nomatch raw
      · rw [List.forall_mem_append,ih closed,fieldArguments_closed]

theorem flags_closed (ignoreCase : Bool) :
    ∀ a ∈ (if ignoreCase then [.ignoreCase] else []) ++ [Argument.allMatch,.extended], a.Closed := by
  have bare : ∀ a : Argument, a.shape.quoted = none → a.Closed := by
    intro a unquoted s between
    cases unquoted.symm.trans between
  have both : ∀ a ∈ [Argument.allMatch,.extended], a.Closed :=
    List.forall_mem_cons.mpr ⟨bare _ rfl,List.forall_mem_singleton.mpr (bare _ rfl)⟩
  cases ignoreCase with
  | false => exact both
  | true => exact List.forall_mem_cons.mpr ⟨bare _ rfl,both⟩

theorem arguments_closed (options : HistoryOptions) (context : DateContext) (rule : Rule) :
    (∀ a ∈ arguments options context rule, a.Closed) ↔ ∀ f ∈ rule.fields,
      (role (options.case.apply f.name)).isVerbatim = true → ∀ value ∈ f.values, EvenRuns '"' value := by
  rw [arguments,List.forall_mem_append,ruleArguments_closed (actionArguments_closed _ _)]
  exact and_iff_right (flags_closed options.ignoreCase)

theorem read?_ofRule (options : HistoryOptions) (context : DateContext) (rule : Rule) :
    Words.read? (ofRule options context rule) = some ((arguments options context rule).map Argument.word) ↔
      ∀ a ∈ arguments options context rule, a.Closed := by
  obtain ⟨a,later,same⟩ := List.exists_cons_of_ne_nil (show arguments options context rule ≠ [] by simp [arguments])
  rw [ofRule,same]
  exact read?_arguments a later

theorem line_splits (options : HistoryOptions) (context : DateContext) (rule : Rule) :
    (∀ a ∈ arguments options context rule, a.word.flatMap Part.text = a.text) ∧
    (Words.read? (ofRule options context rule) = some ((arguments options context rule).map Argument.word) ↔
      ∀ f ∈ rule.fields, (role (options.case.apply f.name)).isVerbatim = true →
        ∀ value ∈ f.values, EvenRuns '"' value) :=
  ⟨fun a _ => word_text a,(read?_ofRule options context rule).trans (arguments_closed options context rule)⟩

theorem line_splits_quoted_text :
    EvenRuns '"' "say \"hi\" \\\\".toList ∧
    Words.read? "--all-match -E --grep=\"say \\\"hi\\\" \\\\\" --author=\"^a\\\\ <.*>$\"".toList =
      some ["--all-match".toList.map .char,"-E".toList.map .char,
        "--grep=".toList.map .char ++ [.quoted "say \\\"hi\\\" \\\\".toList],
        "--author=".toList.map .char ++ [.quoted "^a\\\\ <.*>$".toList]] := by
  have front : Paired '"' "say \"hi\" ".toList := Text.paired_of_absent (by decide)
  have even : EvenRuns '"' "say \"hi\" \\\\".toList :=
    Text.evenRuns_exact.mpr (front.append (.pair (c := '\\') (by decide) .nil))
  have whole := line_splits ⟨.preserve,false⟩ ⟨.unixEpoch,.utc⟩
    (Rule.ofPairs [("text".toList,"say \"hi\" \\\\".toList),("author".toList,"a\\".toList)])
  refine ⟨even,whole.2.mpr (List.forall_mem_cons.mpr ⟨?_,List.forall_mem_singleton.mpr ?_⟩)⟩
  · exact fun _ => List.forall_mem_singleton.mpr even
  · exact fun raw => nomatch raw

-- The quote behind a lone backslash does not close, so the next argument is drawn in.
theorem line_splits_unless_verbatim : ¬∀ (options : HistoryOptions) (context : DateContext) (rule : Rule),
    Words.read? (ofRule options context rule) = some ((arguments options context rule).map Argument.word) := by
  intro all
  have whole := all ⟨.preserve,true⟩ ⟨.unixEpoch,.utc⟩
    (Rule.ofPairs [("text".toList,"a\\".toList),("author".toList,"Joe".toList)])
  have closed := (arguments_closed _ _ _).mp ((read?_ofRule _ _ _).mp whole)
  have even := closed ⟨"text".toList,"a\\".toList,[]⟩ List.mem_cons_self rfl "a\\".toList List.mem_cons_self
  exact absurd (even "a\\".toList [] (List.append_nil _).symm (by simp)) (by decide)

end FieldedSearch.History
