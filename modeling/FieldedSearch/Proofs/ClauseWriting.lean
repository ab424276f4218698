import FieldedSearch.Proofs.Backslashes
import FieldedSearch.Proofs.Covering
import FieldedSearch.Proofs.Grouping

namespace FieldedSearch

open Text (OnlyBlank StartsSolid EndsWord EvenRuns Paired)

-- A bare value is a word, a quoted one leaves its delimiters and its end free.
def Quote.Admits : Quote → Text → Prop
  | .bare,value => (value ≠ [] ∧ ∀ c ∈ value, isBlank c = false) ∧ value.head? ≠ some '"' ∧ value.head? ≠ some '\''
  | .single,value => EvenRuns '\'' value
  | .double,value => EvenRuns '"' value

def Quote.written (quote : Quote) (value : Text) : Text :=
  match quote.delimiter with
  | none => value
  | some delimiter => delimiter :: value.substitute delimiter ['\\',delimiter] ++ [delimiter]

namespace Clause

structure Entry where
  negated : Bool
  name : Text
  value : Text
  quote : Quote
  named : IsFieldName name
  admitted : quote.Admits value

namespace Entry

def clause (e : Entry) : Clause := ⟨e.negated,some e.name,e.value,e.quote⟩

def body (e : Entry) : Text := e.name ++ ':' :: e.quote.written e.value

def text (e : Entry) : Text := if e.negated then '-' :: e.body else e.body

end Entry

-- Blanks stand behind every entry. Only behind the last one there may be none.
inductive Writes : List Entry → Text → Prop where
  | nil : Writes [] []
  | cons {e : Entry} {gap s : Text} {later : List Entry} : OnlyBlank gap → (later ≠ [] → gap ≠ []) →
      Writes later s → Writes (e :: later) (e.text ++ (gap ++ s))

variable {delimiter : Char} {value s rest : Text} {quote : Quote} {e : Entry} {entries : List Entry}

theorem quoted_written (plain : delimiter ≠ '\\') (paired : Paired delimiter value) :
    Quoted delimiter (value.substitute delimiter ['\\',delimiter] ++ [delimiter]) value := by
  induction paired with
  | nil => exact .closed
  | pair other _ ih =>
      rw [Text.substitute_cons,if_neg (Ne.symm plain),Text.substitute_cons,if_neg other]
      exact .pair other ih
  | @char c value single _ ih =>
      rw [Text.substitute_cons]
      by_cases ends : c = delimiter
      · subst ends
        rw [if_pos rfl]
        exact .escaped ih
      · rw [if_neg ends]
        exact .char ends single ih

-- An escaped delimiter leaves no backslash in front of it, so nothing else can be the value of a quoted body.
theorem Quoted.paired {body : Text} (plain : delimiter ≠ '\\') (quoted : Quoted delimiter body value) :
    Paired delimiter value := by
  induction quoted with
  | closed => exact .nil
  | escaped _ ih => exact .char plain ih
  | pair other _ ih => exact .pair other ih
  | char _ single _ ih => exact .char single ih

theorem written_solid (admitted : quote.Admits value) : StartsSolid (quote.written value) := by
  cases quote with
  | bare =>
      obtain ⟨⟨filled,solid⟩,_⟩ := admitted
      obtain ⟨c,r,rfl⟩ := List.exists_cons_of_ne_nil filled
      exact ⟨c,r,rfl,solid c List.mem_cons_self⟩
  | single => exact ⟨'\'',_,rfl,by decide⟩
  | double => exact ⟨'"',_,rfl,by decide⟩

theorem takeValue_admitted (admitted : quote.Admits value) (ends : EndsWord rest) :
    takeValue (quote.written value ++ rest) = ((value,quote),rest) := by
  cases quote with
  | bare =>
      obtain ⟨⟨filled,solid⟩,double,single⟩ := admitted
      exact takeValue_bare (openingQuote_bare double single) filled solid ends
  | single => exact takeValue_quoted rfl (quoted_written (by decide) admitted.paired) rest
  | double => exact takeValue_quoted rfl (quoted_written (by decide) admitted.paired) rest

theorem take_negated (unmarked : takeNegation s = (false,s)) (solid : StartsSolid s) :
    take ('-' :: s) = ({ (take s).1 with negated := true },(take s).2) := by
  obtain ⟨c,r,rfl,word⟩ := solid
  have marked : takeNegation ('-' :: c :: r) = (true,c :: r) := by simp [takeNegation,word]
  simp only [take,marked,unmarked]
  split <;> rfl

theorem take_body (e : Entry) (ends : EndsWord rest) :
    take (e.body ++ rest) = (⟨false,some e.name,e.value,e.quote⟩,rest) := by
  have behind := (written_solid e.admitted).append rest
  have read := take_colon e.named (show OnlyBlank [] from fun _ member => nomatch member) behind
    (takeValue_admitted e.admitted ends)
  rwa [List.nil_append,← List.cons_append,← List.append_assoc] at read

theorem body_solid (e : Entry) (rest : Text) : StartsSolid (e.body ++ rest) :=
  ((name_solid e.named).append _).append rest

theorem take_entry (e : Entry) (ends : EndsWord rest) : take (e.text ++ rest) = (e.clause,rest) := by
  have plain := take_body e ends
  unfold Entry.text Entry.clause
  cases e.negated with
  | false => exact plain
  | true =>
      have unmarked : takeNegation (e.body ++ rest) = (false,e.body ++ rest) := by
        rw [Entry.body,List.append_assoc]
        exact takeNegation_name e.named _
      simp only [if_true,List.cons_append,take_negated unmarked (body_solid e rest),plain]

theorem text_solid (e : Entry) (rest : Text) : StartsSolid (e.text ++ rest) := by
  unfold Entry.text
  split
  · exact ⟨'-',_,rfl,by decide⟩
  · exact body_solid e rest

theorem endsWord_writes {gap : Text} (blank : OnlyBlank gap) (separated : entries ≠ [] → gap ≠ [])
    (written : Writes entries s) : EndsWord (gap ++ s) := by
  cases gap with
  | nil =>
      cases written with
      | nil => intro c r same; cases same
      | cons => exact absurd rfl (separated (List.cons_ne_nil _ _))
  | cons d gap => exact blank.endsWord (List.cons_ne_nil d gap) s

theorem scan_entries (written : Writes entries s) : scan s = entries.map Entry.clause := by
  induction written with
  | nil => exact scan_end rfl
  | @cons e gap s later blank separated behind ih =>
      have ends := endsWord_writes blank separated behind
      rw [scan_solid (text_solid e _),take_entry e ends,scan_blank blank,ih,List.map_cons]

theorem scan_entry (e : Entry) : scan e.text = [e.clause] := by
  have alone : Writes [e] (e.text ++ ([] ++ [])) :=
    .cons (fun _ member => nomatch member) (fun more => absurd rfl more) .nil
  rw [List.append_nil,List.append_nil] at alone
  exact scan_entries alone

theorem surviving?_entry (e : Entry) : Rule.surviving? true e.clause = some (e.name,e.value) := by
  simp [Rule.surviving?,Entry.clause]

theorem scan_restores (written : Writes entries s) : scan s = entries.map Entry.clause ∧
    Rule.parse? true s =
      if entries.isEmpty then none else some (Rule.ofPairs (entries.map fun e => (e.name,e.value))) := by
  have scanned := scan_entries written
  refine ⟨scanned,?_⟩
  have pushed : (entries.map Entry.clause).filterMap (Rule.surviving? true) =
      entries.map fun e => (e.name,e.value) := by
    rw [List.filterMap_map,← List.filterMap_eq_map]
    exact congrArg (List.filterMap · entries) (funext surviving?_entry)
  simp only [Rule.parse?,scanned,pushed]
  cases entries with
  | nil => rfl
  | cons e later => rw [Rule.ofPairs_filled (by simp)]; rfl

theorem scan_restores_odd_values : ∃ entries,
    Writes entries "-a:x:-y \t b:\"\\\\\\\" -c:d\"".toList ∧
    scan "-a:x:-y \t b:\"\\\\\\\" -c:d\"".toList =
      [⟨true,some "a".toList,"x:-y".toList,.bare⟩,⟨false,some "b".toList,"\\\\\" -c:d".toList,.double⟩] ∧
    Rule.parse? true "-a:x:-y \t b:\"\\\\\\\" -c:d\"".toList =
      some (Rule.ofPairs [("a".toList,"x:-y".toList),("b".toList,"\\\\\" -c:d".toList)]) := by
  have solid : ("x:-y".toList.all fun c => !isBlank c) = true := by decide
  have word : Quote.Admits .bare "x:-y".toList := by
    refine ⟨⟨by decide,?_⟩,by decide,by decide⟩
    intro c member
    simpa using List.all_eq_true.mp solid c member
  have run : Quote.Admits .double "\\\\\" -c:d".toList :=
    Text.evenRuns_exact.mpr (.pair (by decide) (.char (by decide) (Text.paired_of_absent (by decide))))
  let first : Entry := ⟨true,"a".toList,"x:-y".toList,.bare,⟨'a',[],rfl,rfl,fun _ member => nomatch member⟩,word⟩
  let second : Entry :=
    ⟨false,"b".toList,"\\\\\" -c:d".toList,.double,⟨'b',[],rfl,rfl,fun _ member => nomatch member⟩,run⟩
  have none : OnlyBlank [] := fun _ member => nomatch member
  have alone : Writes [second] "b:\"\\\\\\\" -c:d\"".toList := .cons none (fun more => absurd rfl more) .nil
  have blank : OnlyBlank " \t ".toList := List.all_eq_true.mp (show " \t ".toList.all isBlank = true by decide)
  have written : Writes [first,second] "-a:x:-y \t b:\"\\\\\\\" -c:d\"".toList :=
    .cons blank (fun _ => by decide) alone
  exact ⟨[first,second],written,(scan_restores written).1,(scan_restores written).2⟩

end Clause
end FieldedSearch
