import FieldedSearch.Proofs.ClauseWriting

namespace FieldedSearch

open Text (EvenRuns)

namespace Clause

structure Formed (clause : Clause) : Prop where
  named : ∀ name, clause.field = some name → IsFieldName name
  word : clause.quote = .bare → clause.value ≠ [] ∧ ∀ c ∈ clause.value, isBlank c = false
  even : ∀ delimiter, clause.quote.delimiter = some delimiter → EvenRuns delimiter clause.value

variable {delimiter : Char} {value source rest : Text} {quote : Quote} {clause : Clause}

theorem ValueSource.word (valued : ValueSource value quote source rest) (bare : quote = .bare) :
    value ≠ [] ∧ ∀ c ∈ value, isBlank c = false := by
  cases valued with
  | quoted closing _ => rw [bare] at closing; cases closing
  | bare filled solid _ => exact ⟨filled,solid⟩

theorem ValueSource.even (valued : ValueSource value quote source rest) (closing : quote.delimiter = some delimiter) :
    EvenRuns delimiter value := by
  cases valued with
  | quoted known quoted =>
      rw [known] at closing
      cases closing
      exact Text.evenRuns_exact.mpr (quoted.paired (delimiter_solid known).2)
  | bare => cases closing

theorem Source.valued (sourced : Source clause source rest) :
    ∃ inner, ValueSource clause.value clause.quote inner rest := by
  cases sourced with
  | plain body | negated body _ =>
      cases body with
      | labelled _ _ valued | unlabelled valued => exact ⟨_,valued⟩

theorem Source.formed (sourced : Source clause source rest) : Formed clause := by
  obtain ⟨_,valued⟩ := sourced.valued
  exact ⟨fun _ labelled => sourced.named labelled,valued.word,fun _ closing => valued.even closing⟩

theorem scan_formed (query : Text) : ∀ clause ∈ scan query, Formed clause := by
  intro clause scanned
  obtain ⟨_,_,sourced⟩ := scan_sourced query clause scanned
  exact sourced.formed

theorem admits_of_even (closing : quote.delimiter = some delimiter) (even : EvenRuns delimiter value) :
    quote.Admits value := by
  cases quote <;> cases closing <;> exact even

-- A label in front is the shortest query that asks for any value.
theorem exists_scanned (closing : quote.delimiter = some delimiter) (even : EvenRuns delimiter value) :
    ∃ query, ∃ clause ∈ scan query, clause.quote = quote ∧ clause.value = value := by
  let e : Entry := ⟨false,['x'],value,quote,by decide,admits_of_even closing even⟩
  have scanned : e.clause ∈ scan e.text := by
    rw [scan_entry]
    exact List.mem_singleton_self e.clause
  exact ⟨_,e.clause,scanned,rfl,rfl⟩

theorem scan_image :
    (∀ query, ∀ clause ∈ scan query, Formed clause) ∧
    (∀ quote delimiter, quote.delimiter = some delimiter → ∀ value,
      (∃ query, ∃ clause ∈ scan query, clause.quote = quote ∧ clause.value = value) ↔ EvenRuns delimiter value) ∧
    ∀ query, ∀ clause ∈ scan query, clause.value = [] → clause.quote = .single ∨ clause.quote = .double := by
  refine ⟨scan_formed,?_,?_⟩
  · intro quote delimiter closing value
    constructor
    · intro found
      obtain ⟨query,clause,scanned,rfl,rfl⟩ := found
      exact (scan_formed query clause scanned).even delimiter closing
    · exact exists_scanned closing
  · intro query clause scanned empty
    have formed := scan_formed query clause scanned
    cases same : clause.quote with
    | bare => exact absurd empty (formed.word same).1
    | single => exact .inl rfl
    | double => exact .inr rfl

-- An unclosed quote stays a word, and keeps the lone backslash that no quoted value could end in.
theorem scan_image_unclosed : ∃ query, scan query = [⟨true,some ['a'],[],.single⟩,
      ⟨false,some ['b'],"\\\\\"".toList,.double⟩,⟨false,none,"\"c\\".toList,.bare⟩] ∧
    Formed ⟨false,none,"\"c\\".toList,.bare⟩ ∧ EvenRuns '"' "\\\\\"".toList ∧
    (¬∃ other, ∃ clause ∈ scan other, clause.quote = .double ∧ clause.value = "\"c\\".toList) ∧
    (Quote.single = .single ∨ Quote.single = .double) := by
  let empty : Clause := ⟨true,some ['a'],[],.single⟩
  let even : Clause := ⟨false,some ['b'],"\\\\\"".toList,.double⟩
  let word : Clause := ⟨false,none,"\"c\\".toList,.bare⟩
  have scanned : scan "-a:'' b:\"\\\\\\\"\" \"c\\".toList = [empty,even,word] := by decide +kernel
  have known : ∀ clause ∈ [empty,even,word], clause ∈ scan "-a:'' b:\"\\\\\\\"\" \"c\\".toList :=
    fun _ member => scanned ▸ member
  obtain ⟨formed,occurs,quoted⟩ := scan_image
  refine ⟨_,scanned,formed _ word (known word (by simp)),?_,?_,quoted _ empty (known empty (by simp)) rfl⟩
  · exact (occurs .double '"' rfl _).mp ⟨_,even,known even (by simp),rfl,rfl⟩
  · intro found
    have run := (occurs .double '"' rfl _).mp found
    exact absurd (run "\"c\\".toList [] rfl (by simp)) (by decide)

end Clause
end FieldedSearch
