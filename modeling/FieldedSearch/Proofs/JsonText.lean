import FieldedSearch.Json.Written
import FieldedSearch.Proofs.JsonGrammar

namespace FieldedSearch

namespace Json

variable {s : Text} {c : Char} {text : Option Text} {json : Json} {items : List Json} {members : List (Text × Json)}

theorem hexValue?_hexDigit : ∀ n < 16, hexValue? (hexDigit n) = some n := by decide

theorem isCode_control (control : c.toNat < 0x20) :
    IsCode ['0','0',hexDigit (c.toNat / 16),hexDigit (c.toNat % 16)] c.toNat := by
  have high := hexValue?_hexDigit (c.toNat / 16) (by omega)
  have low := hexValue?_hexDigit (c.toNat % 16) (by omega)
  have zero : hexValue? '0' = some 0 := by decide
  simp only [IsCode,takeHex,zero,high,low,Option.bind_eq_bind,Option.bind_some,Option.some.injEq,Prod.mk.injEq,and_true]
  omega

-- Control characters lie below the surrogates, so four digits say everything.
theorem stringText_control (control : c.toNat < 0x20) (spelled : StringText s text) :
    StringText ('\\' :: 'u' :: (['0','0',hexDigit (c.toNat / 16),hexDigit (c.toNat % 16)] ++ s)) (text.map (c :: ·)) := by
  have single : isHighSurrogate c.toNat = false ∧ isLowSurrogate c.toNat = false := by
    simp only [isHighSurrogate,isLowSurrogate,Bool.and_eq_false_iff,decide_eq_false_iff_not]
    omega
  have coded := StringText.code (isCode_control control) single.1 single.2 spelled
  rwa [Char.ofNat_toNat] at coded

theorem stringText_char (c : Char) (spelled : StringText s text) :
    StringText (writtenChar c ++ s) (text.map (c :: ·)) := by
  unfold writtenChar
  iterate 7
    split
    · next same => subst same; exact .letter rfl spelled
  split
  · next control => exact stringText_control control spelled
  · next unquoted single _ _ _ _ _ printed => exact .plain unquoted single printed spelled

theorem stringText_written (s : Text) : StringText (s.flatMap writtenChar) (some s) := by
  induction s with
  | nil => exact .nil
  | cons c s ih => exact stringText_char c ih

theorem keyText_written {before : Text} (space : Spaces before) (key : Text) :
    KeyText (before ++ (writtenString key ++ [':'])) (some key) := by
  have named := KeyText.colon space (stringText_written key) spaces_nil
  simpa [writtenString] using named

def integerLiteral (n : Int) : NumberLiteral := ⟨n < 0,Text.decimal n.natAbs,[],none⟩

theorem wholePart_decimal (n : Nat) : WholePart (Text.decimal n) := by
  obtain ⟨c,r,begins,zero⟩ := Text.decimal_begins n
  have digits := Text.decimal_digits n
  rw [begins] at digits ⊢
  by_cases same : c = '0'
  · rw [(zero same).2,same]
    exact .zero
  · exact .digits same digits

theorem numberText_integer (n : Int) : NumberText (Number.integer n).text (integerLiteral n) := by
  have signed : ((if n < 0 then ['-'] else []),decide (n < 0)) ∈ minusSigns := by
    by_cases negative : n < 0 <;> simp [negative,minusSigns]
  have spelled := NumberText.parts signed (wholePart_decimal n.natAbs) .none .none
  simpa only [Number.text,integerLiteral,List.append_nil] using spelled

def Number.literal : Number → NumberLiteral
  | .integer n => integerLiteral n
  | .binary negative x => ((takeNumber (Number.binary negative x).text).map Prod.fst).getD (integerLiteral 0)

mutual

def tree : Json → Tree
  | .null => .null
  | .bool value => .bool value
  | .number value => .number value.literal
  | .string text => .string (some text)
  | .array items => .array (itemTrees items)
  | .object members => .object (memberTrees members)

def itemTrees : List Json → List Tree
  | [] => []
  | item :: r => tree item :: itemTrees r

def memberTrees : List (Text × Json) → List (Option Text × Tree)
  | [] => []
  | (key,value) :: r => (some key,tree value) :: memberTrees r

end

inductive Integral : Json → Prop where
  | null : Integral .null
  | bool (value : Bool) : Integral (.bool value)
  | integer (n : Int) : Integral (.number (.integer n))
  | string (text : Text) : Integral (.string text)
  | array {items : List Json} : (∀ item ∈ items, Integral item) → Integral (.array items)
  | object {members : List (Text × Json)} : (∀ member ∈ members, Integral member.2) → Integral (.object members)

theorem spells_writtenItems (spelled : ∀ item ∈ items, Spells (written item) (.value (tree item))) (filled : items ≠ []) :
    Spells (writtenItems items) (.items (itemTrees items)) := by
  induction items with
  | nil => exact absurd rfl filled
  | cons item items ih =>
      obtain ⟨first,later⟩ := List.forall_mem_cons.mp spelled
      cases items with
      | nil => simpa [writtenItems,itemTrees] using Spells.lastItem first spaces_nil
      | cons next items => exact .nextItem first spaces_nil (ih later (List.cons_ne_nil _ _))

theorem spells_writtenMembers (spelled : ∀ member ∈ members, Spells (written member.2) (.value (tree member.2)))
    (filled : members ≠ []) : Spells (writtenMembers members) (.members (memberTrees members)) := by
  induction members with
  | nil => exact absurd rfl filled
  | cons member members ih =>
      obtain ⟨key,value⟩ := member
      obtain ⟨first,later⟩ := List.forall_mem_cons.mp spelled
      have named := keyText_written spaces_nil key
      cases members with
      | nil => simpa [writtenMembers,memberTrees] using Spells.lastMember named first spaces_nil
      | cons next members =>
          have behind := ih later (List.cons_ne_nil _ _)
          simpa [writtenMembers,memberTrees] using Spells.nextMember named first spaces_nil behind

theorem Integral.spells (integral : Integral json) : Spells (written json) (.value (tree json)) := by
  induction integral with
  | null => exact .word (by simp [words,written,tree])
  | bool value => cases value <;> exact .word (by simp [words,written,tree])
  | integer n => exact .number (numberText_integer n)
  | string s => exact .string (stringText_written s)
  | @array items _ ih =>
      cases items with
      | nil => exact .noItems spaces_nil
      | cons item items => exact .array (spells_writtenItems ih (List.cons_ne_nil _ _))
  | @object members _ ih =>
      cases members with
      | nil => exact .noMembers spaces_nil
      | cons member members => exact .object (spells_writtenMembers ih (List.cons_ne_nil _ _))

theorem Integral.read?_written (integral : Integral json) : read? (written json) = some (tree json) := by
  have denotes := Denotes.value integral.spells spaces_nil
  rw [List.append_nil] at denotes
  exact read?_exact.mpr denotes

theorem hexDigit_line : ∀ n < 16, hexDigit n ≠ '\n' := by decide

theorem writtenChar_line (c : Char) : '\n' ∉ writtenChar c := by
  unfold writtenChar
  iterate 7
    split
    · decide
  split
  · next control =>
      have high := hexDigit_line (c.toNat / 16) (by omega)
      have low := hexDigit_line (c.toNat % 16) (by omega)
      simp [high.symm,low.symm]
  · next line _ _ _ => simp [Ne.symm line]

theorem writtenString_line (s : Text) : '\n' ∉ writtenString s := by
  have inside : '\n' ∉ s.flatMap writtenChar := by
    intro found
    obtain ⟨c,_,broken⟩ := List.mem_flatMap.mp found
    exact writtenChar_line c broken
  simp [writtenString,inside]

theorem integer_line (n : Int) : '\n' ∉ (Number.integer n).text := by
  intro found
  rcases List.mem_append.mp found with sign | digit
  · split at sign <;> simp at sign
  · cases Text.decimal_digits _ _ digit

theorem writtenItems_line (lines : ∀ item ∈ items, '\n' ∉ written item) : '\n' ∉ writtenItems items := by
  induction items with
  | nil => simp [writtenItems]
  | cons item items ih =>
      obtain ⟨first,later⟩ := List.forall_mem_cons.mp lines
      have behind := ih later
      cases items with
      | nil => rwa [writtenItems]
      | cons next items =>
          rw [writtenItems,List.mem_append,List.mem_cons]
          simp only [first,behind,or_false,false_or]
          decide

theorem writtenMembers_line (lines : ∀ member ∈ members, '\n' ∉ written member.2) :
    '\n' ∉ writtenMembers members := by
  induction members with
  | nil => simp [writtenMembers]
  | cons member members ih =>
      obtain ⟨key,value⟩ := member
      obtain ⟨first,later⟩ := List.forall_mem_cons.mp lines
      have behind := ih later
      have front := writtenString_line key
      cases members with
      | nil => simp [writtenMembers,first,front]
      | cons next members => simp [writtenMembers,first,front,behind]

theorem Integral.written_line (integral : Integral json) : '\n' ∉ written json := by
  induction integral with
  | null => rw [written]; decide
  | bool value => cases value <;> (rw [written]; decide)
  | integer n => rw [written]; exact integer_line n
  | string s => rw [written]; exact writtenString_line s
  | array _ ih => simp [written,writtenItems_line ih]
  | object _ ih => simp [written,writtenMembers_line ih]

end Json
end FieldedSearch
