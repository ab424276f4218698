import Mathlib.Data.List.Forall2
import FieldedSearch.Proofs.JsonMembers
import FieldedSearch.Proofs.JsonText

namespace FieldedSearch.Json

variable {depth : Nat} {tree : Tree} {json : Json} {items : List Tree} {values : List Json}
variable {sources : List (Option Text × Tree)} {members known : List (Text × Json)}

theorem Tree.induct {motive : Tree → Prop} (null : motive .null) (bool : ∀ value, motive (.bool value))
    (number : ∀ literal, motive (.number literal)) (string : ∀ text, motive (.string text))
    (array : ∀ items, (∀ item ∈ items, motive item) → motive (.array items))
    (object : ∀ sources, (∀ source ∈ sources, motive source.2) → motive (.object sources)) : ∀ tree, motive tree
  | .null => null
  | .bool value => bool value
  | .number literal => number literal
  | .string text => string text
  | .array items => array items fun item _ => Tree.induct null bool number string array object item
  | .object sources => object sources fun source _ => Tree.induct null bool number string array object source.2
termination_by tree => sizeOf tree
decreasing_by
  · next inside =>
      have smaller := List.sizeOf_lt_of_mem inside
      simp only [Tree.array.sizeOf_spec]
      omega
  · next inside =>
      have smaller := List.sizeOf_lt_of_mem inside
      obtain ⟨key,value⟩ := source
      simp only [Tree.object.sizeOf_spec,Prod.mk.sizeOf_spec] at smaller ⊢
      omega

-- The limits: numbers have a value, strings a text for every escape, and nothing lies too deep.
inductive Tree.Fits : Nat → Tree → Prop where
  | null {depth : Nat} : Fits depth .null
  | bool {depth : Nat} (value : Bool) : Fits depth (.bool value)
  | number {depth : Nat} {literal : NumberLiteral} : (Number.ofLiteral? literal).isSome = true →
      Fits depth (.number literal)
  | string {depth : Nat} (text : Text) : Fits depth (.string (some text))
  | array {depth : Nat} {items : List Tree} : (∀ item ∈ items, Fits depth item) → Fits (depth + 1) (.array items)
  | object {depth : Nat} {sources : List (Option Text × Tree)} : (∀ source ∈ sources, source.1.isSome = true) →
      (∀ source ∈ sources, Fits depth source.2) → Fits (depth + 1) (.object sources)

theorem ofItems?_isSome : (ofItems? depth items).isSome = true ↔ ∀ item ∈ items, (ofTree? depth item).isSome = true := by
  induction items with
  | nil => simp [ofItems?]
  | cons item items ih =>
      rw [List.forall_mem_cons,← ih,ofItems?]
      cases ofTree? depth item <;> cases ofItems? depth items <;> simp

theorem ofMembers?_isSome : (ofMembers? depth known sources).isSome = true ↔
    ∀ source ∈ sources, source.1.isSome = true ∧ (ofTree? depth source.2).isSome = true := by
  induction sources generalizing known with
  | nil => simp [ofMembers?]
  | cons source sources ih =>
      obtain ⟨key,value⟩ := source
      rw [List.forall_mem_cons,ofMembers?]
      cases key with
      | none => simp
      | some key =>
          cases ofTree? depth value with
          | none => simp
          | some value => simp [ih]

theorem Tree.fits_exact (depth : Nat) (tree : Tree) : (ofTree? depth tree).isSome = true ↔ Fits depth tree := by
  induction tree using Tree.induct generalizing depth with
  | null => exact iff_of_true rfl .null
  | bool value => exact iff_of_true rfl (.bool value)
  | number literal =>
      rw [ofTree?,Option.isSome_map]
      constructor
      · exact .number
      · rintro ⟨⟩; assumption
  | string text =>
      cases text with
      | none => exact iff_of_false Bool.false_ne_true nofun
      | some text => exact iff_of_true rfl (.string text)
  | array items ih =>
      cases depth with
      | zero => exact iff_of_false Bool.false_ne_true nofun
      | succ depth =>
          rw [ofTree?,if_neg (Nat.succ_ne_zero depth),Option.isSome_map,Nat.add_sub_cancel,ofItems?_isSome]
          constructor
          · intro whole
            exact .array fun item member => (ih item member depth).mp (whole item member)
          · intro fits item member
            cases fits with
            | array inside => exact (ih item member depth).mpr (inside item member)
  | object sources ih =>
      cases depth with
      | zero => exact iff_of_false Bool.false_ne_true nofun
      | succ depth =>
          rw [ofTree?,if_neg (Nat.succ_ne_zero depth),Option.isSome_map,Nat.add_sub_cancel,ofMembers?_isSome]
          constructor
          · intro whole
            exact .object (fun source member => (whole source member).1)
              fun source member => (ih source member depth).mp (whole source member).2
          · intro fits source member
            cases fits with
            | object keys inside => exact ⟨keys source member,(ih source member depth).mpr (inside source member)⟩

def IsWord (n : Int) : Prop := -(Number.wordLimit : Int) ≤ 2 * n ∧ n < Number.wordLimit

-- The literals of these, without a minus zero.
structure NumberLiteral.IsInteger (literal : NumberLiteral) : Prop where
  whole : literal.fraction = [] ∧ literal.exponent = none
  word : if literal.negative then 0 < Text.number literal.whole ∧ 2 * Text.number literal.whole ≤ Number.wordLimit
    else Text.number literal.whole < Number.wordLimit

theorem significand_foldl (digits : Text) (n : Nat)
    (fits : digits.foldl (fun n c => 10 * n + (c.toNat - 48)) n < Number.wordLimit) :
    Number.significand n digits = (digits.foldl (fun n c => 10 * n + (c.toNat - 48)) n,[]) := by
  induction digits generalizing n with
  | nil => rfl
  | cons c digits ih =>
      have grows : ∀ (digits : Text) (m : Nat), m ≤ digits.foldl (fun n c => 10 * n + (c.toNat - 48)) m := by
        intro digits
        induction digits with
        | nil => exact fun m => Nat.le_refl m
        | cons d digits ih => exact fun m => Nat.le_trans (by omega) (ih (10 * m + (d.toNat - 48)))
      rw [List.foldl_cons] at fits
      have next := Nat.lt_of_le_of_lt (grows digits _) fits
      rw [Number.significand,if_pos next,ih _ fits,List.foldl_cons]

theorem significand_word {digits : Text} (fits : Text.number digits < Number.wordLimit) :
    Number.significand 0 digits = (Text.number digits,[]) := significand_foldl digits 0 fits

theorem ofLiteral?_whole (negative : Bool) (digits : Text) (fits : Text.number digits < Number.wordLimit)
    (signed : negative = true → 0 < Text.number digits ∧ 2 * Text.number digits ≤ Number.wordLimit) :
    Number.ofLiteral? ⟨negative,digits,[],none⟩ =
      some (.integer (if negative then -(Text.number digits : Int) else Text.number digits)) := by
  have read := significand_word fits
  cases negative with
  | false => simp [Number.ofLiteral?,read,Number.isInteger]
  | true => simp [Number.ofLiteral?,read,Number.isInteger,signed rfl]

theorem ofLiteral?_integer {literal : NumberLiteral} (integer : literal.IsInteger) :
    ∃ n, Number.ofLiteral? literal = some (.integer n) ∧ IsWord n := by
  obtain ⟨negative,whole,fraction,exponent⟩ := literal
  obtain ⟨⟨rfl,rfl⟩,word⟩ := integer
  cases negative with
  | false =>
      have fits : Text.number whole < Number.wordLimit := word
      refine ⟨_,ofLiteral?_whole false whole fits nofun,?_⟩
      rw [IsWord,if_neg Bool.false_ne_true]
      omega
  | true =>
      obtain ⟨positive,small⟩ : 0 < Text.number whole ∧ 2 * Text.number whole ≤ Number.wordLimit := word
      refine ⟨_,ofLiteral?_whole true whole (by omega) (fun _ => ⟨positive,small⟩),?_⟩
      rw [IsWord,if_pos rfl]
      omega

theorem ofLiteral?_integerLiteral {n : Int} (word : IsWord n) :
    Number.ofLiteral? (integerLiteral n) = some (.integer n) := by
  obtain ⟨low,high⟩ := word
  have number := Text.number_decimal n.natAbs
  have read := ofLiteral?_whole (decide (n < 0)) (Text.decimal n.natAbs) (by omega)
    (by rw [decide_eq_true_iff]; omega)
  have same : (if decide (n < 0) then -(Text.number (Text.decimal n.natAbs) : Int)
      else Text.number (Text.decimal n.natAbs)) = n := by
    rw [number]
    split
    · next negative => rw [decide_eq_true_iff] at negative; omega
    · next positive => rw [decide_eq_true_iff] at positive; omega
  rwa [same] at read

-- A value as it comes out of a tree of integers, with members in their order.
inductive Settled : Nat → Json → Prop where
  | null {depth : Nat} : Settled depth .null
  | bool {depth : Nat} (value : Bool) : Settled depth (.bool value)
  | integer {depth : Nat} {n : Int} : IsWord n → Settled depth (.number (.integer n))
  | string {depth : Nat} (text : Text) : Settled depth (.string text)
  | array {depth : Nat} {items : List Json} : (∀ item ∈ items, Settled depth item) →
      Settled (depth + 1) (.array items)
  | object {depth : Nat} {members : List (Text × Json)} : Ascending members →
      (∀ member ∈ members, Settled depth member.2) → Settled (depth + 1) (.object members)

theorem Settled.integral (settled : Settled depth json) : Integral json := by
  induction settled with
  | null => exact .null
  | bool value => exact .bool value
  | integer => exact .integer _
  | string text => exact .string text
  | array _ ih => exact .array ih
  | object _ _ ih => exact .object ih

inductive Tree.Integers : Tree → Prop where
  | null : Integers .null
  | bool (value : Bool) : Integers (.bool value)
  | number {literal : NumberLiteral} : literal.IsInteger → Integers (.number literal)
  | string (text : Option Text) : Integers (.string text)
  | array {items : List Tree} : (∀ item ∈ items, Integers item) → Integers (.array items)
  | object {sources : List (Option Text × Tree)} : (∀ source ∈ sources, Integers source.2) →
      Integers (.object sources)

theorem ofItems?_exact : ofItems? depth items = some values ↔
    List.Forall₂ (fun item value => ofTree? depth item = some value) items values := by
  constructor
  · intro read
    induction items generalizing values with
    | nil =>
        cases read
        exact .nil
    | cons item items ih =>
        simp only [ofItems?,Option.bind_eq_bind,Option.bind_eq_some_iff] at read
        obtain ⟨value,front,later,behind,same⟩ := read
        cases same
        exact .cons front (ih behind)
  · intro read
    induction read with
    | nil => rfl
    | cons front _ ih =>
        rw [ofItems?,front,ih]
        rfl

theorem ofItems?_source (read : List.Forall₂ (fun item value => ofTree? depth item = some value) items values) :
    ∀ value ∈ values, ∃ item ∈ items, ofTree? depth item = some value := by
  induction read with
  | nil => simp
  | cons front _ ih =>
      refine List.forall_mem_cons.mpr ⟨⟨_,List.mem_cons_self,front⟩,?_⟩
      intro value member
      obtain ⟨item,known,whole⟩ := ih value member
      exact ⟨item,List.mem_cons_of_mem _ known,whole⟩

theorem ofTree?_array {depth : Nat} (read : ofTree? depth (.array items) = some json) :
    ∃ inner values, depth = inner + 1 ∧ json = .array values ∧
      List.Forall₂ (fun item value => ofTree? inner item = some value) items values := by
  cases depth with
  | zero => cases read
  | succ inner =>
      rw [ofTree?,if_neg (Nat.succ_ne_zero inner),Option.map_eq_some_iff] at read
      obtain ⟨values,inside,rfl⟩ := read
      exact ⟨inner,values,rfl,rfl,ofItems?_exact.mp inside⟩

theorem ofTree?_object {depth : Nat} (read : ofTree? depth (.object sources) = some json) :
    ∃ inner members, depth = inner + 1 ∧ json = .object members ∧ ofMembers? inner [] sources = some members := by
  cases depth with
  | zero => cases read
  | succ inner =>
      rw [ofTree?,if_neg (Nat.succ_ne_zero inner),Option.map_eq_some_iff] at read
      obtain ⟨members,inside,rfl⟩ := read
      exact ⟨inner,members,rfl,rfl,inside⟩

theorem Tree.Integers.settled (integers : tree.Integers) (read : ofTree? depth tree = some json) :
    Settled depth json := by
  induction integers generalizing depth json with
  | null => cases read; exact .null
  | bool value => cases read; exact .bool value
  | number integer =>
      obtain ⟨n,valued,word⟩ := ofLiteral?_integer integer
      rw [ofTree?,valued] at read
      cases read
      exact .integer word
  | string text =>
      obtain ⟨text,_,rfl⟩ := Option.map_eq_some_iff.mp read
      exact .string text
  | array _ ih =>
      obtain ⟨inner,values,rfl,rfl,inside⟩ := ofTree?_array read
      refine .array fun value member => ?_
      obtain ⟨item,known,whole⟩ := ofItems?_source inside value member
      exact ih item known whole
  | object _ ih =>
      obtain ⟨inner,members,rfl,rfl,inside⟩ := ofTree?_object read
      refine .object (ofMembers?_ascending .nil inside) fun member known => ?_
      rcases ofMembers?_values inside member known with none | ⟨source,given,whole⟩
      · cases none
      · exact ih source given whole

theorem ofItems?_trees (whole : ∀ value ∈ values, ofTree? depth value.tree = some value) :
    ofItems? depth (itemTrees values) = some values := by
  induction values with
  | nil => rfl
  | cons value values ih =>
      obtain ⟨first,later⟩ := List.forall_mem_cons.mp whole
      simp [itemTrees,ofItems?,first,ih later]

theorem ofMembers?_trees (known : List (Text × Json)) (ascending : Ascending (known ++ members))
    (whole : ∀ member ∈ members, ofTree? depth member.2.tree = some member.2) :
    ofMembers? depth known (memberTrees members) = some (known ++ members) := by
  induction members generalizing known with
  | nil => simp [memberTrees,ofMembers?]
  | cons member members ih =>
      obtain ⟨key,value⟩ := member
      obtain ⟨first,later⟩ := List.forall_mem_cons.mp whole
      have after : ∀ m ∈ known, keyBefore m.1 key = true :=
        fun m inside => (List.pairwise_append.mp ascending).2.2 m inside _ List.mem_cons_self
      have behind := ih (known ++ [(key,value)]) (by simpa using ascending) later
      simpa [memberTrees,ofMembers?,first,setMember_last after] using behind

theorem Settled.ofTree?_tree (settled : Settled depth json) : ofTree? depth json.tree = some json := by
  induction settled with
  | null => rfl
  | bool value => rfl
  | integer word =>
      rw [tree,Number.literal,ofTree?,ofLiteral?_integerLiteral word]
      rfl
  | string text => rfl
  | array _ ih =>
      rw [tree,ofTree?,if_neg (Nat.succ_ne_zero _),Nat.add_sub_cancel,ofItems?_trees ih]
      rfl
  | object ascending _ ih =>
      rw [tree,ofTree?,if_neg (Nat.succ_ne_zero _),Nat.add_sub_cancel,ofMembers?_trees [] ascending ih]
      rfl

end FieldedSearch.Json
