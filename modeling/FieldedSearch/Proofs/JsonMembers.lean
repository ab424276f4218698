import FieldedSearch.Json.Value

namespace FieldedSearch.Json

variable {key other third : Text} {value : Json} {members known : List (Text × Json)} {depth : Nat}

theorem keyBefore_irrefl (key : Text) : keyBefore key key = false := by
  induction key with
  | nil => rfl
  | cons c r ih => simp [keyBefore,ih]

theorem keyBefore_trans (first : keyBefore key other = true) (second : keyBefore other third = true) :
    keyBefore key third = true := by
  induction key generalizing other third with
  | nil =>
      cases other with
      | nil => cases first
      | cons => cases third with
        | nil => cases second
        | cons => rfl
  | cons c r ih =>
      cases other with
      | nil => cases first
      | cons d s => cases third with
        | nil => cases second
        | cons e t =>
            simp only [keyBefore,Bool.or_eq_true,Bool.and_eq_true,decide_eq_true_eq] at first second ⊢
            rcases first with below | ⟨rfl,inside⟩
            · rcases second with above | ⟨rfl,_⟩
              · exact .inl (Nat.lt_trans below above)
              · exact .inl below
            · rcases second with above | ⟨rfl,behind⟩
              · exact .inl above
              · exact .inr ⟨rfl,ih inside behind⟩

theorem keyBefore_total (different : key ≠ other) (unordered : keyBefore key other = false) :
    keyBefore other key = true := by
  induction key generalizing other with
  | nil =>
      cases other with
      | nil => exact absurd rfl different
      | cons => cases unordered
  | cons c r ih =>
      cases other with
      | nil => rfl
      | cons d s =>
          simp only [keyBefore,Bool.or_eq_false_iff,Bool.and_eq_false_iff,decide_eq_false_iff_not] at unordered
          simp only [keyBefore,Bool.or_eq_true,Bool.and_eq_true,decide_eq_true_eq]
          by_cases same : c = d
          · subst same
            have behind : r ≠ s := fun equal => different (by rw [equal])
            exact .inr ⟨rfl,ih behind (unordered.2.resolve_left fun no => no rfl)⟩
          · have apart : c.toNat ≠ d.toNat := fun equal => same (Char.toNat_inj.mp equal)
            exact .inl (by omega)

theorem keyBefore_apart (before : keyBefore key other = true) : key ≠ other := by
  intro same
  subst same
  rw [keyBefore_irrefl] at before
  cases before

theorem keyBefore_asymm (before : keyBefore key other = true) : keyBefore other key = false := by
  rw [← Bool.not_eq_true]
  intro back
  exact keyBefore_apart (keyBefore_trans before back) rfl

def Ascending (members : List (Text × Json)) : Prop := members.Pairwise fun m n => keyBefore m.1 n.1 = true

theorem setMember_mem {m : Text × Json} (found : m ∈ setMember key value members) :
    m = (key,value) ∨ m ∈ members := by
  induction members with
  | nil => exact .inl (List.mem_singleton.mp found)
  | cons n r ih =>
      rw [setMember] at found
      split at found
      · exact (List.mem_cons.mp found).imp id (List.mem_cons_of_mem _)
      · split at found
        · exact List.mem_cons.mp found
        · rcases List.mem_cons.mp found with rfl | later
          · exact .inr List.mem_cons_self
          · exact (ih later).imp id (List.mem_cons_of_mem _)

theorem setMember_ascending (ascending : Ascending members) (key : Text) (value : Json) :
    Ascending (setMember key value members) := by
  induction members with
  | nil => exact List.pairwise_singleton _ _
  | cons n r ih =>
      obtain ⟨first,later⟩ := List.pairwise_cons.mp ascending
      rw [setMember]
      split
      · next same => exact List.pairwise_cons.mpr ⟨fun m member => same ▸ first m member,later⟩
      · next different =>
          split
          · next before =>
              refine List.pairwise_cons.mpr ⟨?_,ascending⟩
              intro m member
              rcases List.mem_cons.mp member with rfl | behind
              · exact before
              · exact keyBefore_trans before (first m behind)
          · next unordered =>
              refine List.pairwise_cons.mpr ⟨?_,ih later⟩
              intro m member
              rcases setMember_mem member with rfl | behind
              · exact keyBefore_total different (by simpa using unordered)
              · exact first m behind

theorem setMember_exact (ascending : Ascending members) (m : Text × Json) :
    m ∈ setMember key value members ↔ m = (key,value) ∨ m ∈ members ∧ m.1 ≠ key := by
  induction members with
  | nil => simp [setMember]
  | cons n r ih =>
      obtain ⟨first,later⟩ := List.pairwise_cons.mp ascending
      rw [setMember]
      split
      · next same =>
          have apart : ∀ m ∈ r, m.1 ≠ key := fun m member => same ▸ (keyBefore_apart (first m member)).symm
          simp only [List.mem_cons]
          constructor
          · rintro (rfl | member)
            · exact .inl rfl
            · exact .inr ⟨.inr member,apart m member⟩
          · rintro (rfl | ⟨rfl | member,other⟩)
            · exact .inl rfl
            · exact absurd same.symm other
            · exact .inr member
      · next different =>
          split
          · next before =>
              have apart : ∀ m ∈ n :: r, m.1 ≠ key := by
                intro m member
                rcases List.mem_cons.mp member with rfl | behind
                · exact Ne.symm different
                · exact (keyBefore_apart (keyBefore_trans before (first m behind))).symm
              rw [List.mem_cons]
              exact or_congr_right ⟨fun member => ⟨member,apart m member⟩,And.left⟩
          · rw [List.mem_cons,ih later,List.mem_cons]
            constructor
            · rintro (rfl | rfl | ⟨member,other⟩)
              · exact .inr ⟨.inl rfl,Ne.symm different⟩
              · exact .inl rfl
              · exact .inr ⟨.inr member,other⟩
            · rintro (rfl | ⟨rfl | member,other⟩)
              · exact .inr (.inl rfl)
              · exact .inl rfl
              · exact .inr (.inr ⟨member,other⟩)

theorem setMember_last (after : ∀ m ∈ members, keyBefore m.1 key = true) (value : Json) :
    setMember key value members = members ++ [(key,value)] := by
  induction members with
  | nil => rfl
  | cons n r ih =>
      obtain ⟨first,later⟩ := List.forall_mem_cons.mp after
      have unordered : ¬keyBefore key n.1 = true := by rw [keyBefore_asymm first]; exact Bool.false_ne_true
      rw [setMember,if_neg (keyBefore_apart first).symm,if_neg unordered,ih later]
      rfl

inductive Last (key : Text) (tree : Tree) : List (Option Text × Tree) → Prop where
  | here {later : List (Option Text × Tree)} : some key ∉ later.map Prod.fst → Last key tree ((some key,tree) :: later)
  | behind {source : Option Text × Tree} {later : List (Option Text × Tree)} : Last key tree later →
      Last key tree (source :: later)

-- Each key once, in order, with the last value given for it.
structure Gathers (depth : Nat) (sources : List (Option Text × Tree)) (members : List (Text × Json)) : Prop where
  ascending : Ascending members
  exact : ∀ key value, (key,value) ∈ members ↔ ∃ tree, Last key tree sources ∧ ofTree? depth tree = some value

variable {sources : List (Option Text × Tree)}

theorem ofMembers?_cons {source : Option Text × Tree}
    (read : ofMembers? depth known (source :: sources) = some members) :
    ∃ key value, source.1 = some key ∧ ofTree? depth source.2 = some value ∧
      ofMembers? depth (setMember key value known) sources = some members := by
  simp only [ofMembers?,Option.bind_eq_bind,Option.bind_eq_some_iff] at read
  obtain ⟨key,named,value,whole,later⟩ := read
  exact ⟨key,value,named,whole,later⟩

theorem ofMembers?_ascending (ascending : Ascending known) (read : ofMembers? depth known sources = some members) :
    Ascending members := by
  induction sources generalizing known with
  | nil =>
      cases read
      exact ascending
  | cons source sources ih =>
      obtain ⟨key,value,_,_,later⟩ := ofMembers?_cons read
      exact ih (setMember_ascending ascending key value) later

-- Known members stay unless their key is given again.
theorem ofMembers?_exact (ascending : Ascending known) (read : ofMembers? depth known sources = some members)
    (key : Text) (value : Json) : (key,value) ∈ members ↔
      (∃ tree, Last key tree sources ∧ ofTree? depth tree = some value) ∨
        (key,value) ∈ known ∧ some key ∉ sources.map Prod.fst := by
  induction sources generalizing known with
  | nil =>
      cases read
      constructor
      · exact fun member => .inr ⟨member,List.not_mem_nil⟩
      · rintro (⟨_,⟨⟩,_⟩ | ⟨member,_⟩)
        exact member
  | cons source sources ih =>
      obtain ⟨front,given,named,whole,later⟩ := ofMembers?_cons read
      obtain ⟨name,tree⟩ := source
      cases named
      rw [ih (setMember_ascending ascending front given) later,setMember_exact ascending,List.map_cons,List.mem_cons,
        not_or,Option.some.injEq]
      constructor
      · rintro (⟨last,hidden,read⟩ | ⟨same | ⟨member,other⟩,fresh⟩)
        · exact .inl ⟨last,.behind hidden,read⟩
        · cases same
          exact .inl ⟨tree,.here fresh,whole⟩
        · exact .inr ⟨member,other,fresh⟩
      · rintro (⟨last,fresh | hidden,read⟩ | ⟨member,other,fresh⟩)
        · cases whole.symm.trans read
          exact .inr ⟨.inl rfl,fresh⟩
        · exact .inl ⟨last,hidden,read⟩
        · exact .inr ⟨.inr ⟨member,other⟩,fresh⟩

theorem ofMembers?_gathers (read : ofMembers? depth [] sources = some members) : Gathers depth sources members where
  ascending := ofMembers?_ascending .nil read
  exact := by
    intro key value
    have exact := ofMembers?_exact .nil read key value
    simpa using exact

theorem ofMembers?_values (read : ofMembers? depth known sources = some members) :
    ∀ m ∈ members, m ∈ known ∨ ∃ source ∈ sources, ofTree? depth source.2 = some m.2 := by
  induction sources generalizing known with
  | nil =>
      cases read
      exact fun m member => .inl member
  | cons source sources ih =>
      obtain ⟨key,value,_,whole,later⟩ := ofMembers?_cons read
      intro m member
      rcases ih later m member with old | ⟨given,inside,read⟩
      · rcases setMember_mem old with rfl | older
        · exact .inr ⟨source,List.mem_cons_self,whole⟩
        · exact .inl older
      · exact .inr ⟨given,List.mem_cons_of_mem _ inside,read⟩

end FieldedSearch.Json
