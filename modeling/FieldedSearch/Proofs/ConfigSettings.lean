import Mathlib.Data.List.Forall2
import FieldedSearch.Options.Config

namespace FieldedSearch

open Json (Tree)

namespace Config

variable {α : Type} {tree : Tree} {found : List (Option Tree)}

abbrev Setting := Text × (Tree → Prop)

variable {known : List Setting}

inductive Settings (known : List Setting) : Tree → Prop where
  | listed {items : List Tree} : items.length ≤ known.length →
      (∀ (position : Nat) (setting : Setting) (item : Tree), known[position]? = some setting →
        items[position]? = some item → setting.2 item) → Settings known (.array items)
  | named {members : List (Option Text × Tree)} : (∀ member ∈ members, member.1.isSome = true) →
      (∀ setting ∈ known, (members.filter fun member => member.1 = some setting.1).length ≤ 1) →
      (∀ setting ∈ known, ∀ member ∈ members, member.1 = some setting.1 → setting.2 member.2) →
      Settings known (.object members)

def Given (setting : Setting) (given : Option Tree) : Prop := ∀ tree, given = some tree → setting.2 tree

theorem given_none (setting : Setting) : Given setting none := nofun

theorem given_some (setting : Setting) (tree : Tree) : Given setting (some tree) ↔ setting.2 tree := by
  simp [Given]

theorem listed_exact (known : List Setting) (items : List Tree) (start : Nat) :
    List.Forall₂ Given known (((known.map Prod.fst).zipIdx start).map fun (_,position) => items[position]?) ↔
      ∀ (position : Nat) (setting : Setting) (item : Tree), known[position]? = some setting →
        items[start + position]? = some item → setting.2 item := by
  induction known generalizing start with
  | nil => simp
  | cons first known ih =>
      rw [List.map_cons,List.zipIdx_cons,List.map_cons,List.forall₂_cons,ih]
      constructor
      · rintro ⟨front,behind⟩ position setting item inside given
        cases position with
        | zero =>
            cases inside
            exact front item given
        | succ position =>
            refine behind position setting item inside ?_
            rwa [Nat.add_right_comm,Nat.add_assoc]
      · intro all
        refine ⟨fun tree given => all 0 first tree rfl given,fun position setting item inside given => ?_⟩
        refine all (position + 1) setting item inside ?_
        rwa [← Nat.add_assoc,Nat.add_right_comm]

def member? (members : List (Option Text × Tree)) (name : Text) : Option (Option Tree) :=
  match members.filter fun (key,_) => key = some name with
  | [] => some none
  | [(_,tree)] => some (some tree)
  | _ => none

theorem member?_exact (members : List (Option Text × Tree)) (setting : Setting) :
    (∃ given, member? members setting.1 = some given ∧ Given setting given) ↔
      (members.filter fun member => member.1 = some setting.1).length ≤ 1 ∧
        ∀ member ∈ members, member.1 = some setting.1 → setting.2 member.2 := by
  have inside : ∀ member, member ∈ members.filter (fun (key,_) => key = some setting.1) ↔
      member ∈ members ∧ member.1 = some setting.1 := fun member => by simp [List.mem_filter]
  have every : (∀ member ∈ members, member.1 = some setting.1 → setting.2 member.2) ↔
      ∀ member ∈ members.filter (fun (key,_) => key = some setting.1), setting.2 member.2 := by
    simp only [inside,and_imp]
  rw [member?,every]
  cases members.filter fun (key,_) => key = some setting.1 with
  | nil => simp [given_none]
  | cons first more =>
      cases more with
      | nil => simp [given_some]
      | cons => simp

theorem named_exact (known : List Setting) (members : List (Option Text × Tree)) :
    (∃ found, (known.map Prod.fst).mapM (member? members) = some found ∧ List.Forall₂ Given known found) ↔
      ∀ setting ∈ known, (members.filter fun member => member.1 = some setting.1).length ≤ 1 ∧
        ∀ member ∈ members, member.1 = some setting.1 → setting.2 member.2 := by
  induction known with
  | nil => simp
  | cons setting known ih =>
      rw [List.forall_mem_cons,← ih,← member?_exact,List.map_cons,List.mapM_cons]
      constructor
      · rintro ⟨found,read,given⟩
        simp only [Option.bind_eq_bind,Option.bind_eq_some_iff,Option.pure_def,Option.some.injEq] at read
        obtain ⟨front,first,rest,later,rfl⟩ := read
        obtain ⟨fits,behind⟩ := List.forall₂_cons.mp given
        exact ⟨⟨front,first,fits⟩,rest,later,behind⟩
      · rintro ⟨⟨front,first,fits⟩,rest,later,behind⟩
        exact ⟨front :: rest,by rw [first,later]; rfl,.cons fits behind⟩

theorem settings?_exact (known : List Setting) (tree : Tree) : Settings known tree ↔
    ∃ found, settings? (known.map Prod.fst) tree = some found ∧ List.Forall₂ Given known found := by
  cases tree with
  | array items =>
      rw [settings?,List.length_map]
      by_cases short : items.length ≤ known.length
      · have listed := listed_exact known items 0
        simp only [Nat.zero_add] at listed
        rw [if_pos short]
        constructor
        · rintro ⟨_,fits⟩
          exact ⟨_,rfl,listed.mpr fits⟩
        · rintro ⟨found,same,given⟩
          cases same
          exact .listed short (listed.mp given)
      · rw [if_neg short]
        constructor
        · rintro ⟨fits,_⟩
          exact absurd fits short
        · rintro ⟨_,⟨⟩,_⟩
  | object members =>
      rw [settings?]
      by_cases texts : members.all fun (key,_) => key.isSome
      · rw [if_pos texts]
        refine Iff.trans ?_ (named_exact known members).symm
        constructor
        · rintro ⟨⟩
          next _ once fits => exact fun setting inside => ⟨once setting inside,fits setting inside⟩
        · intro whole
          exact .named (List.all_eq_true.mp texts) (fun setting inside => (whole setting inside).1)
            fun setting inside => (whole setting inside).2
      · rw [if_neg texts]
        constructor
        · rintro ⟨⟩
          next keys _ _ => exact absurd (List.all_eq_true.mpr keys) texts
        · rintro ⟨_,⟨⟩,_⟩
  | null | bool | number | string =>
      constructor
      · rintro ⟨⟩
      · rintro ⟨_,⟨⟩,_⟩

theorem orDefault_isSome (default : α) {read? : Tree → Option α} (setting : Setting)
    (accepts : ∀ tree, (read? tree).isSome = true ↔ setting.2 tree) (given : Option Tree) :
    (orDefault default read? given).isSome = true ↔ Given setting given := by
  cases given with
  | none => exact iff_of_true rfl (given_none setting)
  | some tree => exact (accepts tree).trans (given_some setting tree).symm

-- A case is its name, alone or as the only key of an object with nothing behind it.
inductive IsCase : Tree → Prop where
  | text (mode : CaseMode) : IsCase (.string (some mode.name))
  | key (mode : CaseMode) : IsCase (.object [(some mode.name,.null)])

inductive IsFlag : Tree → Prop where
  | bool (value : Bool) : IsFlag (.bool value)

def caseSetting : Setting := (caseKey,IsCase)
def flagSetting : Setting := ("case_insensitive_flag".toList,IsFlag)

def matchingSetting : Setting := ("matcher".toList,Settings [caseSetting])
def historySetting : Setting := ("history".toList,Settings [caseSetting,flagSetting])
def filterSetting : Setting := ("restriction".toList,Settings [caseSetting])

def IsOptions : Tree → Prop := Settings [matchingSetting,historySetting,filterSetting]

theorem ofName?_isSome (s : Text) : (CaseMode.ofName? s).isSome = true ↔ ∃ mode : CaseMode, s = mode.name := by
  rw [CaseMode.ofName?]
  constructor
  · intro known
    split at known
    · next same => exact ⟨.fold,same⟩
    · split at known
      · next same => exact ⟨.preserve,same⟩
      · cases known
  · rintro ⟨mode,rfl⟩
    cases mode <;> rfl

theorem case?_isSome (tree : Tree) : (case? tree).isSome = true ↔ IsCase tree := by
  constructor
  · intro read
    unfold case? at read
    split at read
    · obtain ⟨mode,rfl⟩ := (ofName?_isSome _).mp read
      exact .text mode
    · obtain ⟨mode,rfl⟩ := (ofName?_isSome _).mp read
      exact .key mode
    · cases read
  · rintro (mode | mode) <;> exact (ofName?_isSome _).mpr ⟨mode,rfl⟩

theorem flag?_isSome (tree : Tree) : (flag? tree).isSome = true ↔ IsFlag tree := by
  constructor
  · intro read
    unfold flag? at read
    split at read
    · exact .bool _
    · cases read
  · rintro ⟨_⟩
    rfl

theorem caseGroup?_isSome (default : CaseMode) (tree : Tree) :
    (caseGroup? default tree).isSome = true ↔ Settings [caseSetting] tree := by
  have case := orDefault_isSome default caseSetting case?_isSome
  rw [settings?_exact,caseGroup?]
  constructor
  · intro whole
    split at whole
    · next given read => exact ⟨_,read,.cons ((case given).mp whole) .nil⟩
    · cases whole
  · rintro ⟨found,read,fits⟩
    obtain ⟨given,rest,first,none,rfl⟩ := List.forall₂_cons_left_iff.mp fits
    cases none
    rw [show settings? [caseKey] tree = some [given] from read]
    exact (case given).mpr first

theorem history?_isSome (default : HistoryOptions) (tree : Tree) :
    (history? default tree).isSome = true ↔ Settings [caseSetting,flagSetting] tree := by
  have case := orDefault_isSome default.case caseSetting case?_isSome
  have flag := orDefault_isSome default.ignoreCase flagSetting flag?_isSome
  have both := fun (x : Option CaseMode) (y : Option Bool) =>
    show (do let case ← x; let ignoreCase ← y; some (HistoryOptions.mk case ignoreCase)).isSome = true ↔
      x.isSome = true ∧ y.isSome = true by cases x <;> cases y <;> simp
  rw [settings?_exact,history?]
  constructor
  · intro whole
    split at whole
    · next given next read =>
        obtain ⟨first,second⟩ := (both _ _).mp whole
        exact ⟨_,read,.cons ((case given).mp first) (.cons ((flag next).mp second) .nil)⟩
    · cases whole
  · rintro ⟨found,read,fits⟩
    obtain ⟨given,rest,first,more,rfl⟩ := List.forall₂_cons_left_iff.mp fits
    obtain ⟨next,rest,second,none,rfl⟩ := List.forall₂_cons_left_iff.mp more
    cases none
    rw [show settings? [caseKey,"case_insensitive_flag".toList] tree = some [given,next] from read]
    exact (both _ _).mpr ⟨(case given).mpr first,(flag next).mpr second⟩

theorem options?_isSome (tree : Tree) : (options? tree).isSome = true ↔ IsOptions tree := by
  have matching := orDefault_isSome Options.defaults.matching matchingSetting
    (caseGroup?_isSome Options.defaults.matching)
  have history := orDefault_isSome Options.defaults.history historySetting (history?_isSome Options.defaults.history)
  have filter := orDefault_isSome Options.defaults.filter filterSetting (caseGroup?_isSome Options.defaults.filter)
  have all := fun (x : Option CaseMode) (y : Option HistoryOptions) (z : Option CaseMode) =>
    show (do let matching ← x; let history ← y; let filter ← z; some (Options.mk matching history filter)).isSome = true ↔
      x.isSome = true ∧ y.isSome = true ∧ z.isSome = true by cases x <;> cases y <;> cases z <;> simp
  rw [IsOptions,settings?_exact,options?]
  constructor
  · intro whole
    split at whole
    · next first second third read =>
        obtain ⟨left,middle,right⟩ := (all _ _ _).mp whole
        exact ⟨_,read,.cons ((matching first).mp left) (.cons ((history second).mp middle)
          (.cons ((filter third).mp right) .nil))⟩
    · cases whole
  · rintro ⟨found,read,fits⟩
    obtain ⟨first,rest,left,more,rfl⟩ := List.forall₂_cons_left_iff.mp fits
    obtain ⟨second,rest,middle,last,rfl⟩ := List.forall₂_cons_left_iff.mp more
    obtain ⟨third,rest,right,none,rfl⟩ := List.forall₂_cons_left_iff.mp last
    cases none
    rw [show settings? ["matcher".toList,"history".toList,"restriction".toList] tree = some [first,second,third] from read]
    exact (all _ _ _).mpr ⟨(matching first).mpr left,(history second).mpr middle,(filter third).mpr right⟩

end Config
end FieldedSearch
