import Mathlib.Data.List.Forall2
import FieldedSearch.Proofs.ConfigSettings

namespace FieldedSearch.Config

open Json (Tree)

variable {α β : Type} {tree root group : Tree} {names : List Text} {found : List (Option Tree)} {options : Options}

-- Under its key in an object, at its position in a list.
structure Place where
  key : Text
  position : Nat

inductive Place.Holds (place : Place) : Tree → Tree → Prop where
  | named {members : List (Option Text × Tree)} {tree : Tree} : (some place.key,tree) ∈ members →
      place.Holds (.object members) tree
  | listed {items : List Tree} {tree : Tree} : items[place.position]? = some tree → place.Holds (.array items) tree

structure Path where
  group : Place
  setting : Place

def Path.Gives (path : Path) (root tree : Tree) : Prop :=
  ∃ group, path.group.Holds root group ∧ path.setting.Holds group tree

def casePlace : Place := ⟨caseKey,0⟩
def flagPlace : Place := ⟨"case_insensitive_flag".toList,1⟩

def matchingPlace : Place := ⟨"matcher".toList,0⟩
def historyPlace : Place := ⟨"history".toList,1⟩
def filterPlace : Place := ⟨"restriction".toList,2⟩

inductive CaseOf : Tree → CaseMode → Prop where
  | text (mode : CaseMode) : CaseOf (.string (some mode.name)) mode
  | key (mode : CaseMode) : CaseOf (.object [(some mode.name,.null)]) mode

inductive FlagOf : Tree → Bool → Prop where
  | bool (value : Bool) : FlagOf (.bool value) value

-- Whatever is given stands for the value. If nothing is given, it is the default.
structure Filled (stands : Tree → α → Prop) (gives : Tree → Prop) (default value : α) : Prop where
  given : ∀ tree, gives tree → stands tree value
  absent : (∀ tree, ¬gives tree) → value = default

structure FilledFrom (root : Tree) (options : Options) : Prop where
  matching : Filled CaseOf (Path.Gives ⟨matchingPlace,casePlace⟩ root) .fold options.matching
  history : Filled CaseOf (Path.Gives ⟨historyPlace,casePlace⟩ root) .preserve options.history.case
  ignoreCase : Filled FlagOf (Path.Gives ⟨historyPlace,flagPlace⟩ root) true options.history.ignoreCase
  filter : Filled CaseOf (Path.Gives ⟨filterPlace,casePlace⟩ root) .preserve options.filter

def named (members : List (Option Text × Tree)) (name : Text) : List Tree :=
  (members.filter fun member => member.1 = some name).map Prod.snd

theorem mem_named {members : List (Option Text × Tree)} {name : Text} :
    tree ∈ named members name ↔ (some name,tree) ∈ members := by
  simp [named,and_comm]

theorem member?_named {members : List (Option Text × Tree)} {name : Text} {given : Option Tree} :
    member? members name = some given ↔ named members name = given.toList := by
  unfold member?
  split
  · next none =>
      have empty : named members name = [] := congrArg (List.map Prod.snd) none
      cases given <;> simp [empty]
  · next key own single =>
      have one : named members name = [own] := congrArg (List.map Prod.snd) single
      cases given <;> simp [one,eq_comm]
  · next filled several =>
      refine iff_of_false nofun fun same => ?_
      cases given with
      | none => exact filled (List.map_eq_nil_iff.mp same)
      | some own =>
          obtain ⟨member,single,_⟩ := List.map_eq_singleton_iff.mp same
          exact several member.1 member.2 single

theorem member?_holds {members : List (Option Text × Tree)} (place : Place) {given : Option Tree}
    (read : member? members place.key = some given) (inner : Tree) :
    given = some inner ↔ place.Holds (.object members) inner := by
  rw [← Option.mem_toList,← member?_named.mp read,mem_named]
  constructor
  · exact .named
  · rintro ⟨member⟩
    exact member

theorem mapM_exact (read? : Text → Option (Option Tree)) :
    names.mapM read? = some found ↔ List.Forall₂ (fun name given => read? name = some given) names found := by
  induction names generalizing found with
  | nil => simp [eq_comm]
  | cons name names ih =>
      rw [List.mapM_cons,List.forall₂_cons_left_iff]
      simp only [Option.bind_eq_bind,Option.bind_eq_some_iff,Option.pure_def,Option.some.injEq,ih,
        eq_comm (a := found),exists_and_left]

theorem named_holds {members : List (Option Text × Tree)} (start : Nat)
    (read : names.mapM (member? members) = some found) : List.Forall₂
      (fun entry given => ∀ inner, given = some inner ↔ (Place.mk entry.1 entry.2).Holds (.object members) inner)
      (names.zipIdx start) found := by
  have given := (mapM_exact (member? members)).mp read
  clear read
  induction given generalizing start with
  | nil => exact .nil
  | cons first _ ih => exact .cons (member?_holds ⟨_,start⟩ first) (ih (start + 1))

theorem settings?_holds (read : settings? names tree = some found) : List.Forall₂
    (fun entry given => ∀ inner, given = some inner ↔ (Place.mk entry.1 entry.2).Holds tree inner)
    names.zipIdx found := by
  unfold settings? at read
  split at read
  · next items =>
      split at read
      · cases read
        rw [List.forall₂_map_right_iff,List.forall₂_same]
        rintro ⟨name,position⟩ _ inner
        constructor
        · exact fun given => .listed given
        · rintro ⟨⟩
          assumption
      · cases read
  · split at read
    · exact named_holds 0 read
    · cases read
  · cases read

theorem orDefault_filled {stands : Tree → α → Prop} {read? : Tree → Option α} {gives : Tree → Prop}
    {default value : α} {given : Option Tree} (reads : ∀ tree value, read? tree = some value → stands tree value)
    (same : ∀ tree, given = some tree ↔ gives tree) (read : orDefault default read? given = some value) :
    Filled stands gives default value := by
  cases given with
  | none =>
      cases read
      exact ⟨fun tree given => absurd ((same tree).mpr given) nofun,fun _ => rfl⟩
  | some tree =>
      refine ⟨fun other given => ?_,fun none => absurd ((same tree).mp rfl) (none tree)⟩
      cases (same other).mpr given
      exact reads tree value read

-- A setting inside a group that may be left out as a whole.
theorem orDefault_path {stands : Tree → α → Prop} {read? : Tree → Option β} {default value : β}
    {given : Option Tree} (part : β → α) (path : Path)
    (reads : ∀ group value, read? group = some value →
      Filled stands (path.setting.Holds group) (part default) (part value))
    (same : ∀ group, given = some group ↔ path.group.Holds root group)
    (read : orDefault default read? given = some value) :
    Filled stands (path.Gives root) (part default) (part value) := by
  cases given with
  | none =>
      cases read
      refine ⟨?_,fun _ => rfl⟩
      rintro tree ⟨group,holds,_⟩
      exact absurd ((same group).mpr holds) nofun
  | some group =>
      have inside := reads group value read
      constructor
      · rintro tree ⟨other,holds,setting⟩
        cases (same other).mpr holds
        exact inside.given tree setting
      · intro none
        exact inside.absent fun tree holds => none tree ⟨group,(same group).mp rfl,holds⟩

theorem ofName?_name {s : Text} {mode : CaseMode} (read : CaseMode.ofName? s = some mode) : s = mode.name := by
  rw [CaseMode.ofName?] at read
  split at read
  · next same => cases read; exact same
  · split at read
    · next same => cases read; exact same
    · cases read

theorem case?_exact {mode : CaseMode} : case? tree = some mode ↔ CaseOf tree mode := by
  constructor
  · intro read
    unfold case? at read
    split at read
    · rw [ofName?_name read]
      exact .text mode
    · rw [ofName?_name read]
      exact .key mode
    · cases read
  · rintro (_ | _) <;> cases mode <;> rfl

theorem flag?_flagOf {value : Bool} (read : flag? tree = some value) : FlagOf tree value := by
  unfold flag? at read
  split at read
  · cases read
    exact .bool value
  · cases read

theorem caseGroup?_filled {default mode : CaseMode} (read : caseGroup? default group = some mode) :
    Filled CaseOf (casePlace.Holds group) default mode := by
  unfold caseGroup? at read
  split at read
  · next given found =>
      obtain ⟨same,_⟩ := List.forall₂_cons.mp (settings?_holds found)
      exact orDefault_filled (fun _ _ => case?_exact.mp) same read
  · cases read

theorem history?_filled {default history : HistoryOptions} (read : history? default group = some history) :
    Filled CaseOf (casePlace.Holds group) default.case history.case ∧
      Filled FlagOf (flagPlace.Holds group) default.ignoreCase history.ignoreCase := by
  unfold history? at read
  split at read
  · next given next found =>
      obtain ⟨first,more⟩ := List.forall₂_cons.mp (settings?_holds found)
      obtain ⟨second,_⟩ := List.forall₂_cons.mp more
      simp only [Option.bind_eq_bind,Option.bind_eq_some_iff,Option.some.injEq] at read
      obtain ⟨case,left,flag,right,rfl⟩ := read
      exact ⟨orDefault_filled (fun _ _ => case?_exact.mp) first left,
        orDefault_filled (fun _ _ => flag?_flagOf) second right⟩
  · cases read

theorem options?_groups : options? root = some options ↔ ∃ first second third,
    settings? ["matcher".toList,"history".toList,"restriction".toList] root = some [first,second,third] ∧
    orDefault Options.defaults.matching (caseGroup? Options.defaults.matching) first = some options.matching ∧
    orDefault Options.defaults.history (history? Options.defaults.history) second = some options.history ∧
    orDefault Options.defaults.filter (caseGroup? Options.defaults.filter) third = some options.filter := by
  constructor
  · intro read
    unfold options? at read
    split at read
    · next first second third found =>
        simp only [Option.bind_eq_bind,Option.bind_eq_some_iff,Option.some.injEq] at read
        obtain ⟨matching,left,history,middle,filter,right,rfl⟩ := read
        exact ⟨first,second,third,found,left,middle,right⟩
    · cases read
  · rintro ⟨first,second,third,found,left,middle,right⟩
    simp only [options?,found,left,middle,right]
    rfl

theorem options?_filled (read : options? root = some options) : FilledFrom root options := by
  obtain ⟨first,second,third,found,left,middle,right⟩ := options?_groups.mp read
  obtain ⟨matching,more⟩ := List.forall₂_cons.mp (settings?_holds found)
  obtain ⟨history,last⟩ := List.forall₂_cons.mp more
  obtain ⟨filter,_⟩ := List.forall₂_cons.mp last
  exact {
    matching := orDefault_path id ⟨matchingPlace,casePlace⟩ (fun _ _ => caseGroup?_filled) matching left
    history := orDefault_path HistoryOptions.case ⟨historyPlace,casePlace⟩
      (fun _ _ read => (history?_filled read).1) history middle
    ignoreCase := orDefault_path HistoryOptions.ignoreCase ⟨historyPlace,flagPlace⟩
      (fun _ _ read => (history?_filled read).2) history middle
    filter := orDefault_path id ⟨filterPlace,casePlace⟩ (fun _ _ => caseGroup?_filled) filter right }

theorem caseOf_unique : Relator.RightUnique CaseOf := by
  intro tree mode other first second
  exact Option.some.inj ((case?_exact.mpr first).symm.trans (case?_exact.mpr second))

theorem flagOf_unique : Relator.RightUnique FlagOf := by
  rintro _ _ _ ⟨value⟩ ⟨_⟩
  rfl

theorem Filled.unique {stands : Tree → α → Prop} {gives : Tree → Prop} {default value other : α}
    (one : Relator.RightUnique stands)
    (first : Filled stands gives default value) (second : Filled stands gives default other) : value = other := by
  by_cases given : ∃ tree, gives tree
  · obtain ⟨tree,given⟩ := given
    exact one (first.given tree given) (second.given tree given)
  · have none : ∀ tree, ¬gives tree := fun tree gives => given ⟨tree,gives⟩
    rw [first.absent none,second.absent none]

theorem FilledFrom.unique {other : Options} (first : FilledFrom root options) (second : FilledFrom root other) :
    options = other := by
  have matching := Filled.unique caseOf_unique first.matching second.matching
  have history := Filled.unique caseOf_unique first.history second.history
  have ignoreCase := Filled.unique flagOf_unique first.ignoreCase second.ignoreCase
  have filter := Filled.unique caseOf_unique first.filter second.filter
  obtain ⟨m,⟨h,i⟩,f⟩ := options
  obtain ⟨m',⟨h',i'⟩,f'⟩ := other
  cases matching
  cases history
  cases ignoreCase
  cases filter
  rfl

theorem options?_exact (root : Tree) (options : Options) :
    options? root = some options ↔ IsOptions root ∧ FilledFrom root options := by
  constructor
  · intro read
    exact ⟨(options?_isSome root).mp (Option.isSome_of_eq_some read),options?_filled read⟩
  · rintro ⟨valid,filled⟩
    obtain ⟨own,read⟩ := Option.isSome_iff_exists.mp ((options?_isSome root).mpr valid)
    rw [read,(options?_filled read).unique filled]

end FieldedSearch.Config
