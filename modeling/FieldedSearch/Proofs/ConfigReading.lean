import Mathlib.Logic.Relation
import FieldedSearch.Proofs.FilledOptions
import FieldedSearch.Proofs.IndentedJson

namespace FieldedSearch.Config

open Json (Tree Denotes)

variable {α : Type} {tree other : Tree} {names : List Text} {name key : Text} {options : Options}
  {members others earlier later : List (Option Text × Tree)}

def groups : List (Text × List Text) :=
  [("matcher".toList,[caseKey]),("history".toList,[caseKey,"case_insensitive_flag".toList]),
    ("restriction".toList,[caseKey])]

inductive GroupEdit (names : List Text) : Tree → Tree → Prop where
  | reordered {members others : List (Option Text × Tree)} : members.Perm others →
      GroupEdit names (.object members) (.object others)
  | unknown (earlier : List (Option Text × Tree)) {later : List (Option Text × Tree)} {key : Text} {value : Tree} :
      key ∉ names → GroupEdit names (.object (earlier ++ later)) (.object (earlier ++ (some key,value) :: later))

inductive Edit : Tree → Tree → Prop where
  | outer {tree other : Tree} : GroupEdit (groups.map Prod.fst) tree other → Edit tree other
  | inner (earlier : List (Option Text × Tree)) {later : List (Option Text × Tree)} {name : Text} {names : List Text}
      {group other : Tree} : (name,names) ∈ groups → GroupEdit names group other →
      Edit (.object (earlier ++ (some name,group) :: later)) (.object (earlier ++ (some name,other) :: later))

theorem named_crowded (name : Text) :
    named (earlier ++ (some key,tree) :: later) name =
      named earlier name ++ (if key = name then [tree] else []) ++ named later name := by
  by_cases own : key = name <;> simp [named,List.filter_append,own]

theorem member?_reordered (perm : members.Perm others) (name : Text) : member? members name = member? others name := by
  have kept : (named members name).Perm (named others name) := (perm.filter _).map _
  refine Option.ext fun given => ?_
  rw [member?_named,member?_named]
  constructor
  · intro same
    rw [same] at kept
    cases given with
    | none => exact kept.nil_eq.symm
    | some => exact kept.singleton_eq.symm
  · intro same
    rw [same] at kept
    cases given with
    | none => exact kept.eq_nil
    | some => exact kept.eq_singleton

theorem member?_unknown (apart : key ≠ name) (value : Tree) :
    member? (earlier ++ (some key,value) :: later) name = member? (earlier ++ later) name := by
  refine Option.ext fun given => ?_
  rw [member?_named,member?_named,named_crowded,if_neg apart,List.append_nil,named,named,named,List.filter_append,
    List.map_append]

theorem mapM_same {read? other? : Text → Option (Option Tree)} (same : ∀ name ∈ names, read? name = other? name) :
    names.mapM read? = names.mapM other? := by
  induction names with
  | nil => rfl
  | cons name names ih =>
      obtain ⟨first,later⟩ := List.forall_mem_cons.mp same
      rw [List.mapM_cons,List.mapM_cons,first,ih later]

theorem GroupEdit.settings? (edit : GroupEdit names tree other) : settings? names tree = settings? names other := by
  cases edit with
  | @reordered members others perm =>
      have same : ∀ name ∈ names, member? members name = member? others name :=
        fun name _ => member?_reordered perm name
      rw [Config.settings?,Config.settings?]
      refine if_congr ?_ (mapM_same same) rfl
      rw [List.all_eq_true,List.all_eq_true]
      exact forall_congr' fun member => imp_congr_left perm.mem_iff
  | @unknown earlier later key value fresh =>
      have same : ∀ name ∈ names,
          member? (earlier ++ later) name = member? (earlier ++ (some key,value) :: later) name :=
        fun name known => (member?_unknown (ne_of_mem_of_not_mem known fresh).symm value).symm
      rw [Config.settings?,Config.settings?]
      refine if_congr ?_ (mapM_same same) rfl
      simp

def slot? (default : α) (read? : Tree → Option α) (members : List (Option Text × Tree)) (name : Text) : Option α :=
  (member? members name).bind (orDefault default read?)

theorem slot?_exact {default value : α} {read? : Tree → Option α} : slot? default read? members name = some value ↔
    ∃ given : Option Tree, named members name = given.toList ∧ orDefault default read? given = some value := by
  simp only [slot?,Option.bind_eq_some_iff,member?_named]

theorem slot?_replaced {default : α} {read? : Tree → Option α} {key : Text}
    (alike : key = name → read? tree = read? other) :
    slot? default read? (earlier ++ (some key,tree) :: later) name =
      slot? default read? (earlier ++ (some key,other) :: later) name := by
  refine Option.ext fun value => ?_
  rw [slot?_exact,slot?_exact]
  simp only [named_crowded]
  by_cases own : key = name
  · have alone : ∀ (tree : Tree) (given : Option Tree), named earlier name ++ [tree] ++ named later name = given.toList ↔
        named earlier name = [] ∧ named later name = [] ∧ given = some tree := by
      intro tree given
      cases named earlier name <;> cases named later name <;> cases given <;> simp [eq_comm (a := tree)]
    simp only [if_pos own,alone,and_assoc,exists_and_left,exists_eq_left,orDefault,alike own]
  · simp only [if_neg own]

theorem settings?_object {found : List (Option Tree)} : Config.settings? names (.object members) = some found ↔
    (∀ member ∈ members, member.1.isSome = true) ∧
      List.Forall₂ (fun name given => member? members name = some given) names found := by
  rw [Config.settings?]
  split
  · next texts => exact (mapM_exact (member? members)).trans (iff_and_self.mpr fun _ => List.all_eq_true.mp texts)
  · next texts => exact iff_of_false (Option.some_ne_none found).symm fun whole => texts (List.all_eq_true.mpr whole.1)

theorem options?_object (members : List (Option Text × Tree)) (options : Options) :
    options? (.object members) = some options ↔ (∀ member ∈ members, member.1.isSome = true) ∧
      slot? Options.defaults.matching (caseGroup? Options.defaults.matching) members "matcher".toList =
        some options.matching ∧
      slot? Options.defaults.history (history? Options.defaults.history) members "history".toList =
        some options.history ∧
      slot? Options.defaults.filter (caseGroup? Options.defaults.filter) members "restriction".toList =
        some options.filter := by
  rw [options?_groups]
  constructor
  · rintro ⟨first,second,third,found,left,middle,right⟩
    obtain ⟨texts,given⟩ := settings?_object.mp found
    obtain ⟨matching,more⟩ := List.forall₂_cons.mp given
    obtain ⟨history,last⟩ := List.forall₂_cons.mp more
    obtain ⟨filter,_⟩ := List.forall₂_cons.mp last
    exact ⟨texts,Option.bind_eq_some_iff.mpr ⟨first,matching,left⟩,
      Option.bind_eq_some_iff.mpr ⟨second,history,middle⟩,Option.bind_eq_some_iff.mpr ⟨third,filter,right⟩⟩
  · rintro ⟨texts,matching,history,filter⟩
    obtain ⟨first,matching,left⟩ := Option.bind_eq_some_iff.mp matching
    obtain ⟨second,history,middle⟩ := Option.bind_eq_some_iff.mp history
    obtain ⟨third,filter,right⟩ := Option.bind_eq_some_iff.mp filter
    have found := settings?_object.mpr ⟨texts,.cons matching (.cons history (.cons filter .nil))⟩
    exact ⟨first,second,third,found,left,middle,right⟩

theorem caseGroup?_edited {default : CaseMode} (edit : GroupEdit [caseKey] tree other) :
    caseGroup? default tree = caseGroup? default other := by
  rw [caseGroup?,caseGroup?,edit.settings?]

theorem history?_edited {default : HistoryOptions}
    (edit : GroupEdit [caseKey,"case_insensitive_flag".toList] tree other) :
    history? default tree = history? default other := by
  rw [history?,history?,edit.settings?]

-- An edit inside a group leaves its reading, and the other groups have other names.
theorem GroupEdit.alike (known : (name,names) ∈ groups) (edit : GroupEdit names tree other) :
    (name = "matcher".toList →
      caseGroup? Options.defaults.matching tree = caseGroup? Options.defaults.matching other) ∧
    (name = "history".toList → history? Options.defaults.history tree = history? Options.defaults.history other) ∧
    (name = "restriction".toList →
      caseGroup? Options.defaults.filter tree = caseGroup? Options.defaults.filter other) := by
  simp only [groups,List.mem_cons,Prod.mk.injEq,List.not_mem_nil,or_false] at known
  rcases known with ⟨rfl,rfl⟩ | ⟨rfl,rfl⟩ | ⟨rfl,rfl⟩
  · exact ⟨fun _ => caseGroup?_edited edit,fun same => absurd same (by decide),fun same => absurd same (by decide)⟩
  · exact ⟨fun same => absurd same (by decide),fun _ => history?_edited edit,fun same => absurd same (by decide)⟩
  · exact ⟨fun same => absurd same (by decide),fun same => absurd same (by decide),fun _ => caseGroup?_edited edit⟩

theorem Edit.options? (edit : Edit tree other) : options? tree = options? other := by
  cases edit with
  | outer edit =>
      have same : Config.settings? ["matcher".toList,"history".toList,"restriction".toList] tree =
        Config.settings? ["matcher".toList,"history".toList,"restriction".toList] other := edit.settings?
      rw [Config.options?,Config.options?,same]
  | @inner earlier later name names group other known edit =>
      obtain ⟨matching,history,filter⟩ := edit.alike known
      have texts : (∀ member ∈ earlier ++ (some name,group) :: later, member.1.isSome = true) ↔
          ∀ member ∈ earlier ++ (some name,other) :: later, member.1.isSome = true := by
        simp only [List.forall_mem_append,List.forall_mem_cons,Option.isSome_some]
      refine Option.ext fun options => ?_
      rw [options?_object,options?_object,texts,slot?_replaced matching,slot?_replaced history,slot?_replaced filter]

theorem options?_unchanged (edits : Relation.EqvGen Edit tree other) : options? tree = options? other := by
  induction edits with
  | rel _ _ edit => exact edit.options?
  | refl => rfl
  | symm _ _ _ ih => exact ih.symm
  | trans _ _ _ _ _ first second => exact first.trans second

theorem read?_denotes {s : Text} (denotes : Denotes s tree) : read? s = options? tree := by
  rw [read?,Json.read?_exact.mpr denotes,Option.bind_some]

theorem json_integral (options : Options) : Json.Integral (json options) := by
  have case : ∀ mode : CaseMode, Json.Integral (.object [(caseKey,.string mode.name)]) :=
    fun mode => .object (List.forall_mem_singleton.mpr (.string _))
  have history : Json.Integral (.object [(caseKey,.string options.history.case.name),
      ("case_insensitive_flag".toList,.bool options.history.ignoreCase)]) :=
    .object (List.forall_mem_cons.mpr ⟨.string _,List.forall_mem_singleton.mpr (.bool _)⟩)
  exact .object (List.forall_mem_cons.mpr ⟨case _,List.forall_mem_cons.mpr ⟨history,
    List.forall_mem_singleton.mpr (case _)⟩⟩)

theorem options?_json (options : Options) : options? (json options).tree = some options := by
  obtain ⟨matching,⟨history,flag⟩,filter⟩ := options
  cases matching <;> cases history <;> cases flag <;> cases filter <;> rfl

theorem read?_exact (s : Text) (options : Options) :
    read? s = some options ↔ ∃ tree, Denotes s tree ∧ IsOptions tree ∧ FilledFrom tree options := by
  simp only [read?,Option.bind_eq_some_iff,Json.read?_exact,options?_exact]

theorem settings_filled :
    (∀ (s : Text) (tree : Tree), Denotes s tree → IsOptions tree →
      ∃ options, read? s = some options ∧ FilledFrom tree options) ∧
    (∀ (s t : Text) (tree other : Tree), Denotes s tree → Denotes t other → Relation.EqvGen Edit tree other →
      read? s = read? t) ∧
    ∀ options, read? (json options).written = some options ∧ read? ((json options).indented 0) = some options := by
  refine ⟨?_,?_,?_⟩
  · intro s tree denotes valid
    obtain ⟨options,read⟩ := Option.isSome_iff_exists.mp ((options?_isSome tree).mpr valid)
    have filled := options?_filled read
    exact ⟨options,(read?_exact s options).mpr ⟨tree,denotes,valid,filled⟩,filled⟩
  · intro s t tree other first second edits
    rw [read?_denotes first,read?_denotes second,options?_unchanged edits]
  · intro options
    have integral := json_integral options
    have line := Json.read?_exact.mp integral.read?_written
    have indented := Denotes.value (integral.spells_indented 0) Json.spaces_nil
    rw [List.append_nil] at indented
    exact ⟨(read?_denotes line).trans (options?_json options),(read?_denotes indented).trans (options?_json options)⟩

-- One setting, and the same setting between unknown keys whose values no reader could take.

def plainConfig : Text := "\x7b\"history\":\x7b\"case\":\"fold\"\x7d\x7d".toList

def crowdedConfig : Text :=
  " \x7b\"other\" : [1e999,\"\\ud800\"],\"history\":\x7b\"case\":\"fold\",\"x\":\x7b \x7d\x7d\x7d".toList

def plainTree : Tree :=
  .object [(some "history".toList,.object [(some caseKey,.string (some "fold".toList))])]

def unreadable : Tree := .array [.number ⟨false,['1'],[],some (false,"999".toList)⟩,.string none]

def crowdedTree : Tree :=
  .object [(some "other".toList,unreadable),
    (some "history".toList,.object [(some caseKey,.string (some "fold".toList)),(some ['x'],.object [])])]

theorem plain_denotes : Denotes plainConfig plainTree := by
  have integral : Json.Integral (.object [("history".toList,.object [(caseKey,.string "fold".toList)])]) :=
    .object (List.forall_mem_singleton.mpr (.object (List.forall_mem_singleton.mpr (.string _))))
  exact Json.read?_exact.mp integral.read?_written

open Json in
theorem crowded_denotes : Denotes crowdedConfig crowdedTree := by
  have space : Spaces [' '] := List.forall_mem_singleton.mpr rfl
  have key := fun name : Text => KeyText.colon spaces_nil (stringText_written name) spaces_nil
  have number : NumberText ([] ++ (['1'] ++ ([] ++ 'e' :: ([] ++ "999".toList))))
      ⟨false,['1'],[],some (false,"999".toList)⟩ :=
    .parts (by decide) (.digits (by decide) (List.all_eq_true.mp rfl)) .none
      (.digits (.inl rfl) (by decide) (by decide) (List.all_eq_true.mp rfl))
  have half : StringText ('\\' :: 'u' :: ("d800".toList ++ [])) none :=
    .half (n := 0xd800) rfl (.inr ⟨rfl,nofun⟩) .nil
  have first := Spells.array (.nextItem (.number number) spaces_nil (.lastItem (.string half) spaces_nil))
  have fold := Spells.string (stringText_written "fold".toList)
  have second := Spells.object
    (.nextMember (key caseKey) fold spaces_nil (.lastMember (key ['x']) (.noMembers space) spaces_nil))
  have other := KeyText.colon spaces_nil (stringText_written "other".toList) space
  exact .value (.spaced space (.object (.nextMember other (.spaced space first) spaces_nil
    (.lastMember (key "history".toList) second spaces_nil)))) spaces_nil

theorem plain_crowded : Relation.EqvGen Edit plainTree crowdedTree := by
  have outer : Edit plainTree (.object [(some "other".toList,unreadable),
      (some "history".toList,.object [(some caseKey,.string (some "fold".toList))])]) :=
    .outer (.unknown [] (by decide))
  have inner : GroupEdit [caseKey,"case_insensitive_flag".toList]
      (.object [(some caseKey,.string (some "fold".toList))])
      (.object [(some caseKey,.string (some "fold".toList)),(some ['x'],.object [])]) :=
    .unknown [_] (by decide)
  exact .trans _ _ _ (.rel _ _ outer) (.rel _ _ (.inner [_] (by decide) inner))

theorem settings_filled_crowded :
    (Denotes crowdedConfig crowdedTree ∧ IsOptions crowdedTree ∧
      FilledFrom crowdedTree ⟨.fold,⟨.fold,true⟩,.preserve⟩) ∧
    (Relation.EqvGen Edit plainTree crowdedTree ∧ read? plainConfig = read? crowdedConfig) ∧
    read? crowdedConfig = some ⟨.fold,⟨.fold,true⟩,.preserve⟩ := by
  have valid : IsOptions crowdedTree := (options?_isSome _).mp rfl
  have known : read? crowdedConfig = some ⟨.fold,⟨.fold,true⟩,.preserve⟩ := read?_denotes crowded_denotes
  obtain ⟨fills,unchanged,_⟩ := settings_filled
  obtain ⟨options,read,filled⟩ := fills crowdedConfig crowdedTree crowded_denotes valid
  cases known.symm.trans read
  exact ⟨⟨crowded_denotes,valid,filled⟩,
    ⟨plain_crowded,unchanged _ _ _ _ plain_denotes crowded_denotes plain_crowded⟩,known⟩

-- An unknown key must still be a text, and with half a pair it is none.

def halfConfig : Text := "\x7b\"\\ud800\":0\x7d".toList

def halfMembers : List (Option Text × Tree) := [(none,.number ⟨false,['0'],[],none⟩)]

theorem settings_filled_unless_half :
    Denotes halfConfig (.object halfMembers) ∧ (∀ name, named halfMembers name = []) ∧ read? halfConfig = none := by
  have half : Json.StringText ('\\' :: 'u' :: ("d800".toList ++ [])) none :=
    .half (n := 0xd800) rfl (.inr ⟨rfl,nofun⟩) .nil
  have number : Json.NumberText ([] ++ (['0'] ++ ([] ++ []))) ⟨false,['0'],[],none⟩ :=
    .parts (by decide) .zero .none .none
  have key := Json.KeyText.colon Json.spaces_nil half Json.spaces_nil
  have denotes : Denotes halfConfig (.object halfMembers) :=
    .value (.object (.lastMember key (.number number) Json.spaces_nil)) Json.spaces_nil
  exact ⟨denotes,fun _ => rfl,read?_denotes denotes⟩

end FieldedSearch.Config
