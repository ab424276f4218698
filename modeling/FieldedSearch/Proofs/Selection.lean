import Mathlib
import FieldedSearch.Proofs.JsonRecords
import FieldedSearch.Proofs.OutputLines
import FieldedSearch.Proofs.Printing

namespace FieldedSearch

namespace Json

variable {depth : Nat} {s : Text} {tree : Tree} {items : List Tree} {members : Members} {records : List Members}

def listed (texts : List Text) : Text := '[' :: Text.join [','] texts ++ [']']

theorem writtenItems_join (items : List Json) : writtenItems items = Text.join [','] (items.map written) := by
  induction items with
  | nil => rfl
  | cons item items ih =>
      cases items with
      | nil => rfl
      | cons next items =>
          have joined : Text.join [','] ((item :: next :: items).map written) =
              written item ++ ',' :: Text.join [','] ((next :: items).map written) := by
            simp [Text.join]
          rw [writtenItems,ih,joined]

theorem written_listed (values : List Json) : written (.array values) = listed (values.map written) := by
  rw [written,writtenItems_join]
  rfl

theorem memberTrees_keys (members : Members) : (memberTrees members).map Prod.fst = members.map fun m => some m.1 := by
  induction members with
  | nil => rfl
  | cons member members ih => rw [memberTrees,List.map_cons,ih]; rfl

theorem Ascending.nodup (ascending : Ascending members) : (members.map fun m => some m.1).Nodup := by
  refine List.pairwise_map.mpr (ascending.imp fun before same => ?_)
  exact keyBefore_apart before (Option.some.inj same)

-- An item with the entries of a record, of which the last one for a key counts.
def Holds (item : Tree) (members : Members) : Prop :=
  ∃ sources, item = .object sources ∧ Gathers (depthLimit - 2) sources members

def Carries (line : Text) (members : Members) : Prop :=
  ∃ sources, read? line = some (.object sources) ∧ (sources.map Prod.fst).Nodup ∧
    Gathers (depthLimit - 2) sources members

theorem ofTree?_holds (read : ofTree? (depthLimit - 1) tree = some (.object members)) : Holds tree members := by
  obtain ⟨sources,same,inside⟩ := ofTree?_members.mp read
  exact ⟨sources,same,ofMembers?_gathers inside⟩

def SettledRecords (records : List Members) : Prop :=
  ∀ members ∈ records, Settled (depthLimit - 1) (.object members)

theorem records?_settled (parsed : read? s = some tree) (integers : tree.Integers) (given : records? s = some records) :
    SettledRecords records ∧ ∃ items, tree = .array items ∧ List.Forall₂ Holds items records := by
  obtain ⟨items,array,inside⟩ := records?_exact.mp given
  cases parsed.symm.trans array
  cases integers with
  | array each =>
      refine ⟨fun members member => ?_,items,rfl,inside.imp fun _ _ => ofTree?_holds⟩
      have values : List.Forall₂ (fun item value => ofTree? (depthLimit - 1) item = some value) items
          (records.map .object) := (List.forall₂_map_right_iff (f := Json.object)).mpr inside
      obtain ⟨item,known,read⟩ := ofItems?_source values _ (List.mem_map_of_mem member)
      exact (each item known).settled read

theorem SettledRecords.carried (settled : SettledRecords records) :
    List.Forall₂ Carries (records.map fun members => written (.object members)) records := by
  refine List.forall₂_map_left_iff.mpr (List.forall₂_same.mpr fun members member => ?_)
  have object := settled members member
  obtain ⟨sources,same,gathers⟩ := ofTree?_holds object.ofTree?_tree
  refine ⟨memberTrees members,?_,?_,?_⟩
  · rw [object.integral.read?_written,tree]
  · rw [memberTrees_keys]
    cases object with
    | object ascending _ => exact ascending.nodup
  · cases same
    exact gathers

theorem SettledRecords.unbroken (settled : SettledRecords records) :
    ∀ line ∈ records.map fun members => written (.object members), '\n' ∉ line := by
  intro line member
  obtain ⟨members,given,rfl⟩ := List.mem_map.mp member
  exact (settled members given).integral.written_line

theorem SettledRecords.records?_listed (settled : SettledRecords records) :
    records? (listed (records.map fun members => written (.object members))) = some records := by
  have array : Settled depthLimit (.array (records.map .object)) := by
    refine .array fun value member => ?_
    obtain ⟨members,given,rfl⟩ := List.mem_map.mp member
    exact settled members given
  have text : listed (records.map fun members => written (.object members)) = written (.array (records.map .object)) := by
    rw [written_listed,List.map_map]
    rfl
  rw [records?,text,array.integral.read?_written,Option.bind_some,array.ofTree?_tree]
  exact mapM_members?.mpr rfl

end Json

namespace CommandLine

variable {environment : Environment} {arguments : List Text} {options : Options}
variable {path s : Text} {config : Option Text} {allowEmpty : Bool} {queries : List Text}
variable {tree : Json.Tree} {records : List Json.Members}

theorem run_select (accepted : read arguments = .ok ⟨.select path,config,allowEmpty,queries⟩)
    (configured : readOptions environment config = .ok options) (found : recordsText? environment path = some s)
    (given : Json.records? s = some records) :
    run environment arguments =
      ⟨0,lines ((records.filter (selects environment.engine options (Rule.parseAll allowEmpty queries))).map fun members =>
        (Json.object members).written),none⟩ := by
  have source : Command.source environment (.select path) = .ok records := by
    rw [Command.source,readRecords,found]
    simp only [given]
  rw [run_accepted accepted]
  simp only [configured,source,Command.texts]

theorem select_idempotent (accepted : read arguments = .ok ⟨.select path,config,allowEmpty,queries⟩)
    (configured : readOptions environment config = .ok options) (found : recordsText? environment path = some s)
    (parsed : Json.read? s = some tree) (integers : tree.Integers) (given : Json.records? s = some records) :
    (∃ items, tree = .array items ∧ List.Forall₂ Json.Holds items records) ∧
    ∃ written : List Text, run environment arguments = ⟨0,lines written,none⟩ ∧
      cutLines (lines written) = written.map ended ∧
      List.Forall₂ Json.Carries written (records.filter (selects environment.engine options (Rule.parseAll allowEmpty queries))) ∧
      ∀ other, other.engine = environment.engine → readOptions other config = .ok options →
        recordsText? other path = some (Json.listed written) → run other arguments = run environment arguments := by
  obtain ⟨settled,items⟩ := Json.records?_settled parsed integers given
  have kept : Json.SettledRecords (records.filter (selects environment.engine options (Rule.parseAll allowEmpty queries))) :=
    fun members member => settled members (List.mem_of_mem_filter member)
  have printed := run_select accepted configured found given
  refine ⟨items,_,printed,cutLines_lines kept.unbroken,kept.carried,fun other built same again => ?_⟩
  rw [printed,run_select accepted same again kept.records?_listed,built,List.filter_filter]
  simp only [Bool.and_self]

-- A key given twice, an escaped newline, a list inside, and a record that does not match.
def repeated : Json := .array
  [.object [(['b'],.string ['y']),(['a'],.array [.number (.integer (-7)),.string ['\n']]),(['b'],.string ['x'])],
    .object [(['b'],.null)]]

def matchArguments : List Text := ["match".toList,"b:x".toList]

def repeatedLine : Text := "\x7b\"a\":[-7,\"\\n\"],\"b\":\"x\"\x7d".toList

theorem repeated_written : repeated.written =
    "[\x7b\"b\":\"y\",\"a\":[-7,\"\\n\"],\"b\":\"x\"\x7d,\x7b\"b\":null\x7d]".toList := by
  cbv

theorem repeated_integral : Json.Integral repeated := by
  refine .array (List.forall_mem_cons.mpr ⟨.object ?_,List.forall_mem_singleton.mpr (.object ?_)⟩)
  · simp [Json.Integral.string,Json.Integral.array,Json.Integral.integer]
  · simp [Json.Integral.null]

theorem repeated_integers : repeated.tree.Integers := by
  have word : Json.NumberLiteral.IsInteger (Json.integerLiteral (-7)) := ⟨⟨rfl,rfl⟩,by decide⟩
  refine .array (List.forall_mem_cons.mpr ⟨.object ?_,List.forall_mem_singleton.mpr (.object ?_)⟩)
  · simp [Json.memberTrees,Json.itemTrees,Json.tree,Json.Number.literal,Json.Tree.Integers.string,
      Json.Tree.Integers.array,Json.Tree.Integers.number,word]
  · simp [Json.memberTrees,Json.tree,Json.Tree.Integers.null]

theorem select_idempotent_repeated_key :
    run (fileless (String.ofList
        "[\x7b\"b\":\"y\",\"a\":[-7,\"\\n\"],\"b\":\"x\"\x7d,\x7b\"b\":null\x7d]".toList).toUTF8) matchArguments =
      ⟨0,ended repeatedLine,none⟩ ∧
    run (fileless (String.ofList (Json.listed [repeatedLine])).toUTF8) matchArguments =
      ⟨0,ended repeatedLine,none⟩ := by
  have accepted : read matchArguments = .ok ⟨.select ['-'],none,false,["b:x".toList]⟩ := rfl
  have found := fileless_input repeated.written
  have parsed := repeated_integral.read?_written
  have given : Json.records? repeated.written = some
      [[(['a'],.array [.number (.integer (-7)),.string ['\n']]),(['b'],.string ['x'])],[(['b'],.null)]] := by
    rw [Json.records?,parsed]
    rfl
  have printed : run (fileless (String.ofList repeated.written).toUTF8) matchArguments =
      ⟨0,ended repeatedLine,none⟩ := by
    rw [run_select accepted rfl found given]
    cbv
  obtain ⟨_,texts,same,cut,_,again⟩ := select_idempotent accepted rfl found parsed repeated_integers given
  have output : lines texts = ended repeatedLine := congrArg Outcome.output (same.symm.trans printed)
  have one : texts.map ended = [ended repeatedLine] := by
    rw [← cut,output]
    cbv
  obtain ⟨text,rfl,line⟩ := List.map_eq_singleton_iff.mp one
  cases List.append_cancel_right line
  rw [← repeated_written]
  have rerun := again (fileless (String.ofList (Json.listed [repeatedLine])).toUTF8) rfl rfl (fileless_input _)
  exact ⟨printed,rerun.trans printed⟩

end CommandLine
end FieldedSearch
