import FieldedSearch.Proofs.Regex

namespace FieldedSearch.Ere

inductive Expr where
  | empty
  | start
  | finish
  | one (a : Regex.Atom)
  | seq (first later : Expr)
  | choice (left right : Expr)
  | many (e : Expr)
  | maybe (e : Expr)
  deriving DecidableEq, Repr

inductive Rounds (round : Text → Text → Text → Prop) : Text → Text → Text → Prop where
  | done {before after : Text} : Rounds round before [] after
  | more {before first later after : Text} : round before first (later ++ after) →
      Rounds round (before ++ first) later after → Rounds round before (first ++ later) after

namespace Expr

-- The expression stands for `run` between `before` and `after`, which only the anchors look at.
def Spans : Expr → Text → Text → Text → Prop
  | .empty,_,run,_ => run = []
  | .start,before,run,_ => run = [] ∧ before = []
  | .finish,_,run,after => run = [] ∧ after = []
  | .one a,_,run,_ => ∃ c, run = [c] ∧ a.Allows c
  | .seq e f,before,run,after =>
      ∃ first later, run = first ++ later ∧ e.Spans before first (later ++ after) ∧ f.Spans (before ++ first) later after
  | .choice e f,before,run,after => e.Spans before run after ∨ f.Spans before run after
  | .many e,before,run,after => Rounds e.Spans before run after
  | .maybe e,before,run,after => run = [] ∨ e.Spans before run after

def sequence (items : List Expr) : Expr := items.foldr .seq .empty

def isAnchor : Expr → Bool
  | .start | .finish => true
  | _ => false

end Expr

-- A group that is not closed yet: its earlier alternatives, and the items of the last one. Latest first.
structure Group where
  earlier : List Expr
  items : List Expr

namespace Group

def opened : Group := ⟨[],[]⟩

def add (group : Group) (e : Expr) : Group := ⟨group.earlier,e :: group.items⟩

def addAll (group : Group) (items : List Expr) : Group := items.foldl add group

def current (group : Group) : Expr := .sequence group.items.reverse

def next (group : Group) : Group := ⟨group.current :: group.earlier,[]⟩

def expr (group : Group) : Expr := group.earlier.foldl (fun later e => .choice e later) group.current

def repeated? (group : Group) (repetition : Expr → Expr) : Option Group :=
  match group.items with
  | [] => none
  | e :: items => if e.isAnchor then none else some ⟨group.earlier,repetition e :: items⟩

end Group

def isMark (c : Char) : Bool := "\\.[()*+?\x7b|^$".toList.contains c

def Unmarked (s : Text) : Prop := ∀ c ∈ s, isMark c = false

instance (s : Text) : Decidable (Unmarked s) := List.decidableBAll _ s

-- Classes and counts are left unread, and so is one sign of repetition.
def take? (group : Group) (outer : List Group) (c : Char) : Option (Group × List Group) :=
  if c = '.' then some (group.add (.one .dot),outer)
  else if c = '^' then some (group.add .start,outer)
  else if c = '$' then some (group.add .finish,outer)
  else if c = '*' then (group.repeated? .many).map (·,outer)
  else if c = '?' then (group.repeated? .maybe).map (·,outer)
  else if c = '|' then some (group.next,outer)
  else if c = '(' then some (.opened,group :: outer)
  else if c = ')' then
    match outer with
    | [] => none
    | parent :: outer => some (parent.add group.expr,outer)
  else if isMark c then none
  else some (group.add (.one (.exactly c)),outer)

def readFrom (group : Group) (outer : List Group) : Text → Option Expr
  | [] => if outer.isEmpty then some group.expr else none
  | '\\' :: c :: r => if isMark c then readFrom (group.add (.one (.exactly c))) outer r else none
  | c :: r => (take? group outer c).bind fun (group,outer) => readFrom group outer r

def read? (pattern : Text) : Option Expr := readFrom .opened [] pattern

def Finds (pattern line : Text) : Prop :=
  ∃ e, read? pattern = some e ∧ ∃ before run after, line = before ++ run ++ after ∧ e.Spans before run after

variable {α : Type} {c : Char} {e : Expr} {items more : List Expr} {group : Group} {outer : List Group}
  {s t before run after line : Text} {language other : Text → Prop}

namespace Expr

theorem spans_append : (sequence (items ++ more)).Spans before run after ↔ ∃ first later, run = first ++ later ∧
    (sequence items).Spans before first (later ++ after) ∧ (sequence more).Spans (before ++ first) later after := by
  induction items generalizing before run with
  | nil =>
      constructor
      · intro whole
        exact ⟨[],run,rfl,rfl,by simpa using whole⟩
      · intro cut
        obtain ⟨first,later,whole,none,spans⟩ := cut
        have empty : first = [] := none
        subst empty
        simpa [whole] using spans
  | cons e items ih =>
      show (∃ _ _, _ ∧ _ ∧ (sequence (items ++ more)).Spans _ _ _) ↔ _
      simp only [ih]
      constructor
      · intro cut
        obtain ⟨front,_,whole,head,first,later,rest,spans,behind⟩ := cut
        refine ⟨front ++ first,later,by simp [whole,rest],⟨front,first,rfl,?_,spans⟩,by simpa using behind⟩
        simpa [rest] using head
      · intro cut
        obtain ⟨_,later,whole,⟨front,first,split,head,spans⟩,behind⟩ := cut
        refine ⟨front,first ++ later,by simp [whole,split],by simpa using head,first,later,rfl,spans,?_⟩
        simpa [split] using behind

theorem spans_single (e : Expr) : (sequence [e]).Spans before run after ↔ e.Spans before run after := by
  constructor
  · intro cut
    obtain ⟨first,later,whole,spans,none⟩ := cut
    have empty : later = [] := none
    subst empty
    simpa [whole] using spans
  · intro spans
    exact ⟨run,[],by simp,by simpa using spans,rfl⟩

theorem spans_any : (Expr.many (.one .dot)).Spans before run after ↔ '\n' ∉ run := by
  constructor
  · intro rounds
    have line : ∀ {before run after}, Rounds (Expr.one .dot).Spans before run after → '\n' ∉ run := by
      intro before run after rounds
      induction rounds with
      | done => exact List.not_mem_nil
      | more round _ ih =>
          obtain ⟨c,single,allowed⟩ := round
          have other : '\n' ≠ c := Ne.symm allowed
          simp [single,other,ih]
    exact line rounds
  · intro line
    induction run generalizing before with
    | nil => exact .done
    | cons c run ih =>
        simp only [List.mem_cons,not_or] at line
        have round : (Expr.one .dot).Spans before [c] (run ++ after) := ⟨c,rfl,Ne.symm line.1⟩
        exact .more round (ih line.2)

end Expr

theorem Group.current_addAll (group : Group) (items : List Expr) :
    (group.addAll items).current = .sequence (group.items.reverse ++ items) ∧ (group.addAll items).earlier = group.earlier := by
  induction items generalizing group with
  | nil => simp [addAll,current]
  | cons e items ih =>
      obtain ⟨later,kept⟩ := ih (group.add e)
      refine ⟨later.trans ?_,kept⟩
      simp [add]

theorem Group.spans_expr : group.expr.Spans before run after ↔
    (∃ e ∈ group.earlier, e.Spans before run after) ∨ group.current.Spans before run after := by
  have choices : ∀ (earlier : List Expr) (last : Expr),
      (earlier.foldl (fun later e => Expr.choice e later) last).Spans before run after ↔
        (∃ e ∈ earlier, e.Spans before run after) ∨ last.Spans before run after := by
    intro earlier
    induction earlier with
    | nil => simp
    | cons e earlier ih =>
        intro last
        rw [List.foldl_cons,ih]
        simp [Expr.Spans,or_assoc,or_left_comm]
  exact choices group.earlier group.current

theorem Group.expr_free (group : Group) : group.expr.isAnchor = false := by
  have choices : ∀ (earlier : List Expr) (last : Expr), last.isAnchor = false →
      (earlier.foldl (fun later e => Expr.choice e later) last).isAnchor = false := by
    intro earlier
    induction earlier with
    | nil => exact fun _ free => free
    | cons e earlier ih => exact fun _ _ => ih _ rfl
  refine choices group.earlier group.current ?_
  rw [current]
  cases group.items.reverse <;> rfl

-- The text adds items to the group that is open, and leaves the reader where it was.
def Reads (text : Text) (items : List Expr) : Prop :=
  ∀ group outer rest, readFrom group outer (text ++ rest) = readFrom (group.addAll items) outer rest

-- What a part of a pattern stands for, wherever it is.
def Stands (text : Text) (language : Text → Prop) : Prop :=
  ∃ items, Reads text items ∧ ∀ before run after, (Expr.sequence items).Spans before run after ↔ language run

theorem Reads.nil : Reads [] [] := fun _ _ _ => rfl

theorem Reads.append (left : Reads s items) (right : Reads t more) : Reads (s ++ t) (items ++ more) := by
  intro group outer rest
  rw [List.append_assoc,left,right,Group.addAll,Group.addAll,Group.addAll,List.foldl_append]

theorem readFrom_cons (single : c ≠ '\\') (group : Group) (outer : List Group) (rest : Text) :
    readFrom group outer (c :: rest) = (take? group outer c).bind fun (group,outer) => readFrom group outer rest :=
  readFrom.eq_3 group outer c rest fun _ _ same => absurd same single

theorem reads_plain (plain : isMark c = false) : Reads [c] [.one (.exactly c)] := by
  have other : ∀ d, isMark d = true → c ≠ d := by
    intro d mark same
    subst same
    rw [mark] at plain
    cases plain
  intro group outer rest
  rw [List.singleton_append,readFrom_cons (other '\\' rfl)]
  simp [take?,plain,other '.' rfl,other '^' rfl,other '$' rfl,other '*' rfl,other '?' rfl,other '|' rfl,
    other '(' rfl,other ')' rfl,Group.addAll]

theorem reads_escaped (mark : isMark c = true) : Reads ['\\',c] [.one (.exactly c)] := by
  intro group outer rest
  simp [readFrom,mark,Group.addAll]

theorem reads_start : Reads ['^'] [.start] := by
  intro group outer rest
  rw [List.singleton_append,readFrom_cons (by decide)]
  rfl

theorem reads_finish : Reads ['$'] [.finish] := by
  intro group outer rest
  rw [List.singleton_append,readFrom_cons (by decide)]
  rfl

theorem reads_any : Reads ".*".toList [.many (.one .dot)] := by
  intro group outer rest
  have cut : ".*".toList ++ rest = '.' :: '*' :: rest := rfl
  rw [cut,readFrom_cons (by decide)]
  simp [take?,readFrom_cons,Group.repeated?,Group.add,Group.addAll,Expr.isAnchor]

namespace Stands

theorem congr (stands : Stands s language) (same : ∀ run, language run ↔ other run) : Stands s other := by
  obtain ⟨items,reads,spans⟩ := stands
  exact ⟨items,reads,fun before run after => (spans before run after).trans (same run)⟩

theorem nil : Stands [] (· = []) := ⟨[],.nil,fun _ _ _ => Iff.rfl⟩

theorem append (left : Stands s language) (right : Stands t other) :
    Stands (s ++ t) fun run => ∃ first later, run = first ++ later ∧ language first ∧ other later := by
  obtain ⟨items,reads,spans⟩ := left
  obtain ⟨more,behind,spansBehind⟩ := right
  refine ⟨items ++ more,reads.append behind,fun before run after => ?_⟩
  rw [Expr.spans_append]
  simp only [spans,spansBehind]

theorem single (reads : Reads s [e]) (spans : ∀ before run after, e.Spans before run after ↔ language run) :
    Stands s language :=
  ⟨[e],reads,fun before run after => (Expr.spans_single e).trans (spans before run after)⟩

theorem any : Stands ".*".toList ('\n' ∉ ·) := single reads_any fun _ _ _ => Expr.spans_any

theorem spans_exactly : (Expr.one (.exactly c)).Spans before run after ↔ run = [c] := by
  simp [Expr.Spans,Regex.Atom.Allows]

theorem plain (unmarked : isMark c = false) : Stands [c] (· = [c]) :=
  single (reads_plain unmarked) fun _ _ _ => spans_exactly

theorem escaped (mark : isMark c = true) : Stands ['\\',c] (· = [c]) :=
  single (reads_escaped mark) fun _ _ _ => spans_exactly

theorem literal (s : Text) (unmarked : Unmarked s) : Stands s (· = s) := by
  induction s with
  | nil => exact nil
  | cons c s ih =>
      obtain ⟨first,later⟩ := List.forall_mem_cons.mp unmarked
      refine ((plain first).append (ih later)).congr fun run => ?_
      simp

end Stands

theorem readFrom_alternatives (text : α → Text) (means : α → Text → Prop) {values : List α}
    (stands : ∀ value ∈ values, Stands (text value) (means value)) (some : values ≠ []) (earlier : List Expr) :
    ∃ group : Group, (∀ outer rest, readFrom ⟨earlier,[]⟩ outer (Text.join ['|'] (values.map text) ++ rest) =
      readFrom group outer rest) ∧
    ∀ before run after, group.expr.Spans before run after ↔
      (∃ e ∈ earlier, e.Spans before run after) ∨ ∃ value ∈ values, means value run := by
  induction values generalizing earlier with
  | nil => exact absurd rfl some
  | cons value values ih =>
      obtain ⟨first,later⟩ := List.forall_mem_cons.mp stands
      obtain ⟨items,reads,spans⟩ := first
      obtain ⟨current,kept⟩ := Group.current_addAll ⟨earlier,[]⟩ items
      have this : ∀ before run after, (Group.addAll ⟨earlier,[]⟩ items).current.Spans before run after ↔ means value run := by
        intro before run after
        rw [current]
        exact spans before run after
      cases values with
      | nil =>
          refine ⟨Group.addAll ⟨earlier,[]⟩ items,fun outer rest => reads _ outer rest,fun before run after => ?_⟩
          rw [Group.spans_expr,kept,this]
          simp
      | cons other values =>
          obtain ⟨group,read,means⟩ := ih later (List.cons_ne_nil _ _) (Group.addAll ⟨earlier,[]⟩ items).next.earlier
          refine ⟨group,fun outer rest => ?_,fun before run after => ?_⟩
          · have cut : Text.join ['|'] ((value :: other :: values).map text) ++ rest =
                text value ++ ('|' :: (Text.join ['|'] ((other :: values).map text) ++ rest)) := by
              simp [Text.join]
            rw [cut,reads,readFrom_cons (by decide),← read]
            rfl
          · rw [means,Group.next,kept]
            simp [this,or_assoc,or_left_comm]

theorem reads_group (text : α → Text) (means : α → Text → Prop) {values : List α}
    (stands : ∀ value ∈ values, Stands (text value) (means value)) (some : values ≠ []) :
    ∃ e, Reads ('(' :: Text.join ['|'] (values.map text) ++ [')']) [e] ∧ e.isAnchor = false ∧
      ∀ before run after, e.Spans before run after ↔ ∃ value ∈ values, means value run := by
  obtain ⟨group,read,spans⟩ := readFrom_alternatives text means stands some []
  refine ⟨group.expr,?_,?_,fun before run after => ?_⟩
  · intro parent outer rest
    have cut : '(' :: Text.join ['|'] (values.map text) ++ [')'] ++ rest =
        '(' :: (Text.join ['|'] (values.map text) ++ (')' :: rest)) := by simp
    rw [cut,readFrom_cons (by decide)]
    show readFrom ⟨[],[]⟩ (parent :: outer) _ = _
    rw [read,readFrom_cons (by decide)]
    rfl
  · exact Group.expr_free group
  · rw [spans]
    simp

theorem Stands.oneOf (text : α → Text) (means : α → Text → Prop) {values : List α}
    (stands : ∀ value ∈ values, Stands (text value) (means value)) (some : values ≠ []) :
    Stands ('(' :: Text.join ['|'] (values.map text) ++ [')']) fun run => ∃ value ∈ values, means value run := by
  obtain ⟨e,reads,_,spans⟩ := reads_group text means stands some
  exact single reads spans

theorem Stands.maybe (text : α → Text) (means : α → Text → Prop) {values : List α}
    (stands : ∀ value ∈ values, Stands (text value) (means value)) (some : values ≠ []) :
    Stands ('(' :: Text.join ['|'] (values.map text) ++ [')','?']) fun run => run = [] ∨ ∃ value ∈ values, means value run := by
  obtain ⟨e,reads,free,spans⟩ := reads_group text means stands some
  have repeated : Reads ('(' :: Text.join ['|'] (values.map text) ++ [')','?']) [.maybe e] := by
    intro group outer rest
    have cut : '(' :: Text.join ['|'] (values.map text) ++ [')','?'] ++ rest =
        '(' :: Text.join ['|'] (values.map text) ++ [')'] ++ ('?' :: rest) := by simp
    rw [cut,reads,readFrom_cons (by decide)]
    simp [take?,Group.repeated?,Group.addAll,Group.add,free]
  refine single repeated fun before run after => ?_
  simp only [Expr.Spans,spans]

theorem Reads.read? (reads : Reads s items) : Ere.read? s = some (Group.opened.addAll items).expr := by
  have whole := reads .opened [] []
  rw [List.append_nil] at whole
  exact whole

-- Anchors at both ends leave a search no choice where to look.
theorem Stands.finds_exact (stands : Stands s language) (line : Text) : Finds ('^' :: s ++ ['$']) line ↔ language line := by
  obtain ⟨items,reads,spans⟩ := stands
  have read := ((reads_start.append reads).append reads_finish).read?
  obtain ⟨current,kept⟩ := Group.current_addAll .opened ([.start] ++ items ++ [.finish])
  have anchored : ∀ before run after, (Group.opened.addAll ([.start] ++ items ++ [.finish])).expr.Spans before run after ↔
      before = [] ∧ after = [] ∧ language run := by
    intro before run after
    have none : ¬∃ e ∈ Group.opened.earlier, e.Spans before run after := by simp [Group.opened]
    rw [Group.spans_expr,kept,current,or_iff_right none]
    simp only [Group.opened,List.reverse_nil,List.nil_append,Expr.spans_append,Expr.spans_single,spans,Expr.Spans]
    constructor
    · intro cut
      obtain ⟨_,last,whole,⟨opening,middle,split,⟨opened,front⟩,inside⟩,closed,back⟩ := cut
      refine ⟨front,back,?_⟩
      rw [whole,split,opened,closed,List.nil_append,List.append_nil]
      exact inside
    · intro ends
      obtain ⟨front,back,inside⟩ := ends
      exact ⟨run,[],by simp,⟨[],run,rfl,⟨rfl,front⟩,inside⟩,rfl,back⟩
  constructor
  · intro found
    obtain ⟨e,known,before,run,after,whole,spans⟩ := found
    cases read.symm.trans known
    obtain ⟨front,back,inside⟩ := (anchored before run after).mp spans
    rw [whole,front,back,List.nil_append,List.append_nil]
    exact inside
  · intro inside
    exact ⟨_,read,[],line,[],by simp,(anchored [] line []).mpr ⟨rfl,rfl,inside⟩⟩

end FieldedSearch.Ere
