import Mathlib.Data.List.Chain
import FieldedSearch.Text.Folding
import FieldedSearch.Text.Lowercase

namespace FieldedSearch

deriving instance DecidableEq for CodeRun

namespace CodeRun

variable {run other : CodeRun} {runs : List CodeRun} {n : Nat}

def target (run : CodeRun) (n : Nat) : Nat := (n + run.shift).toNat

def Precedes (run other : CodeRun) : Prop := run.last < other.first ∧ other.first ≤ other.last

instance : DecidableRel Precedes := fun _ _ => inferInstanceAs (Decidable (_ ∧ _))

instance : Trans Precedes Precedes Precedes :=
  ⟨fun left right => ⟨Nat.lt_trans (Nat.lt_of_lt_of_le left.1 left.2) right.1,right.2⟩⟩

def Lands (run : CodeRun) : Prop :=
  0 ≤ run.first + run.shift ∧ (run.last + run.shift < 0xd800 ∨
    0xdfff < run.first + run.shift ∧ run.last + run.shift < 0x110000)

instance (run : CodeRun) : Decidable run.Lands := inferInstanceAs (Decidable (_ ∧ (_ ∨ _ ∧ _)))

-- None of its targets is a point of `other`: they lie apart, or between the points of a run that skips.
def clears (run other : CodeRun) : Bool :=
  Nat.blt other.last (run.target run.first) || Nat.blt (run.target run.last) other.first ||
    ((run.first == run.last || run.step % other.step == 0) && (run.target run.first - other.first) % other.step != 0)

-- The same for all runs of a sorted table: those before the targets are passed over, those behind are not looked at.
def clearsSorted (run : CodeRun) : List CodeRun → Bool
  | [] => true
  | other :: runs =>
      bif Nat.ble (run.target run.first) other.last then
        run.clears other && (Nat.ble (run.target run.last) other.last || clearsSorted run runs)
      else clearsSorted run runs

theorem covers_exact : run.covers n = true ↔ run.first ≤ n ∧ n ≤ run.last ∧ run.step ∣ n - run.first := by
  simp [covers,Nat.dvd_iff_mod_eq_zero,and_assoc]

theorem find?_covers (sorted : runs.Pairwise Precedes) (member : run ∈ runs) (covered : run.covers n = true) :
    runs.find? (·.covers n) = some run := by
  induction runs with
  | nil => cases member
  | cons first runs ih =>
      obtain ⟨before,later⟩ := List.pairwise_cons.mp sorted
      rcases List.mem_cons.mp member with same | behind
      · subst same
        exact List.find?_cons_of_pos covered
      · have passed : first.covers n = false := by
          rw [Bool.eq_false_iff]
          intro inside
          have apart := (before run behind).1
          have below := (covers_exact.mp inside).2.1
          have above := (covers_exact.mp covered).1
          omega
        simpa [List.find?_cons,passed] using ih later behind

theorem target_between (lands : run.Lands) (covered : run.covers n = true) :
    run.target n = run.target run.first + (n - run.first) ∧ run.target n ≤ run.target run.last := by
  obtain ⟨above,below,_⟩ := covers_exact.mp covered
  have positive := lands.1
  simp only [target]
  omega

theorem clears_sound (lands : run.Lands) (clear : run.clears other = true) (covered : run.covers n = true) :
    other.covers (run.target n) = false := by
  obtain ⟨above,below,step⟩ := covers_exact.mp covered
  obtain ⟨shifted,highest⟩ := target_between lands covered
  rw [Bool.eq_false_iff]
  intro inside
  obtain ⟨after,before,skip⟩ := covers_exact.mp inside
  simp only [clears,Bool.or_eq_true,Bool.and_eq_true,Nat.blt_eq,beq_iff_eq,bne_iff_ne] at clear
  rcases clear with (beyond | short) | ⟨aligned,between⟩
  · omega
  · omega
  · have whole : other.step ∣ n - run.first := by
      rcases aligned with single | divides
      · have still : n - run.first = 0 := by omega
        exact still ▸ Nat.dvd_zero _
      · exact Nat.dvd_trans (Nat.dvd_of_mod_eq_zero divides) step
    -- Where the first target comes before the other run, truncated subtraction would make `between` false.
    have reached : other.first ≤ run.target run.first := by
      apply Nat.le_of_not_lt
      intro earlier
      exact between (by simp [Nat.sub_eq_zero_of_le (Nat.le_of_lt earlier)])
    have split : run.target n - other.first = (run.target run.first - other.first) + (n - run.first) := by omega
    rw [split] at skip
    exact between (Nat.mod_eq_zero_of_dvd ((Nat.dvd_add_left whole).mp skip))

theorem clearsSorted_clears (sorted : runs.Pairwise Precedes) (clear : run.clearsSorted runs = true)
    (member : other ∈ runs) : run.clears other = true := by
  induction runs with
  | nil => cases member
  | cons first runs ih =>
      obtain ⟨before,later⟩ := List.pairwise_cons.mp sorted
      rw [clearsSorted] at clear
      cases reached : Nat.ble (run.target run.first) first.last with
      | false =>
          rw [reached,cond_false] at clear
          rcases List.mem_cons.mp member with same | behind
          · have beyond : other.last < run.target run.first := by
              rw [same]
              exact Nat.lt_of_not_le (Nat.not_le_of_not_ble_eq_true (Bool.eq_false_iff.mp reached))
            simp [clears,beyond]
          · exact ih later clear behind
      | true =>
          rw [reached,cond_true,Bool.and_eq_true,Bool.or_eq_true] at clear
          rcases List.mem_cons.mp member with same | behind
          · exact same ▸ clear.1
          · rcases clear.2 with highest | rest
            · have short : run.target run.last < other.first :=
                Nat.lt_of_le_of_lt (Nat.le_of_ble_eq_true highest) (before other behind).1
              simp [clears,short]
            · exact ih later rest behind

theorem lands_valid (lands : run.Lands) (covered : run.covers n = true) : (run.target n).isValidChar := by
  obtain ⟨above,below,_⟩ := covers_exact.mp covered
  obtain ⟨positive,low | ⟨high,top⟩⟩ := lands
  · left
    simp only [target]
    omega
  · right
    simp only [target]
    omega

end CodeRun

open CodeRun (Precedes)

variable {run : CodeRun} {runs : List CodeRun} {c d : Char}

theorem toNat_ofNat {n : Nat} (valid : n.isValidChar) : (Char.ofNat n).toNat = n := by
  rw [Char.ofNat,dif_pos valid]
  rfl

theorem mapChar_covered (sorted : runs.Pairwise Precedes) (member : run ∈ runs) (covered : run.covers c.toNat = true) :
    mapChar runs c = Char.ofNat (run.target c.toNat) := by
  rw [mapChar,CodeRun.find?_covers sorted member covered]
  rfl

theorem mapChar_kept (free : ∀ run ∈ runs, run.covers c.toNat = false) : mapChar runs c = c := by
  have none : runs.find? (·.covers c.toNat) = none := by
    simpa using free
  rw [mapChar,none]

theorem mapChar_cases (runs : List CodeRun) (c : Char) :
    (∃ run ∈ runs, run.covers c.toNat = true) ∨ ∀ run ∈ runs, run.covers c.toNat = false := by
  by_cases met : ∃ run ∈ runs, run.covers c.toNat = true
  · exact .inl met
  · exact .inr fun run member => Bool.eq_false_iff.mpr fun covered => met ⟨run,member,covered⟩

namespace CaseTables

-- Lowered, but not folded along with their lower case: the dotted capital I, whose lower case is two characters, and the
-- letters that are younger than the folding data.
def unfolded : CodeRanges := [(0x130,0x130), (0xa7ce,0xa7ce), (0xa7d2,0xa7d2), (0xa7d4,0xa7d4), (0x16ea0,0x16eb8)]

def still (first last : Nat) : CodeRun := ⟨first,last,1,0⟩

def reversed (run : CodeRun) : CodeRun := ⟨run.target run.first,run.target run.last,run.step,-run.shift⟩

-- Two scripts fold to their capitals, and two runs hold the youngest letters.
def capitalFolded : List CodeRun := [⟨0x13a0,0x13ef,1,38864⟩, ⟨0x13f0,0x13f5,1,8⟩]

def young : List CodeRun := [⟨0xa7cc,0xa7da,2,1⟩, ⟨0x16ea0,0x16eb8,1,27⟩]

def youngFolded : List CodeRun := [⟨0xa7cc,0xa7cc,1,1⟩, ⟨0xa7d0,0xa7d0,1,1⟩, ⟨0xa7d6,0xa7da,2,1⟩]

theorem unfolded_lands : ∀ range ∈ unfolded, (still range.1 range.2).Lands := by decide

theorem capital_lands : ∀ run ∈ capitalFolded, run.Lands ∧ (still run.first run.last).Lands := by decide

-- What is read off the runs: the tables are sorted, no target of folding is folded, and where the tables differ.
structure Computed : Prop where
  lower_chain : lower.IsChain Precedes
  folded_chain : folded.IsChain Precedes
  lands : ∀ run ∈ folded, run.Lands
  clears : ∀ run ∈ folded, run.clearsSorted folded = true
  apart : unfolded.all (fun range => folded.all fun run =>
    (still range.1 range.2).clears run && run.clears (still range.1 range.2)) = true
  shared : (lower.filter fun run => run ∉ capitalFolded ++ young).Sublist folded
  back : ∀ run ∈ capitalFolded, reversed run ∈ folded ∧ folded.all (still run.first run.last).clears = true
  letters : youngFolded.Sublist folded
  sigma : foldChar 'σ' = foldChar 'Σ' ∧ foldChar 'ς' = foldChar 'Σ'

instance : Decidable Computed :=
  decidable_of_iff (_ ∧ _ ∧ _ ∧ _ ∧ _ ∧ _ ∧ _ ∧ _ ∧ _)
    ⟨fun ⟨a,b,c,d,e,f,g,h,i⟩ => ⟨a,b,c,d,e,f,g,h,i⟩,fun ⟨a,b,c,d,e,f,g,h,i⟩ => ⟨a,b,c,d,e,f,g,h,i⟩⟩

theorem computed : Computed := by decide +kernel

inductive Lowered (run : CodeRun) : Prop where
  | shared (known : run ∈ folded)
  | capital (listed : run ∈ capitalFolded)
  | young (listed : run ∈ young)

theorem lower_sorted : lower.Pairwise Precedes := List.isChain_iff_pairwise.mp computed.lower_chain

theorem folded_sorted : folded.Pairwise Precedes := List.isChain_iff_pairwise.mp computed.folded_chain

theorem folded_clears {other : CodeRun} (member : run ∈ folded) (known : other ∈ folded) : run.clears other = true :=
  CodeRun.clearsSorted_clears folded_sorted (computed.clears run member) known

theorem unfolded_clears {range : Nat × Nat} (listed : range ∈ unfolded) (member : run ∈ folded) :
    (still range.1 range.2).clears run = true ∧ run.clears (still range.1 range.2) = true := by
  have clear := List.all_eq_true.mp (List.all_eq_true.mp computed.apart range listed) run member
  rwa [Bool.and_eq_true] at clear

theorem lowered_cases (member : run ∈ lower) : Lowered run := by
  by_cases odd : run ∈ capitalFolded ++ young
  · rcases List.mem_append.mp odd with capital | youngest
    · exact .capital capital
    · exact .young youngest
  · exact .shared (computed.shared.subset (List.mem_filter.mpr ⟨member,decide_eq_true odd⟩))

theorem young_letters : ∀ n < 8, unfolded.holds (Char.ofNat (0xa7cc + 2 * n)) = true ∨
    ∃ run ∈ youngFolded, run.covers (0xa7cc + 2 * n) = true ∧ run.shift = 1 := by decide

theorem capital_clears {other : CodeRun} (capital : run ∈ capitalFolded) (known : other ∈ folded) :
    (still run.first run.last).clears other = true :=
  List.all_eq_true.mp (computed.back run capital).2 other known

end CaseTables

open CaseTables

theorem toNat_foldChar (member : run ∈ folded) (covered : run.covers c.toNat = true) :
    (foldChar c).toNat = run.target c.toNat := by
  rw [foldChar,mapChar_covered folded_sorted member covered]
  exact toNat_ofNat (CodeRun.lands_valid (computed.lands run member) covered)

theorem foldChar_foldChar (c : Char) : foldChar (foldChar c) = foldChar c := by
  rcases mapChar_cases folded c with ⟨run,member,covered⟩ | free
  · apply mapChar_kept
    intro other known
    rw [toNat_foldChar member covered]
    exact CodeRun.clears_sound (computed.lands run member) (folded_clears member known) covered
  · have same : foldChar c = c := mapChar_kept free
    rw [same,same]

theorem unfolded_exact : unfolded.holds c = true ↔ ∃ range ∈ unfolded, (still range.1 range.2).covers c.toNat = true := by
  simp [CodeRanges.holds,still,CodeRun.covers_exact]

theorem eq_of_unfolded (single : unfolded.holds c = true) (same : foldChar d = foldChar c) : d = c := by
  obtain ⟨range,listed,inside⟩ := unfolded_exact.mp single
  have kept : foldChar c = c := by
    apply mapChar_kept
    intro run member
    have apart := CodeRun.clears_sound (unfolded_lands range listed) (unfolded_clears listed member).1 inside
    rwa [CodeRun.target,still,Int.add_zero,Int.toNat_natCast] at apart
  rw [kept] at same
  rcases mapChar_cases folded d with ⟨run,member,covered⟩ | free
  · have missed := CodeRun.clears_sound (computed.lands run member) (unfolded_clears listed member).2 covered
    rw [← toNat_foldChar member covered,same,inside] at missed
    cases missed
  · exact (mapChar_kept free).symm.trans same

theorem foldChar_lower_shared {lowered : CodeRun} (member : lowered ∈ lower) (covered : lowered.covers c.toNat = true)
    (known : run ∈ folded) (inside : run.covers c.toNat = true) (alike : run.shift = lowered.shift) :
    foldChar (mapChar lower c) = foldChar c := by
  have same : mapChar lower c = foldChar c := by
    rw [foldChar,mapChar_covered lower_sorted member covered,mapChar_covered folded_sorted known inside,
      CodeRun.target,CodeRun.target,alike]
  rw [same,foldChar_foldChar]

theorem foldChar_capital (capital : run ∈ capitalFolded) (covered : run.covers c.toNat = true) : foldChar c = c := by
  obtain ⟨above,below,_⟩ := CodeRun.covers_exact.mp covered
  have point : (still run.first run.last).covers c.toNat = true := CodeRun.covers_exact.mpr ⟨above,below,Nat.one_dvd _⟩
  apply mapChar_kept
  intro other known
  have apart := CodeRun.clears_sound (capital_lands run capital).2 (capital_clears capital known) point
  rwa [CodeRun.target,still,Int.add_zero,Int.toNat_natCast] at apart

theorem foldChar_lower_capital (member : run ∈ lower) (capital : run ∈ capitalFolded)
    (covered : run.covers c.toNat = true) : foldChar (mapChar lower c) = foldChar c := by
  have lands := (capital_lands run capital).1
  obtain ⟨above,below,step⟩ := CodeRun.covers_exact.mp covered
  have lowered : (mapChar lower c).toNat = run.target c.toNat := by
    rw [mapChar_covered lower_sorted member covered]
    exact toNat_ofNat (CodeRun.lands_valid lands covered)
  have inside : (reversed run).covers (mapChar lower c).toNat = true := by
    obtain ⟨shifted,highest⟩ := CodeRun.target_between lands covered
    refine CodeRun.covers_exact.mpr ⟨?_,?_,?_⟩
    · simp only [reversed,lowered]
      omega
    · simpa only [reversed,lowered] using highest
    · simpa only [reversed,lowered,shifted,Nat.add_sub_cancel_left] using step
  have back : (reversed run).target (run.target c.toNat) = c.toNat := by
    have positive := lands.1
    simp only [reversed,CodeRun.target]
    omega
  rw [foldChar_capital capital covered,foldChar,mapChar_covered folded_sorted (computed.back run capital).1 inside,lowered,
    back,Char.ofNat_toNat]

theorem foldChar_lower_young (member : run ∈ lower) (youngest : run ∈ young) (covered : run.covers c.toNat = true)
    (ordinary : unfolded.holds c = false) : foldChar (mapChar lower c) = foldChar c := by
  obtain ⟨above,below,step⟩ := CodeRun.covers_exact.mp covered
  simp only [young,List.mem_cons,List.not_mem_nil,or_false] at youngest
  rcases youngest with same | same <;> subst same
  · obtain ⟨n,double⟩ := step
    have point : 0xa7cc + 2 * n = c.toNat := by
      dsimp only at above double
      omega
    have small : n < 8 := by
      dsimp only at below
      omega
    rcases young_letters n small with single | ⟨other,known,inside,shift⟩
    · rw [point,Char.ofNat_toNat,ordinary] at single
      cases single
    · exact foldChar_lower_shared member covered (computed.letters.subset known) (point ▸ inside) shift
  · have single : unfolded.holds c = true :=
      unfolded_exact.mpr ⟨(0x16ea0,0x16eb8),by decide,covered⟩
    rw [ordinary] at single
    cases single

theorem foldChar_lower (ordinary : unfolded.holds c = false) : foldChar (mapChar lower c) = foldChar c := by
  rcases mapChar_cases lower c with ⟨run,member,covered⟩ | free
  · cases lowered_cases member with
    | shared known => exact foldChar_lower_shared member covered known covered rfl
    | capital listed => exact foldChar_lower_capital member listed covered
    | young listed => exact foldChar_lower_young member listed covered ordinary
  · rw [mapChar_kept free]

end FieldedSearch
