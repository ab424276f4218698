namespace FieldedSearch

abbrev CodeRanges := List (Nat × Nat)

def CodeRanges.holds (ranges : CodeRanges) (c : Char) : Bool :=
  ranges.any fun (first,last) => first ≤ c.toNat && c.toNat ≤ last

-- Every `step`-th code point from `first` to `last` moves by `shift`. Alternating alphabets have step two.
structure CodeRun where
  first : Nat
  last : Nat
  step : Nat
  shift : Int

def CodeRun.covers (run : CodeRun) (n : Nat) : Bool :=
  run.first ≤ n && n ≤ run.last && (n - run.first) % run.step = 0

def mapChar (runs : List CodeRun) (c : Char) : Char :=
  match runs.find? (·.covers c.toNat) with
  | some run => Char.ofNat (c.toNat + run.shift).toNat
  | none => c

end FieldedSearch
