import FieldedSearch.Text

namespace FieldedSearch.Text

def number (digits : Text) : Nat := digits.foldl (fun n c => 10 * n + (c.toNat - 48)) 0

def allDigits (s : Text) : Bool := s.all Char.isDigit

def takeFixed (count : Nat) (s : Text) : Option (Nat × Text) :=
  let digits := s.take count
  if digits.length = count && allDigits digits then some (number digits,s.drop count) else none

def takeDigits (s : Text) : Text × Text := (s.takeWhile Char.isDigit,s.dropWhile Char.isDigit)

def takeUpTo (limit : Nat) (s : Text) : Option (Text × Text) :=
  let digits := (s.take limit).takeWhile Char.isDigit
  if digits.isEmpty then none else some (digits,s.drop digits.length)

-- One to nine digits after a point or a comma, as billionths. Without a mark there is no fraction.
def takeFraction (s : Text) : Option (Option Nat × Text) :=
  match s with
  | c :: rest =>
      if c = '.' || c = ',' then
        (takeUpTo 9 rest).map fun (digits,rest) =>
          (some (number digits * Nat.pow 10 (9 - digits.length)),rest)
      else some (none,s)
  | [] => some (none,s)

def decimal (n : Nat) : Text := Nat.toDigits 10 n

def padded (width n : Nat) : Text :=
  List.replicate (width - (decimal n).length) '0' ++ decimal n

end FieldedSearch.Text
