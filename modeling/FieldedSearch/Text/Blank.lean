import FieldedSearch.Text

namespace FieldedSearch

-- White_Space, the one class that separates clauses.
def isBlank (c : Char) : Bool :=
  let n := c.toNat
  (9 ≤ n && n ≤ 13) || n = 0x20 || n = 0x85 || n = 0xa0 || n = 0x1680 || (0x2000 ≤ n && n ≤ 0x200a) ||
    n = 0x2028 || n = 0x2029 || n = 0x202f || n = 0x205f || n = 0x3000

namespace Text

def dropBlank (s : Text) : Text := s.dropWhile isBlank

def trim (s : Text) : Text := (s.dropBlank.reverse.dropWhile isBlank).reverse

end Text

-- Date layouts and durations know the narrower set: space, tab, line feed, form feed, carriage return.
def isAsciiBlank (c : Char) : Bool :=
  c = ' ' || c = '\t' || c = '\n' || c = '\x0c' || c = '\r'

theorem isBlank_of_isAsciiBlank (c : Char) (white : isAsciiBlank c = true) : isBlank c = true := by
  simp only [isAsciiBlank,Bool.or_eq_true,decide_eq_true_eq] at white
  rcases white with (((rfl | rfl) | rfl) | rfl) | rfl <;> decide

end FieldedSearch
