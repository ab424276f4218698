namespace FieldedSearch

-- One representation everywhere: a definition and the statements about it recurse on the same list.
-- `String` is met only where a text enters or leaves the program.
abbrev Text := List Char

namespace Text

def lowerAscii (s : Text) : Text := s.map Char.toLower

def splitOnce (mark : Text) : Text → Option (Text × Text)
  | [] => if mark = [] then some ([],[]) else none
  | c :: r =>
      if mark.isPrefixOf (c :: r) then some ([],(c :: r).drop mark.length)
      else (splitOnce mark r).map fun (before,after) => (c :: before,after)

-- Character by character, so it distributes over concatenation.
def escape (special : Char → Bool) (s : Text) : Text :=
  s.flatMap fun c => if special c then ['\\',c] else [c]

def substitute (s : Text) (old : Char) (new : Text) : Text :=
  s.flatMap fun c => if c = old then new else [c]

def join (separator : Text) : List Text → Text
  | [] => []
  | [s] => s
  | s :: t :: r => s ++ separator ++ join separator (t :: r)

theorem escape_cons (special : Char → Bool) (c : Char) (s : Text) :
    escape special (c :: s) = (if special c then ['\\',c] else [c]) ++ escape special s := by simp [escape]

theorem substitute_cons (c : Char) (s : Text) (old : Char) (new : Text) :
    substitute (c :: s) old new = (if c = old then new else [c]) ++ substitute s old new := by simp [substitute]

theorem substitute_append (s t : Text) (old : Char) (new : Text) :
    (s ++ t).substitute old new = s.substitute old new ++ t.substitute old new := by
  simp [substitute]

theorem length_dropWhile_le (p : Char → Bool) (s : Text) : (s.dropWhile p).length ≤ s.length := by
  induction s with
  | nil => simp
  | cons c r ih =>
      rw [List.dropWhile_cons]
      split
      · exact Nat.le_succ_of_le ih
      · exact Nat.le_refl _

end Text
end FieldedSearch
