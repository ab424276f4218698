import FieldedSearch.Calendar
import FieldedSearch.Text.Blank

namespace FieldedSearch

inductive DatePart where
  | year
  | month
  | day
  deriving DecidableEq, Repr

abbrev DateLayout := List DatePart

namespace DateLayout

def isSeparator (c : Char) : Bool := c = '-' || c = '/' || c = '.'

-- Month first is the usual order with slashes only.
def ofSeparator (separator : Char) : List DateLayout :=
  if separator = '/' then [[.year,.month,.day],[.month,.day,.year],[.day,.month,.year]]
  else [[.year,.month,.day],[.day,.month,.year],[.month,.day,.year]]

def startsWithYear (s : Text) : Bool :=
  (Text.takeFixed 4 s).isSome && (s.drop 4).head?.any isSeparator

def yearFirst (layout : DateLayout) : Bool := layout.head? = some .year

-- Layouts that agree with the look of the text come first, otherwise the order stays.
def candidates (s : Text) : List DateLayout :=
  match s.find? isSeparator with
  | none => []
  | some separator =>
      let (first,second) := (ofSeparator separator).partition fun layout => yearFirst layout = startsWithYear s
      first ++ second

structure Spelled where
  year : Int
  month : Nat
  day : Nat

-- Blanks may stand before the digits. A sign belongs to years and stands before those blanks.
def takeNumber (limit : Nat) (s : Text) : Option (Nat × Text) :=
  (Text.takeUpTo limit (s.dropWhile isAsciiBlank)).map fun (digits,rest) => (Text.number digits,rest)

def takeYear : Text → Option (Int × Text)
  | '-' :: s => (takeNumber 4 s).map fun (n,rest) => (-(n : Int),rest)
  | '+' :: s => (takeNumber 4 s).map fun (n,rest) => ((n : Int),rest)
  | s => (takeNumber 4 s).map fun (n,rest) => ((n : Int),rest)

def takePart (spelled : Spelled) (s : Text) : DatePart → Option (Spelled × Text)
  | .year => (takeYear s).map fun (n,rest) => ({ spelled with year := n },rest)
  | .month => (takeNumber 2 s).map fun (n,rest) => ({ spelled with month := n },rest)
  | .day => (takeNumber 2 s).map fun (n,rest) => ({ spelled with day := n },rest)

def takeAll (separator : Char) (spelled : Spelled) (s : Text) : DateLayout → Option Spelled
  | [] => if s.isEmpty then some spelled else none
  | [part] => (takePart spelled s part).bind fun (spelled,rest) => if rest.isEmpty then some spelled else none
  | part :: next :: layout =>
      (takePart spelled s part).bind fun (spelled,rest) =>
        match rest with
        | c :: rest => if c = separator then takeAll separator spelled rest (next :: layout) else none
        | [] => none

def read? (s : Text) (layout : DateLayout) : Option Date := do
  let separator ← s.find? isSeparator
  let spelled ← takeAll separator ⟨0,0,0⟩ s layout
  Date.of? spelled.year spelled.month spelled.day

def date? (s : Text) : Option Date := (candidates s).findSome? (read? s)

end DateLayout
end FieldedSearch
