import FieldedSearch.Calendar

namespace FieldedSearch

-- Seconds that clocks are ahead of UTC, at every instant. Instants are counted in billionths of a second from day zero.
structure Zone where
  offsetAt : Int → Int
  bounded : ∀ instant, (offsetAt instant).natAbs ≤ 93599

-- No clock is 26 hours or more from UTC. An offset that far counts as none.
def Zone.ofOffsets (offsetAt : Int → Int) : Zone where
  offsetAt instant := if (offsetAt instant).natAbs ≤ 93599 then offsetAt instant else 0
  bounded instant := by
    split
    · assumption
    · decide

def Zone.fixed (seconds : Int) : Zone := .ofOffsets fun _ => seconds

def Zone.utc : Zone := .fixed 0

inductive ZoneOffset where
  | utc
  | fixed (seconds : Int)
  deriving DecidableEq, Repr

structure Moment where
  date : Date
  -- Billionths of a second since the day began.
  time : Option Nat
  offset : Option ZoneOffset

namespace Moment

-- Readers take what they understand off the front. Where something may be absent, its absence is `none` inside.

def takeYear : Text → Option (Int × Text)
  | '-' :: s => (Text.takeFixed 6 s).bind fun (n,rest) => if n = 0 then none else some (-(n : Int),rest)
  | '+' :: s => (Text.takeFixed 6 s).map fun (n,rest) => ((n : Int),rest)
  | s => (Text.takeFixed 4 s).map fun (n,rest) => ((n : Int),rest)

-- A separator is required or forbidden, as the place after the year shows.
def takeDash (extended : Bool) : Text → Option Text
  | '-' :: rest => if extended then some rest else none
  | s => if extended then none else some s

def takeDate (s : Text) : Option (Date × Text) := do
  let (year,s) ← takeYear s
  let extended := s.head? = some '-'
  let s ← takeDash extended s
  let (month,s) ← Text.takeFixed 2 s
  let s ← takeDash extended s
  let (day,s) ← Text.takeFixed 2 s
  let date ← Date.of? year month day
  some (date,s)

def nextPart (extended : Bool) (s : Text) : Option Text :=
  if extended then
    match s with
    | ':' :: rest => some rest
    | _ => none
  else if (Text.takeFixed 2 s).isSome then some s
  else none

def takeBelow (limit : Nat) (s : Text) : Option (Nat × Text) :=
  (Text.takeFixed 2 s).bind fun (n,rest) => if n < limit then some (n,rest) else none

-- A leap second counts as the second before it.
def takeTime (s : Text) : Option (Nat × Text) := do
  let (hour,s) ← takeBelow 24 s
  let extended := s.head? = some ':'
  match nextPart extended s with
  | none => some (3600 * hour * 1000000000,s)
  | some s =>
      let (minute,s) ← takeBelow 60 s
      match nextPart extended s with
      | none => some ((3600 * hour + 60 * minute) * 1000000000,s)
      | some s =>
          let (second,s) ← takeBelow 61 s
          let (fraction,s) ← Text.takeFraction s
          some ((3600 * hour + 60 * minute + min second 59) * 1000000000 + fraction.getD 0,s)

-- Hours go up to 25. Half a second or more rounds up.
def takeFixedOffset (withSeconds : Bool) (s : Text) : Option (Nat × Text) := do
  let (hour,s) ← takeBelow 26 s
  let extended := s.head? = some ':'
  match nextPart extended s with
  | none => some (3600 * hour,s)
  | some s =>
      let (minute,s) ← takeBelow 60 s
      match if withSeconds then nextPart extended s else none with
      | none => some (3600 * hour + 60 * minute,s)
      | some s =>
          let (second,s) ← takeBelow 60 s
          let (fraction,s) ← Text.takeFraction s
          let up := if fraction.getD 0 ≥ 500000000 then 1 else 0
          some (3600 * hour + 60 * minute + second + up,s)

def takeOffset (s : Text) : Option (Option ZoneOffset × Text) :=
  match s with
  | 'Z' :: rest => some (some .utc,rest)
  | 'z' :: rest => some (some .utc,rest)
  | '+' :: rest => (takeFixedOffset true rest).map fun (n,rest) => (some (.fixed n),rest)
  | '-' :: rest => (takeFixedOffset true rest).map fun (n,rest) => (some (.fixed (-(n : Int))),rest)
  | s => some (none,s)

def takeOne (p : Char → Bool) : Text → Option Text
  | c :: rest => if p c then some rest else none
  | [] => none

def isZoneStart (c : Char) : Bool := c = '.' || c = '_' || c.isAlpha
def isZoneChar (c : Char) : Bool := isZoneStart c || c = '-' || c = '+' || c.isDigit
def isKeyStart (c : Char) : Bool := c = '_' || c.isLower
def isKeyChar (c : Char) : Bool := isKeyStart c || c = '-' || c.isDigit

def takeWord (first later : Char → Bool) (s : Text) : Option Text :=
  (takeOne first s).map (·.dropWhile later)

def takeWords (first later : Char → Bool) (mark : Char) (s : Text) : Option Text :=
  match _found : takeWord first later s with
  | some (c :: rest) => if c = mark then takeWords first later mark rest else some (c :: rest)
  | other => other
termination_by s.length
decreasing_by
  obtain ⟨inner,read,eq⟩ := Option.map_eq_some_iff.1 _found
  have shorter := Text.length_dropWhile_le later inner
  rw [eq] at shorter
  cases s with
  | nil => simp [takeOne] at read
  | cons d t =>
      simp only [takeOne] at read
      split at read
      · cases read
        simp only [List.length_cons] at shorter ⊢
        omega
      · simp at read

-- A zone annotation may only come first. Without one the text stays untouched.
def takeZone (s : Text) : Option Text :=
  match s with
  | '[' :: body =>
      let body := if body.head? = some '!' then body.tail else body
      match body with
      | '+' :: rest => (takeFixedOffset false rest).bind fun (_,rest) => takeOne (· = ']') rest
      | '-' :: rest => (takeFixedOffset false rest).bind fun (_,rest) => takeOne (· = ']') rest
      | body =>
          (takeWord isZoneStart isZoneChar body).bind fun rest =>
            if rest.head? = some '=' then some s
            else (takeWords isZoneStart isZoneChar '/' body).bind (takeOne (· = ']'))
  | s => some s

-- A key with its value. The mark `!` demands what is not supported here.
def takeAnnotation (s : Text) : Option Text := do
  let s ← takeOne (· = '[') s
  let s ← takeWord isKeyStart isKeyChar s
  let s ← takeOne (· = '=') s
  let s ← takeWords Char.isAlphanum Char.isAlphanum '-' s
  takeOne (· = ']') s

-- The test of progress never fails. It spares a lemma for every reader above.
def onlyKeyed (s : Text) : Bool :=
  if s.isEmpty then true
  else
    match takeAnnotation s with
    | some rest => if rest.length < s.length then onlyKeyed rest else false
    | none => false
termination_by s.length
decreasing_by assumption

def onlyAnnotations (s : Text) : Bool := (takeZone s).any onlyKeyed

def isTimeMark (c : Char) : Bool := c = 'T' || c = 't' || c = ' '

def read? (s : Text) : Option Moment := do
  let (date,s) ← takeDate s
  let (time,offset,s) ← match s with
    | c :: rest =>
        if isTimeMark c then do
          let (time,s) ← takeTime rest
          let (offset,s) ← takeOffset s
          some (some time,offset,s)
        else some (none,none,s)
    | [] => some (none,none,s)
  if onlyAnnotations s then some ⟨date,time,offset⟩ else none

-- Seconds since the start of the day zero, in UTC.
def earliestInstant : Int := -3652058 * 86400 + 7199
def latestInstant : Int := 3652423 * 86400 + 79200

-- A moment is an instant when it has a time and an offset and lies far enough from both ends of the calendar to have a
-- day in every zone.
def instant? (m : Moment) : Option Int := do
  let time ← m.time
  let offset ← m.offset
  let seconds := match offset with
    | .utc => 0
    | .fixed seconds => seconds
  if seconds.natAbs > 93599 then none
  else
    let instant := (m.date.dayNumber * 86400 - seconds) * 1000000000 + time
    if earliestInstant * 1000000000 ≤ instant ∧ instant < (latestInstant + 1) * 1000000000 then some instant else none

def dayIn? (zone : Zone) (instant : Int) : Option Date :=
  Date.ofDayNumber? ((instant + zone.offsetAt instant * 1000000000) / (86400 * 1000000000))

-- The written day, of a moment without `Z`.
def civilDate? (m : Moment) : Option Date := if m.offset = some .utc then none else some m.date

end Moment
end FieldedSearch
