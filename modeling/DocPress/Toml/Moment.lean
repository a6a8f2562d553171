import DocPress.Decimal.Reading
import DocPress.Decimal.Shortest
import DocPress.Text.Blank

/-!
# Dates and times

The four kinds of dates that TOML knows. `Moment.read?` takes every spelling of one, and
`Moment.render` gives the one spelling it is passed on with: a capital letter between date and
time, no zeros at the end of the parts of a second, an offset of nothing with a plus sign.
-/

namespace DocPress

set_option autoImplicit false

/-- The value of `count` digits, if it lies between `low` and `high`. -/
def field? (count low high : Nat) (cs : List Char) : Option Nat :=
  let n := Decimal.natOfDigits cs
  if cs.length = count ∧ cs.all Char.isDigit ∧ low ≤ n ∧ n ≤ high then some n else none

def paddedText (width n : Nat) : String :=
  let s := toString n
  Decimal.zeros (width - s.length) ++ s

structure Date where
  year : Nat
  month : Nat
  day : Nat

namespace Date

def isLeap (year : Nat) : Bool := year % 4 == 0 && (year % 100 != 0 || year % 400 == 0)

def daysOf (year month : Nat) : Nat :=
  if month = 2 then if isLeap year then 29 else 28
  else if [4, 6, 9, 11].contains month then 30
  else 31

def read? (cs : List Char) : Option Date :=
  match Text.pieces '-' cs with
  | [year, month, day] => do
    let year ← field? 4 0 9999 year
    let month ← field? 2 1 12 month
    let day ← field? 2 1 (daysOf year month) day
    return ⟨year, month, day⟩
  | _ => none

def render (d : Date) : String :=
  paddedText 4 d.year ++ "-" ++ paddedText 2 d.month ++ "-" ++ paddedText 2 d.day

end Date

/-- A time of day. The second may be left out; parts of it are counted in billionths. -/
structure TimeOfDay where
  hour : Nat
  minute : Nat
  second : Option Nat
  billionths : Option Nat

namespace TimeOfDay

/-- The billionths that decimal places stand for; places after the ninth are dropped. -/
def billionthsOf? (places : List Char) : Option Nat :=
  if places.isEmpty || !places.all Char.isDigit then none
  else some (Decimal.natOfDigits ((places ++ List.replicate 9 '0').take 9))

/-- The second of a time with its parts; a leap second is the sixtieth. -/
def readSecond? (cs : List Char) : Option (Nat × Option Nat) :=
  match Text.cut '.' cs with
  | some (whole, places) => do
    let second ← field? 2 0 60 whole
    let billionths ← billionthsOf? places
    return (second, some billionths)
  | none => (field? 2 0 60 cs).map fun second => (second, none)

def read? (cs : List Char) : Option TimeOfDay :=
  match Text.pieces ':' cs with
  | [hour, minute] => do
    return ⟨← field? 2 0 23 hour, ← field? 2 0 59 minute, none, none⟩
  | [hour, minute, second] => do
    let hour ← field? 2 0 23 hour
    let minute ← field? 2 0 59 minute
    let (second, billionths) ← readSecond? second
    return ⟨hour, minute, some second, billionths⟩
  | _ => none

/-- The decimal places of billionths, at least one. -/
def places (billionths : Nat) : String :=
  let s := Text.trimEnd '0' (paddedText 9 billionths)
  if s.isEmpty then "0" else s

def render (t : TimeOfDay) : String :=
  let second := (t.second.map fun n => ":" ++ paddedText 2 n).getD ""
  let parts := (t.billionths.map fun n => "." ++ places n).getD ""
  paddedText 2 t.hour ++ ":" ++ paddedText 2 t.minute ++ second ++ parts

end TimeOfDay

/-- The distance from universal time, which may be that time itself. -/
inductive Offset where
  | universal
  | minutes (n : Int)

namespace Offset

def readMinutes? (cs : List Char) : Option Int :=
  match Text.pieces ':' cs with
  | [hour, minute] => do
    return 60 * (← field? 2 0 23 hour) + (← field? 2 0 59 minute)
  | _ => none

def read? : List Char → Option Offset
  | ['Z'] => some .universal
  | ['z'] => some .universal
  | '+' :: rest => (readMinutes? rest).map .minutes
  | '-' :: rest => (readMinutes? rest).map fun n => .minutes (-n)
  | _ => none

def render : Offset → String
  | .universal => "Z"
  | .minutes n =>
    let sign := if n < 0 then "-" else "+"
    sign ++ paddedText 2 (n.natAbs / 60) ++ ":" ++ paddedText 2 (n.natAbs % 60)

end Offset

/-- A date, a time of day, or both, and then perhaps an offset. -/
inductive Moment where
  | date (d : Date)
  | time (t : TimeOfDay)
  | full (d : Date) (t : TimeOfDay) (offset : Option Offset)

namespace Moment

def isSeparator (c : Char) : Bool := c == 'T' || c == 't' || c == ' '

def startsOffset (c : Char) : Bool := c == 'Z' || c == 'z' || c == '+' || c == '-'

/-- A time with its offset, if there is one. -/
def readTime? (cs : List Char) : Option (TimeOfDay × Option Offset) := do
  let time := cs.takeWhile fun c => !startsOffset c
  let t ← TimeOfDay.read? time
  match cs.drop time.length with
  | [] => return (t, none)
  | rest => (Offset.read? rest).map fun offset => (t, some offset)

/-- A date of ten characters, a separator and a time. -/
def readFull? (cs : List Char) : Option Moment := do
  let d ← Date.read? (cs.take 10)
  match cs.drop 10 with
  | c :: rest =>
    if isSeparator c then (readTime? rest).map fun p => .full d p.1 p.2 else none
  | [] => none

def read? (cs : List Char) : Option Moment :=
  (Date.read? cs).map .date <|> (TimeOfDay.read? cs).map .time <|> readFull? cs

def render : Moment → String
  | .date d => d.render
  | .time t => t.render
  | .full d t offset => d.render ++ "T" ++ t.render ++ (offset.map Offset.render).getD ""

end Moment

end DocPress
