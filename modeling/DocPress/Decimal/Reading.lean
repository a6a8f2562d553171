/-!
# Reading decimals

Texts of numbers: whole numbers of bounded size, and doubles in decimal or scientific notation,
rounded to the nearest double.
-/

namespace DocPress.Decimal

set_option autoImplicit false

def digitValue (c : Char) : Nat := c.toNat - '0'.toNat

def natOfDigits (cs : List Char) : Nat := cs.foldl (fun n c => 10 * n + digitValue c) 0

/-- A whole number below `bound`; a plus sign may stand before its digits. -/
def readNat? (bound : Nat) (s : String) : Option Nat :=
  let digits := match s.toList with
    | '+' :: rest => rest
    | cs => cs
  if digits.isEmpty || !digits.all Char.isDigit then none
  else
    let n := natOfDigits digits
    if n < bound then some n else none

/-- The double nearest to `digits · 10 ^ e`. -/
def nearest (digits : Nat) (e : Int) : Float :=
  if digits = 0 then 0.0
  else
    let size := e + (toString digits).length
    if size < -400 then 0.0
    else if 400 < size then 1.0 / 0.0
    else if 0 ≤ e then Float.ofScientific digits false e.toNat
    else Float.ofScientific digits true (-e).toNat

/-- An exponent: a sign, if any, and at least one digit. -/
def readExponent? (cs : List Char) : Option Int :=
  let (negative, digits) := match cs with
    | '-' :: rest => (true, rest)
    | '+' :: rest => (false, rest)
    | _ => (false, cs)
  if digits.isEmpty || !digits.all Char.isDigit then none
  else
    let n : Int := natOfDigits digits
    some (if negative then -n else n)

/-- A number without a sign: digits with at most one point, then perhaps an exponent. -/
def readUnsigned? (cs : List Char) : Option Float :=
  let whole := cs.takeWhile Char.isDigit
  let rest := cs.dropWhile Char.isDigit
  let (places, rest) := match rest with
    | '.' :: tail => (tail.takeWhile Char.isDigit, tail.dropWhile Char.isDigit)
    | _ => ([], rest)
  if whole.isEmpty && places.isEmpty then none
  else
    let digits := natOfDigits (whole ++ places)
    match rest with
    | [] => some (nearest digits (-places.length))
    | c :: tail =>
      if c == 'e' || c == 'E' then
        (readExponent? tail).map fun e => nearest digits (e - places.length)
      else none

/-- A double: a sign, if any, then a number or one of the words for infinity and not a number. -/
def readFloat? (s : String) : Option Float :=
  let (negative, body) := match s.toList with
    | '-' :: rest => (true, rest)
    | '+' :: rest => (false, rest)
    | cs => (false, cs)
  let word := String.ofList (body.map Char.toLower)
  let value :=
    if word = "inf" || word = "infinity" then some (1.0 / 0.0)
    else if word = "nan" then some (0.0 / 0.0)
    else readUnsigned? body
  value.map fun x => if negative then -x else x

end DocPress.Decimal
