/-!
# Shortest decimals

A finite positive double is `m · 2 ^ q`. The reals that round to it form an interval around it,
and `shortest` finds the decimal with the fewest digits in that interval, of several the nearest
to the double. `render` writes it without an exponent.
-/

namespace DocPress.Decimal

set_option autoImplicit false

/-- A double taken apart: its sign, and the value of its other bits. -/
inductive Magnitude where
  | nan
  | infinite
  | finite (m : Nat) (q : Int) (narrowBelow : Bool)

def isNegative (bits : Nat) : Bool := bits / Nat.pow 2 63 == 1

/-- The magnitude of a double; at the bottom of a binade the interval is narrower below. -/
def magnitude (bits : Nat) : Magnitude :=
  let fraction := bits % Nat.pow 2 52
  let exponent : Nat := bits / Nat.pow 2 52 % Nat.pow 2 11
  if exponent = 2047 then if fraction = 0 then .infinite else .nan
  else if exponent = 0 then .finite fraction (-1074) false
  else .finite (Nat.pow 2 52 + fraction) ((exponent : Int) - 1075) (fraction == 0 && 1 < exponent)

/-- `n · 2 ^ q` as a numerator over `denominator q`. -/
def numerator (n : Nat) (q : Int) : Nat := n * Nat.pow 2 q.toNat

def denominator (q : Int) : Nat := Nat.pow 2 (-q).toNat

/-- The least `k` with `num / den < 10 ^ k`. -/
def decimalExponent (num den : Nat) : Int :=
  if den ≤ num then ((toString (num / den)).length : Int)
  else 1 - ((toString (den / num)).length : Int)

/-- An interval of rationals over one denominator, with its ends or without. -/
structure Interval where
  low : Nat
  value : Nat
  high : Nat
  den : Nat
  closed : Bool

/-- The reals that round to `m · 2 ^ q`, in quarters of its last place. -/
def Interval.around (m : Nat) (q : Int) (narrowBelow : Bool) : Interval where
  low := numerator (4 * m - if narrowBelow then 1 else 2) (q - 2)
  value := numerator (4 * m) (q - 2)
  high := numerator (4 * m + 2) (q - 2)
  den := denominator (q - 2)
  closed := m % 2 == 0

def Interval.holds (i : Interval) (digits : Nat) (e : Int) : Bool :=
  let n := digits * Nat.pow 10 e.toNat * i.den
  let s := Nat.pow 10 (-e).toNat
  if i.closed then i.low * s ≤ n && n ≤ i.high * s else i.low * s < n && n < i.high * s

/-- The nearest decimal in the interval on the grid of step `10 ^ e`; a tie goes up. -/
def Interval.nearest (i : Interval) (e : Int) : Option Nat :=
  let num := i.value * Nat.pow 10 (-e).toNat
  let den := i.den * Nat.pow 10 e.toNat
  let d := num / den
  let up := den ≤ 2 * (num % den)
  match i.holds d e, i.holds (d + 1) e with
  | true, true => some (if up then d + 1 else d)
  | true, false => some d
  | false, true => some (d + 1)
  | false, false => none

/-- Tries the grids from `n` digits on, as many as `fuel`. -/
def Interval.search (i : Interval) (k : Int) (n : Nat) : Nat → Nat × Int
  | 0 => (0, 0)
  | fuel + 1 =>
    match i.nearest (k - n) with
    | some digits =>
      if digits = Nat.pow 10 n then (1, k) else (digits, k - n)
    | none => i.search k (n + 1) fuel

/-- Digits and exponent of the shortest decimal that reads back; seventeen digits suffice. -/
def shortest (m : Nat) (q : Int) (narrowBelow : Bool) : Nat × Int :=
  let i := Interval.around m q narrowBelow
  i.search (decimalExponent i.value i.den) 1 17

def zeros (n : Nat) : String := String.ofList (List.replicate n '0')

def positional (digits : Nat) (e : Int) : String :=
  let s := toString digits
  if 0 ≤ e then s ++ zeros e.toNat
  else
    let places := (-e).toNat
    if places < s.length then
      String.ofList (s.toList.take (s.length - places)) ++ "." ++
        String.ofList (s.toList.drop (s.length - places))
    else "0." ++ zeros (places - s.length) ++ s

/-- A double in positional notation with the fewest digits. -/
def render (x : Float) : String :=
  let bits := x.toBits.toNat
  let sign := if isNegative bits then "-" else ""
  match magnitude bits with
  | .nan => "NaN"
  | .infinite => sign ++ "inf"
  | .finite 0 _ _ => sign ++ "0"
  | .finite m q narrowBelow =>
    let (digits, e) := shortest m q narrowBelow
    sign ++ positional digits e

end DocPress.Decimal
