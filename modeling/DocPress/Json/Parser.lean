import DocPress.Decimal.Reading
import DocPress.Json.Basic

/-!
# Reading JSON

A reader for the JSON grammar. Each step answers the value and the characters after it; the fuel
is the number of characters, and every step uses at least one.
-/

namespace DocPress.Json

set_option autoImplicit false

def isSpace (c : Char) : Bool := c == ' ' || c == '\n' || c == '\t' || c == '\r'

def skipSpace (cs : List Char) : List Char := cs.dropWhile isSpace

def hexValue? (c : Char) : Option Nat :=
  if c.isDigit then some (c.toNat - '0'.toNat)
  else if 'a' ≤ c && c ≤ 'f' then some (c.toNat - 'a'.toNat + 10)
  else if 'A' ≤ c && c ≤ 'F' then some (c.toNat - 'A'.toNat + 10)
  else none

def readHex4 : List Char → Option (Nat × List Char)
  | a :: b :: c :: d :: rest => do
    let a ← hexValue? a
    let b ← hexValue? b
    let c ← hexValue? c
    let d ← hexValue? d
    return (((a * 16 + b) * 16 + c) * 16 + d, rest)
  | _ => none

/-- The character after `\u`; a high surrogate takes the low one after it. -/
def readUnicode (cs : List Char) : Option (Char × List Char) := do
  let (n, rest) ← readHex4 cs
  if 0xD800 ≤ n && n < 0xDC00 then
    match rest with
    | '\\' :: 'u' :: rest =>
      let (m, rest) ← readHex4 rest
      if 0xDC00 ≤ m && m < 0xE000 then
        some (Char.ofNat (0x10000 + (n - 0xD800) * 0x400 + (m - 0xDC00)), rest)
      else none
    | _ => none
  else if 0xDC00 ≤ n && n < 0xE000 then none
  else some (Char.ofNat n, rest)

def simpleEscape? : Char → Option Char
  | '"' => some '"'
  | '\\' => some '\\'
  | '/' => some '/'
  | 'b' => some (Char.ofNat 8)
  | 'f' => some (Char.ofNat 12)
  | 'n' => some '\n'
  | 'r' => some '\r'
  | 't' => some '\t'
  | _ => none

/-- The characters up to the closing quote, in reverse order before `seen`. -/
def readQuoted (seen : List Char) : Nat → List Char → Option (String × List Char)
  | 0, _ => none
  | fuel + 1, cs =>
    match cs with
    | '"' :: rest => some (String.ofList seen.reverse, rest)
    | '\\' :: 'u' :: rest =>
      match readUnicode rest with
      | some (c, rest) => readQuoted (c :: seen) fuel rest
      | none => none
    | '\\' :: c :: rest =>
      match simpleEscape? c with
      | some c => readQuoted (c :: seen) fuel rest
      | none => none
    | c :: rest => if c.toNat < 32 then none else readQuoted (c :: seen) fuel rest
    | [] => none

/-- The double nearest to a number with a point or an exponent; none is beyond the largest. -/
def floatOf (negative : Bool) (whole places : List Char) (e : Int) : Option Float :=
  let x := Decimal.nearest (Decimal.natOfDigits (whole ++ places)) (e - places.length)
  if x.isInf then none else some (if negative then -x else x)

/-- A number: no leading zeros, a digit after a point and in an exponent. -/
def readNumber (cs : List Char) : Option (Json × List Char) :=
  let (negative, cs) := match cs with
    | '-' :: rest => (true, rest)
    | _ => (false, cs)
  let whole := cs.takeWhile Char.isDigit
  let rest := cs.dropWhile Char.isDigit
  if whole.isEmpty || (whole.head? == some '0' && 1 < whole.length) then none
  else
    let point := rest.head? == some '.'
    let tail := if point then rest.tail else rest
    let places := if point then tail.takeWhile Char.isDigit else []
    let rest := if point then tail.dropWhile Char.isDigit else rest
    if point && places.isEmpty then none
    else
      let scientific := rest.head? == some 'e' || rest.head? == some 'E'
      if scientific then
        let (minus, digits) := match rest.tail with
          | '-' :: r => (true, r)
          | '+' :: r => (false, r)
          | r => (false, r)
        let exponent := digits.takeWhile Char.isDigit
        if exponent.isEmpty then none
        else
          let e : Int := Decimal.natOfDigits exponent
          (floatOf negative whole places (if minus then -e else e)).map fun x =>
            (.float x, digits.dropWhile Char.isDigit)
      else if point then (floatOf negative whole places 0).map fun x => (.float x, rest)
      else
        let n := Decimal.natOfDigits whole
        if negative then
          if n = 0 then some (.float (-0.0), rest)
          else if n ≤ Nat.pow 2 63 then some (.int (-n), rest)
          else (floatOf true whole [] 0).map fun x => (.float x, rest)
        else if n < Nat.pow 2 64 then some (.int n, rest)
        else (floatOf false whole [] 0).map fun x => (.float x, rest)

/-- The characters after `word`, if they start with it. -/
def dropWord (word : String) (cs : List Char) : Option (List Char) :=
  if word.toList.isPrefixOf cs then some (cs.drop word.length) else none

/-- Adds a field before others; one of its name that is there already gives way. -/
def addField (name : String) (v : Json) (fields : List (String × Json)) : List (String × Json) :=
  (name, v) :: fields.filter (·.1 != name)

mutual

def readValue : Nat → List Char → Option (Json × List Char)
  | 0, _ => none
  | fuel + 1, cs =>
    match skipSpace cs with
    | '\x7b' :: rest =>
      match skipSpace rest with
      | '\x7d' :: rest => some (.obj [], rest)
      | rest => readFields [] fuel rest
    | '[' :: rest =>
      match skipSpace rest with
      | ']' :: rest => some (.arr [], rest)
      | rest => readItems [] fuel rest
    | '"' :: rest => (readQuoted [] (rest.length + 1) rest).map fun r => (.str r.1, r.2)
    | 't' :: rest => (dropWord "rue" rest).map fun r => (.bool true, r)
    | 'f' :: rest => (dropWord "alse" rest).map fun r => (.bool false, r)
    | 'n' :: rest => (dropWord "ull" rest).map fun r => (.null, r)
    | rest => readNumber rest

def readItems (seen : List Json) : Nat → List Char → Option (Json × List Char)
  | 0, _ => none
  | fuel + 1, cs =>
    match readValue fuel cs with
    | none => none
    | some (v, rest) =>
      match skipSpace rest with
      | ',' :: rest => readItems (v :: seen) fuel rest
      | ']' :: rest => some (.arr (v :: seen).reverse, rest)
      | _ => none

def readFields (seen : List (String × Json)) : Nat → List Char → Option (Json × List Char)
  | 0, _ => none
  | fuel + 1, cs =>
    match skipSpace cs with
    | '"' :: rest =>
      match readQuoted [] (rest.length + 1) rest with
      | none => none
      | some (name, rest) =>
        match skipSpace rest with
        | ':' :: rest =>
          match readValue fuel rest with
          | none => none
          | some (v, rest) =>
            match skipSpace rest with
            | ',' :: rest => readFields (addField name v seen) fuel rest
            | '\x7d' :: rest => some (.obj (addField name v seen).reverse, rest)
            | _ => none
        | _ => none
    | _ => none

end

def parse? (s : String) : Option Json :=
  let cs := s.toList
  match readValue (2 * cs.length + 2) cs with
  | some (v, rest) => if (skipSpace rest).isEmpty then some v else none
  | none => none

end DocPress.Json
