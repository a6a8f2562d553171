import DocPress.Decimal.Reading
import DocPress.Json.Parser

/-!
# Numbers of TOML

The spellings of numbers, and which numbers can be held. A text may hold a number that is too
large as long as nobody looks at it, so reading it and holding it are two questions.
-/

namespace DocPress.Toml

set_option autoImplicit false

inductive Number where
  /-- A whole number; a base without digits stands for none. -/
  | whole (value : Option Int)
  | decimal (value : Float)
  /-- The words for infinity and not a number. -/
  | word

namespace Number

/-- Whether digits are grouped rightly: an underscore stands between two of them. -/
def isDigits (isDigit : Char → Bool) : List Char → Bool
  | [] => false
  | [c] => isDigit c
  | c :: '_' :: rest => isDigit c && isDigits isDigit rest
  | c :: rest => isDigit c && isDigits isDigit rest

def withoutGroups (cs : List Char) : List Char := cs.filter (· != '_')

/-- The number that digits of a base stand for. -/
def natIn (base : Nat) (cs : List Char) : Nat :=
  (withoutGroups cs).foldl (fun n c => base * n + (Json.hexValue? c).getD 0) 0

/-- Whether the characters are a whole number without a sign and without leading zeros. -/
def isWhole (cs : List Char) : Bool :=
  cs == ['0'] || (cs.head? != some '0' && isDigits Char.isDigit cs)

def isMark (c : Char) : Bool := c == '.' || c == 'e' || c == 'E'

def dropSign : List Char → List Char
  | '+' :: rest => rest
  | '-' :: rest => rest
  | cs => cs

def isExponent (cs : List Char) : Bool := isDigits Char.isDigit (dropSign cs)

/-- Whether the characters are a number with a point or an exponent, without a sign. -/
def isDecimal (cs : List Char) : Bool :=
  let whole := cs.takeWhile fun c => !isMark c
  isWhole whole &&
    match cs.drop whole.length with
    | '.' :: rest =>
      let places := rest.takeWhile fun c => !isMark c
      isDigits Char.isDigit places &&
        match rest.drop places.length with
        | [] => true
        | '.' :: _ => false
        | _ :: exponent => isExponent exponent
    | _ :: exponent => isExponent exponent
    | [] => false

/-- A number whose digits follow the sign of their base. -/
def readBased? (base : Nat) (isDigit : Char → Bool) (cs : List Char) : Option Number :=
  if cs.isEmpty then some (.whole none)
  else if isDigits isDigit cs then some (.whole (some (natIn base cs)))
  else none

/-- A number without a base, with its sign if it has one. -/
def readPlain? (cs : List Char) : Option Number :=
  let body := dropSign cs
  if isWhole body then
    let n : Int := natIn 10 body
    some (.whole (some (if cs.head? = some '-' then -n else n)))
  else if isDecimal body then
    (Decimal.readFloat? (String.ofList (withoutGroups cs))).map .decimal
  else if body = "inf".toList ∨ body = "nan".toList then some .word
  else none

def read? : List Char → Option Number
  | '0' :: 'x' :: rest => readBased? 16 (fun c => (Json.hexValue? c).isSome) rest
  | '0' :: 'o' :: rest => readBased? 8 (fun c => '0' ≤ c && c ≤ '7') rest
  | '0' :: 'b' :: rest => readBased? 2 (fun c => c == '0' || c == '1') rest
  | cs => readPlain? cs

/-- Whether a value can hold the number: whole numbers have 128 bits, with a sign or without,
and others are doubles. -/
def isHeld : Number → Bool
  | .whole (some n) => -Int.pow 2 127 ≤ n && n < Int.pow 2 128
  | .whole none => false
  | .decimal x => !x.isInf
  | .word => true

end Number

end DocPress.Toml
