import DocPress.Toml.Basic

/-!
# Scalars of TOML

Readers for blanks, keys, the four kinds of strings, and values that stand without quotes. Each
answers a value and the characters after it.
-/

namespace DocPress.Toml

set_option autoImplicit false

def isSpace (c : Char) : Bool := c == ' ' || c == '\t'

def skipSpaces (cs : List Char) : List Char := cs.dropWhile isSpace

/-- Control characters, which may stand nowhere as themselves but for the tab. -/
def isControl (c : Char) : Bool := (c.toNat < 32 && c != '\t') || c.toNat == 127

/-- The characters after a line end, if there is one. -/
def lineEnd? : List Char → Option (List Char)
  | '\n' :: rest => some rest
  | '\r' :: '\n' :: rest => some rest
  | _ => none

/-- The characters after a comment, if there is one. -/
def skipComment : List Char → Option (List Char)
  | '#' :: rest =>
    let tail := rest.dropWhile fun c => c != '\n' && c != '\r'
    if (rest.take (rest.length - tail.length)).any isControl then none else some tail
  | cs => some cs

/-- Passes over blanks, comments and line ends. -/
def skipLines : Nat → List Char → Option (List Char)
  | 0, _ => none
  | fuel + 1, cs => do
    let cs ← skipComment (skipSpaces cs)
    match lineEnd? cs with
    | some rest => skipLines fuel rest
    | none => some cs

def isBareKeyChar (c : Char) : Bool := c.isAlphanum || c == '_' || c == '-'

/-- `count` hexadecimal digits. -/
def readHex (n : Nat) : Nat → List Char → Option (Nat × List Char)
  | 0, cs => some (n, cs)
  | count + 1, c :: rest => do
    let d ← Json.hexValue? c
    readHex (16 * n + d) count rest
  | _ + 1, [] => none

def charOf? (n : Nat) : Option Char := if h : n.isValidChar then some (Char.ofNatAux n h) else none

def readCodePoint (count : Nat) (cs : List Char) : Option (Char × List Char) := do
  let (n, rest) ← readHex 0 count cs
  let c ← charOf? n
  return (c, rest)

/-- The character that stands behind a backslash. -/
def readEscape : List Char → Option (Char × List Char)
  | 'b' :: rest => some (Char.ofNat 8, rest)
  | 't' :: rest => some ('\t', rest)
  | 'n' :: rest => some ('\n', rest)
  | 'f' :: rest => some (Char.ofNat 12, rest)
  | 'r' :: rest => some ('\r', rest)
  | 'e' :: rest => some (Char.ofNat 27, rest)
  | '"' :: rest => some ('"', rest)
  | '\\' :: rest => some ('\\', rest)
  | 'x' :: rest => readCodePoint 2 rest
  | 'u' :: rest => readCodePoint 4 rest
  | 'U' :: rest => readCodePoint 8 rest
  | _ => none

def textOf (seen : List Char) : String := String.ofList seen.reverse

/-- A string up to its quote. -/
def readBasic (seen : List Char) : Nat → List Char → Option (String × List Char)
  | 0, _ => none
  | _ + 1, [] => none
  | fuel + 1, c :: rest =>
    if c == '"' then some (textOf seen, rest)
    else if c == '\\' then do
      let (c, rest) ← readEscape rest
      readBasic (c :: seen) fuel rest
    else if isControl c then none
    else readBasic (c :: seen) fuel rest

/-- A literal string up to its quote. -/
def readLiteral (seen : List Char) : List Char → Option (String × List Char)
  | [] => none
  | c :: rest =>
    if c == '\'' then some (textOf seen, rest)
    else if isControl c then none
    else readLiteral (c :: seen) rest

/-- The end of a string of several lines: three quotes, with up to two more before them. -/
def closing? (q : Char) (cs : List Char) : Option (Nat × List Char) :=
  let quotes := (cs.takeWhile (· == q)).length
  if quotes < 3 then none
  else if quotes ≤ 5 then some (quotes - 3, cs.drop quotes)
  else some (2, cs.drop 5)

/-- The characters after blanks and line ends. -/
def skipGap : List Char → List Char
  | ' ' :: rest => skipGap rest
  | '\t' :: rest => skipGap rest
  | '\n' :: rest => skipGap rest
  | '\r' :: '\n' :: rest => skipGap rest
  | cs => cs

/-- One character of a string of several lines that stands for itself, or a line end. -/
def readLongChar (seen : List Char) : List Char → Option (List Char × List Char)
  | '\r' :: '\n' :: rest => some ('\n' :: '\r' :: seen, rest)
  | '\n' :: rest => some ('\n' :: seen, rest)
  | c :: rest => if isControl c then none else some (c :: seen, rest)
  | [] => none

/-- A string of several lines; a backslash at the end of a line joins it to the next. -/
def readLongBasic (seen : List Char) : Nat → List Char → Option (String × List Char)
  | 0, _ => none
  | fuel + 1, cs =>
    match closing? '"' cs with
    | some (quotes, rest) => some (textOf (List.replicate quotes '"' ++ seen), rest)
    | none =>
      match cs with
      | '\\' :: rest =>
        match lineEnd? (skipSpaces rest) with
        | some rest => readLongBasic seen fuel (skipGap rest)
        | none => do
          let (c, rest) ← readEscape rest
          readLongBasic (c :: seen) fuel rest
      | cs => do
        let (seen, rest) ← readLongChar seen cs
        readLongBasic seen fuel rest

def readLongLiteral (seen : List Char) : Nat → List Char → Option (String × List Char)
  | 0, _ => none
  | fuel + 1, cs =>
    match closing? '\'' cs with
    | some (quotes, rest) => some (textOf (List.replicate quotes '\'' ++ seen), rest)
    | none => do
      let (seen, rest) ← readLongChar seen cs
      readLongLiteral seen fuel rest

/-- The characters after the line end right behind an opening, if there is one. -/
def dropLineEnd (cs : List Char) : List Char := (lineEnd? cs).getD cs

def readString (cs : List Char) : Option (String × List Char) :=
  let fuel := cs.length + 1
  match cs with
  | '"' :: '"' :: '"' :: rest => readLongBasic [] fuel (dropLineEnd rest)
  | '\'' :: '\'' :: '\'' :: rest => readLongLiteral [] fuel (dropLineEnd rest)
  | '"' :: rest => readBasic [] fuel rest
  | '\'' :: rest => readLiteral [] rest
  | _ => none

/-- A key without dots: bare, or a string on one line. -/
def readSimpleKey (cs : List Char) : Option (String × List Char) :=
  match cs with
  | '"' :: rest => readBasic [] (cs.length + 1) rest
  | '\'' :: rest => readLiteral [] rest
  | _ =>
    let key := cs.takeWhile isBareKeyChar
    if key.isEmpty then none else some (String.ofList key, cs.drop key.length)

/-- Names with dots between them, outermost name first. -/
def readNames : Nat → List Char → Option (List String × List Char)
  | 0, _ => none
  | fuel + 1, cs => do
    let (name, rest) ← readSimpleKey cs
    match skipSpaces rest with
    | '.' :: tail =>
      let (names, rest) ← readNames fuel (skipSpaces tail)
      return (name :: names, rest)
    | _ => return ([name], rest)

/-- How many names a key may have, and how deep brackets may stand in one another. -/
def depthLimit : Nat := 80

def readKey (cs : List Char) : Option (List String × List Char) := do
  let (names, rest) ← readNames (cs.length + 1) cs
  if names.length ≤ depthLimit then return (names, rest) else none

def isPlainChar (c : Char) : Bool :=
  c.isAlphanum || c == '+' || c == '-' || c == '_' || c == '.' || c == ':'

/-- The characters of a value that is not quoted; a date may go on behind one blank. -/
def takePlain (cs : List Char) : List Char × List Char :=
  let word := cs.takeWhile isPlainChar
  let rest := cs.drop word.length
  match rest with
  | ' ' :: c :: tail =>
    if (Date.read? word).isSome && c.isDigit then
      let time := (c :: tail).takeWhile isPlainChar
      (word ++ ' ' :: time, (c :: tail).drop time.length)
    else (word, rest)
  | _ => (word, rest)

/-- The value of a word: a truth value, a number or a date. -/
def ofWord? (word : List Char) : Option Toml :=
  if word = "true".toList then some (.bool true)
  else if word = "false".toList then some (.bool false)
  else (Number.read? word).map .number <|> (Moment.read? word).map .moment

def readPlain (cs : List Char) : Option (Toml × List Char) :=
  let (word, rest) := takePlain cs
  (ofWord? word).map fun v => (v, rest)

end DocPress.Toml
