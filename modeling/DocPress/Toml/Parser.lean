import DocPress.Toml.Scalar
import DocPress.Toml.Tables

/-!
# Reading TOML

A text is read line by line: a header opens a table, any other line sets a key of the table that
is open. The fuel of each reader is the number of characters it is given.
-/

namespace DocPress.Toml

set_option autoImplicit false

/-- Sets a value under a key with dots. -/
def assign (keys : List String) (v : Toml) (entries : Entries) : Option Entries :=
  match keys.reverse with
  | [] => none
  | name :: path => entries.setDotted name v path.reverse

/-- Passes over blanks, comments and line ends inside brackets. -/
def skipInner (cs : List Char) : Option (List Char) := skipLines (cs.length + 1) cs

mutual

def readValue (depth : Nat) : Nat → List Char → Option (Toml × List Char)
  | 0, _ => none
  | fuel + 1, cs =>
    match cs, depth with
    | '[' :: rest, inner + 1 => readArray inner [] fuel rest
    | '\x7b' :: rest, inner + 1 => readInline inner [] fuel rest
    | '"' :: _, _ => (readString cs).map fun r => (.str r.1, r.2)
    | '\'' :: _, _ => (readString cs).map fun r => (.str r.1, r.2)
    | _, _ => readPlain cs

/-- The items of an array up to its bracket. -/
def readArray (depth : Nat) (seen : List Toml) : Nat → List Char → Option (Toml × List Char)
  | 0, _ => none
  | fuel + 1, cs => do
    match ← skipInner cs with
    | ']' :: rest => return (.arr seen.reverse, rest)
    | cs =>
      let (v, rest) ← readValue depth fuel cs
      match ← skipInner rest with
      | ',' :: rest => readArray depth (v :: seen) fuel rest
      | ']' :: rest => return (.arr (v :: seen).reverse, rest)
      | _ => none

/-- The keys of a table in braces, up to its brace. -/
def readInline (depth : Nat) (entries : List (String × Item)) :
    Nat → List Char → Option (Toml × List Char)
  | 0, _ => none
  | fuel + 1, cs => do
    match ← skipInner cs with
    | '\x7d' :: rest => return (.table (entriesToToml entries), rest)
    | cs =>
      let (keys, rest) ← readKey cs
      match ← skipInner rest with
      | '=' :: rest =>
        let (v, rest) ← readValue depth fuel (← skipInner rest)
        let entries ← assign keys v entries
        match ← skipInner rest with
        | ',' :: rest => readInline depth entries fuel rest
        | '\x7d' :: rest => return (.table (entriesToToml entries), rest)
        | _ => none
      | _ => none

end

/-- A text as far as it is read: its tables, and the path of the one that is open. -/
structure Progress where
  entries : Entries
  current : List String

/-- The names of a header between its brackets. -/
def readHeader (close : List Char) (cs : List Char) : Option (List String × List Char) := do
  let (keys, rest) ← readKey (skipSpaces cs)
  let rest := skipSpaces rest
  if close.isPrefixOf rest then return (keys, rest.drop close.length) else none

/-- Opens the table of a header with `open?`. -/
def enter (open? : String → Entries → Option Entries) (keys : List String) (p : Progress) :
    Option Progress :=
  match keys.reverse with
  | [] => none
  | name :: path => do
    let entries ← p.entries.within (open? name) path.reverse
    return ⟨entries, keys⟩

/-- One header or one key with its value. -/
def readLine (p : Progress) (cs : List Char) : Option (Progress × List Char) :=
  match cs with
  | '[' :: '[' :: rest => do
    let (keys, rest) ← readHeader [']', ']'] rest
    return (← enter Entries.addTable keys p, rest)
  | '[' :: rest => do
    let (keys, rest) ← readHeader [']'] rest
    return (← enter Entries.openTable keys p, rest)
  | _ => do
    let (keys, rest) ← readKey cs
    match skipSpaces rest with
    | '=' :: rest =>
      let (v, rest) ← readValue depthLimit (2 * rest.length + 2) (skipSpaces rest)
      let entries ← p.entries.within (assign keys v) p.current
      return (⟨entries, p.current⟩, rest)
    | _ => none

def readLines : Nat → Progress → List Char → Option Entries
  | 0, _, _ => none
  | fuel + 1, p, cs => do
    match ← skipInner cs with
    | [] => return p.entries
    | cs =>
      let (p, rest) ← readLine p cs
      let rest ← skipComment (skipSpaces rest)
      match lineEnd? rest with
      | some rest => readLines fuel p rest
      | none => if rest.isEmpty then return p.entries else none

/-- The table that a text stands for, if it is TOML. -/
def parse? (s : String) : Option (List (String × Toml)) :=
  let cs := match s.toList with
    | '\uFEFF' :: rest => rest
    | cs => cs
  (readLines (cs.length + 1) ⟨[], []⟩ cs).map entriesToToml

end DocPress.Toml
