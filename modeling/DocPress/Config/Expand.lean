import DocPress.SortedMap
import DocPress.Text.Blank
import DocPress.Text.Letter

/-!
# Variables in settings

A setting that holds `${` somewhere is expanded: `${NAME}` and `$NAME` stand for a variable,
`${NAME:-default}` for a variable or its default, and `$$` for a dollar sign. Any other setting
stays as it is.
-/

namespace DocPress

set_option autoImplicit false

abbrev Environment := SortedMap String

/-- A stretch of a setting: a character, or a variable with perhaps a default. -/
inductive Segment where
  | char (c : Char)
  | variable (name : String) (default : Option String)
  deriving DecidableEq, Repr

namespace Segment

def isNameChar (c : Char) : Bool := Text.isAlphanumeric c || c == '_'

/-- The part before the first `:-`, and the part behind it. -/
def cutDefault? : List Char → Option (List Char × List Char)
  | [] => none
  | ':' :: '-' :: rest => some ([], rest)
  | c :: rest => (cutDefault? rest).map fun p => (c :: p.1, p.2)

/-- The variable between braces; a default needs a name before it. -/
def ofBody (body : List Char) : Segment :=
  match cutDefault? body with
  | some (c :: name, default) =>
    .variable (String.ofList (c :: name)) (some (String.ofList default))
  | _ => .variable (String.ofList body) none

/-- What a dollar sign begins, from the characters behind it: the segment, and how many of them
belong to it. -/
def afterDollar (rest : List Char) : Segment × Nat :=
  match rest with
  | '\x7b' :: tail =>
    match Text.cut '\x7d' tail with
    | some (body, _) => (ofBody body, body.length + 2)
    | none => (.char '$', 0)
  | '$' :: _ => (.char '$', 1)
  | _ =>
    let name := rest.takeWhile isNameChar
    if name.isEmpty then (.char '$', 0) else (.variable (String.ofList name) none, name.length)

/-- The segments of a setting; `skip` characters belong to the one before. -/
def scan : Nat → List Char → List Segment
  | _, [] => []
  | skip + 1, _ :: rest => scan skip rest
  | 0, c :: rest =>
    if c = '$' then
      let (segment, taken) := afterDollar rest
      segment :: scan taken rest
    else .char c :: scan 0 rest

def expand (env : Environment) : Segment → Except String String
  | .char c => .ok c.toString
  | .variable name default =>
    match env.get? name, default with
    | some value, _ => .ok value
    | none, some default => .ok default
    | none, none => .error name

end Segment

/-- The setting with its variables replaced, or the name of the first that has no value. -/
def expandSetting (env : Environment) (value : String) : Except String String :=
  if Text.contains value "$\x7b" then do
    let parts ← (Segment.scan 0 value.toList).mapM (Segment.expand env)
    return String.join parts
  else .ok value

end DocPress
