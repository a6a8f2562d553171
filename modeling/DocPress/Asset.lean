import DocPress.Path

/-!
# Asset addresses

How the address of an image, an icon or a style sheet is put together from a directory and a
target.
-/

namespace DocPress.Asset

set_option autoImplicit false

def isSchemeChar (c : Char) : Bool := c.isAlphanum || c == '+' || c == '.' || c == '-'

/-- The characters before the first `://`. -/
def schemeOf? : List Char → Option (List Char)
  | [] => none
  | c :: rest =>
    if "://".toList.isPrefixOf (c :: rest) then some [] else (schemeOf? rest).map (c :: ·)

/-- Whether the target says by itself where it is: data, or a scheme and two slashes. -/
def isUri (target : String) : Bool :=
  "data:".toList.isPrefixOf target.toList ||
    match schemeOf? target.toList with
    | some scheme => !scheme.isEmpty && scheme.all isSchemeChar
    | none => false

/-- The target in the directory, unless it stands by itself. -/
def join (dir : Option String) (target : String) : String :=
  match dir with
  | some dir =>
    if dir.isEmpty || isUri target || Path.isAbsolute target then target
    else Text.trimEnd '/' dir ++ "/" ++ target
  | none => target

/-- The alternative text of an image without one: its file name, with hyphens as blanks. -/
def altOf (target : String) : String :=
  String.ofList (((Path.stem? target).getD target).toList.map fun c =>
    if c == '-' || c == '_' then ' ' else c)

end DocPress.Asset
