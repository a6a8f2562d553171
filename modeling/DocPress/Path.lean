import DocPress.Text.Blank

/-!
# Paths

Paths as they are written, with slashes between their components. Joining keeps both sides as
they stand, except that an absolute right side wins. Repeated slashes and single dots after the
first component say nothing.
-/

namespace DocPress.Path

set_option autoImplicit false

def isAbsolute (path : String) : Bool := path.toList.head? == some '/'

/-- The path `path` seen from `base`. -/
def join (base path : String) : String :=
  if isAbsolute path || base.isEmpty then path
  else if base.toList.getLast? == some '/' then base ++ path
  else base ++ "/" ++ path

/-- Takes slashes, and single dots after slashes, off the end of a reversed path. -/
def trimBack : List Char → List Char
  | '/' :: rest => trimBack rest
  | '.' :: '/' :: rest => trimBack rest
  | cs => cs

/-- The last component, if it is a name and not a dot or two. -/
def fileName? (path : String) : Option String :=
  let last := (trimBack path.toList.reverse).takeWhile (· != '/')
  if last == [] || last == ['.'] || last == ['.', '.'] then none
  else some (String.ofList last.reverse)

/-- What stands before the last component. -/
def parent (path : String) : String :=
  let front := trimBack ((trimBack path.toList.reverse).dropWhile (· != '/'))
  if front.isEmpty && isAbsolute path then "/" else String.ofList front.reverse

/-- A file name cut at its last dot; one at the start does not count. -/
def cutExtension (name : String) : String × Option String :=
  match Text.cut '.' name.toList.reverse with
  | some (_, []) => (name, none)
  | some (after, before) => (String.ofList before.reverse, some (String.ofList after.reverse))
  | none => (name, none)

/-- The file name without its extension. -/
def stem? (path : String) : Option String := (fileName? path).map fun n => (cutExtension n).1

def extension? (path : String) : Option String := (fileName? path).bind fun n => (cutExtension n).2

/-- The parts between slashes, blank ones among them. -/
def segments (path : String) : List String := Text.split '/' path

end DocPress.Path
