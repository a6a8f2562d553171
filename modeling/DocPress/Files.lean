import DocPress.Path

/-!
# Files

A tree of files below a directory of known location, with a current directory in it. Nothing is
known of what lies outside, so nothing is found there.
-/

namespace DocPress

set_option autoImplicit false

/-- A file of text, a file that is not text in UTF-8, or a directory. -/
inductive FileTree where
  | text (content : String)
  | binary
  | directory (entries : List (String × FileTree))

namespace FileTree

def entries : FileTree → List (String × FileTree)
  | .directory entries => entries
  | _ => []

def setEntry (name : String) (tree : FileTree) (entries : List (String × FileTree)) :
    List (String × FileTree) :=
  (name, tree) :: entries.filter (·.1 != name)

/-- Changes what stands at the given names; directories on the way are made. -/
def change (tree : FileTree) (f : FileTree → FileTree) : List String → FileTree
  | [] => f tree
  | name :: rest =>
    let below := (tree.entries.lookup name).getD (.directory [])
    .directory (setEntry name (below.change f rest) tree.entries)

/-- The tree with something put in place of what stands at the given names. -/
def put (tree : FileTree) (names : List String) (content : FileTree) : FileTree :=
  tree.change (fun _ => content) names

/-- The tree with a directory at the given names; one that is there is kept. -/
def makeDirectory (tree : FileTree) (names : List String) : FileTree :=
  tree.change (fun t => .directory t.entries) names

end FileTree

inductive FileError where
  | notFound | isDirectory | notDirectory | invalidText
  deriving DecidableEq, Repr

def FileError.message : FileError → String
  | .notFound => "No such file or directory (os error 2)"
  | .isDirectory => "Is a directory (os error 21)"
  | .notDirectory => "Not a directory (os error 20)"
  | .invalidText => "stream did not contain valid UTF-8"

structure Files where
  location : String
  root : FileTree
  current : List String

namespace Files

def blank : Files := ⟨"/", .directory [], []⟩

/-- Whether a segment names no step of its own. -/
def isIdle (segment : String) : Bool := segment = "" || segment = "."

/-- Follows segments from the innermost of the directories that were entered. -/
def follow : List FileTree → List String → Except FileError FileTree
  | [], [] => .ok (.directory [])
  | [], s :: rest => if isIdle s || s = ".." then follow [] rest else .error .notFound
  | tree :: _, [] => .ok tree
  | .directory entries :: outer, s :: rest =>
    if isIdle s then follow (.directory entries :: outer) rest
    else if s = ".." then follow outer rest
    else
      match entries.lookup s with
      | some tree => follow (tree :: .directory entries :: outer) rest
      | none => .error .notFound
  | _ :: _, _ :: _ => .error .notDirectory

/-- The segments below the root, if the path leads through its location. -/
def belowRoot? (files : Files) (path : String) : Option (List String) :=
  let base := (Path.segments files.location).filter fun s => !isIdle s
  dropLeading base (Path.segments path)
where
  /-- Takes off the given names, with idle segments between them. -/
  dropLeading : List String → List String → Option (List String)
    | [], rest => some rest
    | _ :: _, [] => none
    | b :: base, s :: rest =>
      if isIdle s then dropLeading (b :: base) rest
      else if s = b then dropLeading base rest
      else none

def find (files : Files) (path : String) : Except FileError FileTree :=
  if path.isEmpty then .error .notFound
  else if Path.isAbsolute path then
    match files.belowRoot? path with
    | some rest => follow [files.root] rest
    | none => follow [] (Path.segments path)
  else follow [files.root] (files.current ++ Path.segments path)

def exists? (files : Files) (path : String) : Bool := (files.find path).isOk

def read (files : Files) (path : String) : Except FileError String :=
  match files.find path with
  | .ok (.text content) => .ok content
  | .ok .binary => .error .invalidText
  | .ok (.directory _) => .error .isDirectory
  | .error e => .error e

/-- The location of a directory below the root. -/
def locate (files : Files) (segments : List String) : String :=
  segments.foldl Path.join files.location

/-- The current directory and those around it up to the root, innermost first. -/
def ancestors (files : Files) : List String :=
  (List.range (files.current.length + 1)).reverse.map fun k => files.locate (files.current.take k)

end Files

end DocPress
