import DocPress.Markup.Basic

/-!
# Code tags

The attributes of the `pre` and `code` elements around a highlighted listing. A name that is set
again keeps its place, and the language is written last.
-/

namespace DocPress

set_option autoImplicit false

/-- Attribute values by name, in the order the names were first set. -/
abbrev AttrList := List (String × String)

/-- Sets a value, at the place of the name if it is there and at the end if not. -/
def AttrList.set (name value : String) : AttrList → AttrList
  | [] => [(name, value)]
  | (k, v) :: rest =>
    if k = name then (k, value) :: rest else (k, v) :: AttrList.set name value rest

structure CodeTags where
  pre : AttrList
  code : AttrList

namespace CodeTags

def setPre (tags : CodeTags) (name value : String) : CodeTags :=
  { tags with pre := tags.pre.set name value }

def setCode (tags : CodeTags) (name value : String) : CodeTags :=
  { tags with code := tags.code.set name value }

/-- The name that holds the language of a listing. -/
def langName : String := "data-lang"

/-- The tags of a listing before a highlighter adds its own. -/
def new (preClass : String) (lang : Option String) (nowrap : Bool) : CodeTags :=
  let tags : CodeTags :=
    ⟨[("class", preClass ++ " highlight" ++ if nowrap then " nowrap" else "")], []⟩
  match lang with
  | some lang => tags.setCode langName lang
  | none => tags

/-- The list with the first entry for the language moved to the end. -/
def langLast (code : AttrList) : AttrList :=
  match code.find? (·.1 == langName) with
  | some entry => code.eraseP (·.1 == langName) ++ [entry]
  | none => code

def attrsOf (list : AttrList) : List Attr := list.map fun e => attr (.custom e.1) e.2

def wrap (tags : CodeTags) (content : Markup) : Markup :=
  [.element .pre (attrsOf tags.pre) [.element .code (attrsOf (langLast tags.code)) content]]

end CodeTags

end DocPress
