import DocPress.Reference

/-!
# Titles and content of blocks

The parts that many blocks share.
-/

namespace DocPress

set_option autoImplicit false

def Html.lineEnd : Html := .text "\n"

/-- An element whose parts stand on lines of their own. -/
def Markup.stack (tag : Tag) (attrs : List Attr) (parts : List Markup) : Markup :=
  [.element tag attrs (.lineEnd :: parts.flatMap (· ++ [.lineEnd]))]

def Markup.when (present : Bool) (part : Markup) : List Markup := if present then [part] else []

namespace Block

def titleClass : List Attr := [attr .classes "title"]

def title (s : Scene) (n : Node) : Rendered Markup := runningText s (n.title.getD [])

def captionedTitle (s : Scene) (n : Node) : Rendered Markup := do
  let title ← title s n
  return match n.caption with
    | some caption => .text caption :: title
    | none => title

/-- The title on a line of its own, if there is something in it. -/
def titleLine (s : Scene) (n : Node) (captioned : Bool) : Rendered (List Markup) :=
  if n.hasTitle then do
    let title ← if captioned then captionedTitle s n else title s n
    return [[.element .div titleClass title]]
  else pure []

/-- The text of a block that keeps its line ends, else its source. -/
def verbatim (s : Scene) (n : Node) : Rendered Markup :=
  match n.text, n.source with
  | some text, _ => runningText s text
  | none, some source => pure [.text source]
  | none, none => pure []

def contentBox (parts : List Markup) : Markup := .stack .div [attr .classes "content"] parts

end Block

end DocPress
