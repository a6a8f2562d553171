import DocPress.Block.Title

/-!
# Lists

Ordered, unordered, callout and description lists. The blocks inside an item are rendered by the
caller; an item puts its text before them.
-/

namespace DocPress.Block

set_option autoImplicit false

structure Item where
  data : NodeData
  text : Option Inlines
  blocks : Option (Rendered Markup)

/-- A term group of a description list, with the blocks of its description rendered. -/
structure Group where
  terms : List Node
  description : Option Item

namespace Item

def textMarkup (s : Scene) (i : Item) : Rendered Markup := runningText s (i.text.getD [])

def blockLines (i : Item) : Rendered (List Markup) :=
  match i.blocks with
  | some blocks => do return [← blocks]
  | none => pure []

/-- The text in a paragraph if there is something in it, then the blocks. -/
def body (s : Scene) (i : Item) : Rendered (List Markup) := do
  let text ← if i.text.any (!·.isEmpty) then do
      pure [[Html.element .p [] (← i.textMarkup s)]]
    else pure []
  return text ++ (← i.blockLines)

def attrs (i : Item) : List Attr := i.data.idAttrs ++ i.data.roleAttrs

/-- The item as an element of a list, a mark before its text. -/
def listElement (s : Scene) (mark : Markup) (i : Item) : Rendered Markup := do
  let text ← i.textMarkup s
  let blocks ← i.blockLines
  return .stack .li i.attrs ([.element .p [] (mark ++ text)] :: blocks)

end Item

def listTitle (s : Scene) (n : Node) : Rendered (List Markup) := titleLine s n false

def listBox (n : Node) (classes : ClassList) (title : List Markup) (list : Markup) : Markup :=
  .stack .div (n.data.idAttrs ++ classes.attrs) (title ++ [list])

/-- How the markers of an ordered list are written. -/
def markerType? : String → Option String
  | "loweralpha" => some "a"
  | "upperalpha" => some "A"
  | "lowerroman" => some "i"
  | "upperroman" => some "I"
  | _ => none

def orderedList (s : Scene) (n : Node) (items : List Item) : Rendered Markup := do
  let classes := (ClassList.base "olist").push? n.style |>.push? n.role?
  let title ← listTitle s n
  let attrs := (ClassList.empty.push? n.style).attrs ++
    optAttr .type (n.style.bind markerType?) ++ optAttr .start (n.attr? "start") ++
    optFlag .reversed (n.hasOption "reversed")
  let items ← Rendered.sequence (items.map (Item.listElement s []))
  return listBox n classes title (.stack .ol attrs items)

/-- The marks of a checklist for items that are done and items that are not. -/
def checkMarks (s : Scene) (n : Node) : Markup × Markup :=
  if n.hasOption "interactive" then
    ([.void .input [attr .type "checkbox", attr .dataItemComplete "1", .flag .checked], .text " "],
      [.void .input [attr .type "checkbox", attr .dataItemComplete "0"], .text " "])
  else if s.fontIcons then
    ([.element .i [attr .classes "fa fa-check-square-o"] [], .text " "],
      [.element .i [attr .classes "fa fa-square-o"] [], .text " "])
  else ([.charRef 10003, .text " "], [.charRef 10063, .text " "])

/-- The mark of an item; items without a check box have none. -/
def checkMark (s : Scene) (n : Node) (i : Item) : Markup :=
  if n.hasOption "checklist" && i.data.hasAttr "checkbox" then
    if i.data.hasAttr "checked" then (checkMarks s n).1 else (checkMarks s n).2
  else []

def unorderedList (s : Scene) (n : Node) (items : List Item) : Rendered Markup := do
  let checklist := n.hasOption "checklist"
  let classes := (ClassList.base "ulist").push (if checklist then "checklist" else "")
    |>.push? n.style |>.push? n.role?
  let title ← listTitle s n
  let own := if checklist then ClassList.base "checklist" else ClassList.empty.push? n.style
  let items ← Rendered.sequence (items.map fun i => i.listElement s (checkMark s n i))
  return listBox n classes title (.stack .ul own.attrs items)

/-- The number of a callout in front of its item. -/
def calloutLabel (s : Scene) (number : Nat) : Markup :=
  let number := toString number
  if s.fontIcons then
    [.element .i [attr .classes "conum", attr .dataValue number] [], .element .b [] [.text number]]
  else Inline.plainImage (s.iconUri none ("callouts/" ++ number)) number []

/-- The items of a callout list as rows, numbered from `number` on. -/
def calloutRows (s : Scene) : Nat → List Item → Rendered (List Markup)
  | _, [] => pure []
  | number, i :: rest => do
    let text ← i.textMarkup s
    let blocks ← i.blockLines
    let row : Markup := .stack .tr []
      [[.element .td [] (calloutLabel s number)],
        [.element .td [] (Markup.lines (text :: blocks))]]
    return row :: (← calloutRows s (number + 1) rest)

/-- The items of a callout list as plain items, which carry no id or role. -/
def calloutItem (s : Scene) (i : Item) : Rendered Markup := do
  let text ← i.textMarkup s
  let blocks ← i.blockLines
  return .stack .li [] ([.element .p [] text] :: blocks)

def calloutList (s : Scene) (n : Node) (items : List Item) : Rendered Markup := do
  let classes := (ClassList.base "colist").push? n.style |>.push? n.role?
  let title ← listTitle s n
  let list ← if s.icons then do pure (Markup.stack .table [] (← calloutRows s 1 items))
    else do pure (Markup.stack .ol [] (← Rendered.sequence (items.map (calloutItem s))))
  return listBox n classes title list

def termText (s : Scene) (term : Node) : Rendered Markup := runningText s (term.text.getD [])

def termTexts (s : Scene) (g : Group) : Rendered (List Markup) :=
  Rendered.sequence (g.terms.map (termText s))

def descriptionLines (s : Scene) (g : Group) : Rendered (List Markup) :=
  match g.description with
  | some dd => dd.body s
  | none => pure []

def questionItem (s : Scene) (g : Group) : Rendered Markup := do
  let terms ← termTexts s g
  let answer ← descriptionLines s g
  return .stack .li []
    (terms.map (fun t => [.element .p [] [.element .em [] t]]) ++ answer)

/-- Terms on the left and their description on the right. -/
def horizontalRow (s : Scene) (n : Node) (g : Group) : Rendered Markup := do
  let classes := (ClassList.base "hdlist1").push (if n.hasOption "strong" then "strong" else "")
  let terms ← termTexts s g
  let description ← descriptionLines s g
  return .stack .tr []
    [.stack .td classes.attrs (terms.intersperse [.void .br []]),
      .stack .td [attr .classes "hdlist2"] description]

/-- The widths of the two columns, if either is set. -/
def horizontalColumns (n : Node) : List Markup :=
  let widths := [n.attr? "labelwidth", n.attr? "itemwidth"]
  let column (width : Option String) : Markup := match width with
    | some w => [.void .col [attr .style ("width: " ++ Text.trimEnd '%' w ++ "%;")]]
    | none => [.void .col []]
  Markup.when (widths.any Option.isSome) (.stack .colgroup [] (widths.map column))

/-- Terms and their description one after the other. -/
def termLines (s : Scene) (n : Node) (g : Group) : Rendered (List Markup) := do
  let attrs := if n.style.isNone then [attr .classes "hdlist1"] else []
  let terms ← termTexts s g
  let description ← descriptionLines s g
  return terms.map (fun t => [.element .dt attrs t]) ++
    Markup.when g.description.isSome (.stack .dd [] description)

def descriptionList (s : Scene) (n : Node) (groups : List Group) : Rendered Markup := do
  let title ← listTitle s n
  match n.style with
  | some "qanda" =>
    let items ← Rendered.sequence (groups.map (questionItem s))
    let classes := (ClassList.base "qlist").push "qanda" |>.push? n.role?
    return listBox n classes title (.stack .ol [] items)
  | some "horizontal" =>
    let rows ← Rendered.sequence (groups.map (horizontalRow s n))
    let classes := (ClassList.base "hdlist").push? n.role?
    return listBox n classes title (.stack .table [] (horizontalColumns n ++ rows))
  | style =>
    let lines ← Rendered.sequence (groups.map (termLines s n))
    let classes := (ClassList.base "dlist").push? style |>.push? n.role?
    return listBox n classes title (.stack .dl [] lines.flatten)

end DocPress.Block
