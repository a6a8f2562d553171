import DocPress.Block.Title
import DocPress.Text.Case
import DocPress.Decimal.Reading

/-!
# Blocks of prose

Sections, paragraphs, admonitions, examples, quotes, sidebars and open blocks. The content of a
block is rendered by the caller.
-/

namespace DocPress

set_option autoImplicit false

/-- What a block knows of the node around it. -/
structure Parent where
  kind : Kind
  level : UInt64

namespace Block

/-- The deepest level of sections whose number is shown. -/
def numberLevels (s : Scene) : UInt64 :=
  match (s.attr? "sectnumlevels").bind (Decimal.readNat? UInt64.size) with
  | some n => UInt64.ofNat n
  | none => 3

/-- The heading of a section: caption or number, and title. -/
def heading (s : Scene) (n : Node) : Rendered Markup :=
  match n.caption, n.sectnum with
  | some _, _ => captionedTitle s n
  | none, some number =>
    if n.numbered && n.level ≤ numberLevels s then do
      return .raw number :: .text " " :: (← title s n)
    else title s n
  | none, none => title s n

/-- The heading with the links that sections are asked to carry. -/
def linkedHeading (s : Scene) (id : Option String) (heading : Markup) : Markup :=
  match id with
  | none => heading
  | some id =>
    let href := attr .href ("#" ++ id)
    let heading : Markup :=
      if s.hasAttr "sectlinks" then [.element .a [attr .classes "link", href] heading] else heading
    let anchor : Markup := [.element .a [attr .classes "anchor", href] []]
    if s.hasAttr "sectanchors" then
      if s.attrIs "sectanchors" "after" then heading ++ anchor else anchor ++ heading
    else heading

def sectionBlock (s : Scene) (n : Node) (content : Rendered Markup) : Rendered Markup := do
  let heading := linkedHeading s n.id (← heading s n)
  let content ← content
  if n.level = 0 then
    let classes := n.data.classAttrs "sect0"
    return .lines [[.element (.heading 1) (n.data.idAttrs ++ classes) heading], content]
  else
    return .stack .section (n.data.classAttrs ("sect" ++ toString n.level.toNat))
      [[.element (.heading (n.level + 1)) n.data.idAttrs heading], content]

def paragraph (s : Scene) (n : Node) (content : Rendered Markup) : Rendered Markup := do
  let content ← content
  if n.hasTitle then
    let title ← title s n
    return .stack .div (n.data.idAttrs ++ n.data.classAttrs "paragraph")
      [[.element .div titleClass title], [.element .p [] content]]
  else return [.element .p (n.data.idAttrs ++ n.data.roleAttrs) content]

/-- The name of an admonition: its attribute, else its style in lower case. -/
def admonitionName (d : NodeData) : String :=
  (d.attr? "name" <|> d.style.map Text.toLower).getD "note"

/-- The label of an admonition: an icon if there are any, else its text. -/
def admonitionLabel (s : Scene) (d : NodeData) : Markup :=
  let name := admonitionName d
  let label := (d.attr? "textlabel").getD (Text.capitalize name)
  if s.icons then
    if s.fontIcons && !d.hasAttr "icon" then
      [.element .i [attr .classes ("fa icon-" ++ name), attr .title label] []]
    else Inline.plainImage (s.iconUri (d.attr? "icon") name) label []
  else [.element .div titleClass [.text label]]

def admonition (s : Scene) (n : Node) (content : Rendered Markup) : Rendered Markup := do
  let title ← titleLine s n false
  let content ← content
  let classes := (ClassList.base "admonition").push (admonitionName n.data) |>.push? n.role?
  return .stack .div (n.data.idAttrs ++ classes.attrs)
    [.stack .table []
      [.stack .tr []
        [.stack .td [attr .classes "icon"] [admonitionLabel s n.data],
          .stack .td [attr .classes "content"] (title ++ [content])]]]

def exampleBlock (s : Scene) (n : Node) (content : Rendered Markup) : Rendered Markup := do
  let content ← content
  if n.hasOption "collapsible" then
    let summary ← if n.hasTitle then title s n else pure [.text "Details"]
    return .stack .details
      (n.data.idAttrs ++ n.data.roleAttrs ++ optFlag .opened (n.hasOption "open"))
      [[.element .summary titleClass summary], contentBox [content]]
  else
    let title ← titleLine s n true
    return .stack .div (n.data.idAttrs ++ n.data.classAttrs "example")
      (title ++ [contentBox [content]])

def floatingTitle (s : Scene) (n : Node) : Rendered Markup := do
  let classes := (ClassList.empty.push? n.style).push? n.role?
  return [.element (.heading (n.level + 1)) (n.data.idAttrs ++ classes.attrs) (← title s n)]

def attribution (d : NodeData) : List Markup :=
  let cite := d.attr? "citetitle"
  let who := d.attr? "attribution"
  let citation : Markup := match cite with
    | some cite => [.element .cite [] [.text cite]]
    | none => []
  match who with
  | some who =>
    let br : Markup := if cite.isSome then [.void .br [], .lineEnd] else []
    [.stack .div [attr .classes "attribution"]
      [.charRef 8212 :: .text (" " ++ who) :: (br ++ citation)]]
  | none => Markup.when cite.isSome (.stack .div [attr .classes "attribution"] [citation])

def quote (s : Scene) (n : Node) (content : Rendered Markup) : Rendered Markup := do
  let title ← titleLine s n false
  let content ← content
  return .stack .div (n.data.idAttrs ++ n.data.classAttrs "quoteblock")
    (title ++ [.stack .blockquote [] [content]] ++ attribution n.data)

def verse (s : Scene) (n : Node) : Rendered Markup := do
  let title ← titleLine s n false
  let content ← verbatim s n
  return .stack .div (n.data.idAttrs ++ n.data.classAttrs "verse")
    (title ++ [[.element .pre [attr .classes "content"] content]] ++ attribution n.data)

def sidebar (s : Scene) (n : Node) (content : Rendered Markup) : Rendered Markup := do
  let title ← titleLine s n false
  let content ← content
  return .stack .div (n.data.idAttrs ++ n.data.classAttrs "sidebar")
    [contentBox (title ++ [content])]

def isBook (s : Scene) : Bool := s.doc.doctype == "book"

def atRoot (parent : Option Parent) : Bool := parent.all fun p => p.kind == .document

def inPart (parent : Option Parent) : Bool := parent.any fun p => p.kind == .section && p.level == 0

/-- An abstract; the root of a book has no place for one. -/
def abstractBlock (s : Scene) (n : Node) (parent : Option Parent) (content : Rendered Markup) :
    Rendered Markup :=
  if atRoot parent && isBook s then .warn .bookAbstract []
  else do
    let title ← titleLine s n false
    let content ← content
    let classes := (ClassList.base "quote").push "abstract" |>.push? n.role?
    return .stack .div (n.data.idAttrs ++ classes.attrs)
      (title ++ [.stack .blockquote [] [content]])

/-- An open block; the introduction of a part stands in a part of a book only. -/
def openBlock (s : Scene) (n : Node) (parent : Option Parent) (content : Rendered Markup) :
    Rendered Markup :=
  if n.style = some "abstract" then abstractBlock s n parent content
  else if n.style = some "partintro" && !(inPart parent && isBook s) then
    .warn .misplacedPartIntro []
  else do
    let title ← titleLine s n false
    let content ← content
    let classes := (ClassList.base "open").push? (n.style.filter (· ≠ "open")) |>.push? n.role?
    return .stack .div (n.data.idAttrs ++ classes.attrs) (title ++ [contentBox [content]])

end Block

end DocPress
