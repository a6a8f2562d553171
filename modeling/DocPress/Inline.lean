import DocPress.Document.Footnotes
import DocPress.Markup.NodeAttrs
import DocPress.Svg

/-!
# Running text

The markup of inline nodes. How a reference without a text of its own is worded is left to a
parameter, so that the words of references can in turn be made from inline nodes.
-/

namespace DocPress

set_option autoImplicit false

/-- The words of a reference to an id, from the data of the node that refers. -/
abbrev Wording := NodeData → String → Rendered Markup

namespace Inline

/-- The element of a quoted span, or the markup on both sides of it. -/
inductive Quotes where
  | tag (tag : Tag)
  | around (before after : Markup)

def quotesOf : String → Quotes
  | "monospaced" => .tag .code
  | "emphasis" => .tag .em
  | "strong" => .tag .strong
  | "double" => .around [.charRef 8220] [.charRef 8221]
  | "single" => .around [.charRef 8216] [.charRef 8217]
  | "mark" => .tag .mark
  | "superscript" => .tag .sup
  | "subscript" => .tag .sub
  | "asciimath" => .around [.text "\\$"] [.text "\\$"]
  | "latexmath" => .around [.text "\\("] [.text "\\)"]
  | _ => .around [] []

/-- A quoted span; an id or a role makes an element of one that has none. -/
def quoted (d : NodeData) (content : Markup) : Markup :=
  let attrs := d.idAttrs ++ d.roleAttrs
  match quotesOf (d.variant.getD "") with
  | .tag tag => [.element tag attrs content]
  | .around before after =>
    let inner := before ++ content ++ after
    if attrs.isEmpty then inner else [.element .span attrs inner]

def pathLink (d : NodeData) (path : String) (content : Markup) : Markup :=
  [.element .a (attr .href (d.target.getD path) :: (d.roleAttrs ++ d.linkAttrs)) content]

def refIdOf (d : NodeData) : String :=
  (d.attr? "refid" <|> d.target.map (Text.trimStart '#')).getD ""

def refLink (d : NodeData) (content : Markup) : Markup :=
  [.element .a (attr .href (d.target.getD ("#" ++ refIdOf d)) :: d.roleAttrs) content]

def link (d : NodeData) (content : Markup) : Markup :=
  [.element .a (attr .href (d.target.getD "") ::
    (d.idAttrs ++ d.roleAttrs ++ optAttr .title (d.attr? "title") ++ d.linkAttrs)) content]

def anchorAt (d : NodeData) : Markup := [.element .a d.idAttrs []]

/-- The place of a bibliography entry and its label. -/
def bibAnchor (d : NodeData) : Markup :=
  let label := ((d.attr? "reftext").filter (· ≠ "")).getD (d.id.getD "")
  anchorAt d ++ [.text ("[" ++ label ++ "]")]

/-- The number of a callout, as an icon or in parentheses behind its guard. -/
def callout (s : Scene) (d : NodeData) : Markup :=
  let source := d.source.getD ""
  let number := .text ("(" ++ source ++ ")")
  if s.fontIcons then
    [.element .i [attr .classes "conum", attr .dataValue source] [], .element .b [] [number]]
  else if s.icons then
    [.void .img [attr .src (s.iconUri none ("callouts/" ++ source)), attr .alt source]]
  else
    let label : Html := .element .b [attr .classes "conum"] [number]
    match d.attributes.get? "guard" with
    | some (.list _) => [.text "<!--", label, .text "-->"]
    | some (.text guard) => [.raw guard, label]
    | none => [label]

/-- The link to a footnote: its number as it stands in the attribute of the node. -/
def footnoteLink (attrs : List Attr) (index : String) : Html :=
  .element .a (attrs ++ [attr .classes "footnote",
    .value .href [.escaped "#_footnotedef_", .raw index], attr .title "View footnote."])
    [.raw index]

def footnoteRef (index : String) : Markup :=
  [.element .sup [attr .classes "footnoteref"] [.text "[", footnoteLink [] index, .text "]"]]

/-- The mark of a footnote, which its definition links back to. -/
def footnoteMark (d : NodeData) (index : String) : Markup :=
  [.element .sup (attr .classes "footnote" :: optAttr .id (d.id.map ("_footnote_" ++ ·)))
    [.text "[",
      footnoteLink [.value .id [.escaped "_footnoteref_", .raw index]] index,
      .text "]"]]

def unresolvedFootnote (content : Markup) : Markup :=
  [.element .sup [attr .classes "footnoteref red", attr .title "Unresolved footnote reference."]
    (.text "[" :: (content ++ [.text "]"]))]

def altOf (d : NodeData) : String :=
  (d.attr? "alt").getD (Asset.altOf (d.target.getD ""))

def plainImage (uri alt : String) (dimensions : List Attr) : Markup :=
  [.void .img (attr .src uri :: attr .alt alt :: dimensions)]

/-- An image: inserted or interactive if it is an SVG that asks for it, else referred to. -/
def picture (s : Scene) (d : NodeData) (dimensions : List Attr) : Rendered Markup :=
  let target := d.target.getD ""
  let alt := altOf d
  let altSpan : Markup := [.element .span [attr .classes "alt"] [.text alt]]
  if Svg.isSvg d target && d.hasOption "inline" then do
    match ← Svg.read s d target with
    | some svg => return [.raw svg]
    | none => return altSpan
  else if Svg.isSvg d target && d.hasOption "interactive" then
    let fallback := match d.attr? "fallback" with
      | some fallback => plainImage (s.imageUri fallback) alt dimensions
      | none => altSpan
    return [.element .object
      (attr .type "image/svg+xml" :: attr .data (s.imageUri target) :: dimensions) fallback]
  else return plainImage (s.imageUri target) alt dimensions

def linked (d : NodeData) (image : Markup) : Markup :=
  match d.attr? "link" with
  | some link => [.element .a (attr .classes "image" :: attr .href link :: d.linkAttrs) image]
  | none => image

/-- An icon: a glyph of the icon font, an image, or its name in brackets. -/
def icon (s : Scene) (d : NodeData) (dimensions : List Attr) : Markup :=
  let target := d.target.getD ""
  if s.fontIcons then
    let turn := (d.attr? "flip").map ("fa-flip-" ++ ·) <|>
      (d.attr? "rotate").map ("fa-rotate-" ++ ·)
    let classes := (ClassList.base "fa").push ("fa-" ++ target)
      |>.push? ((d.attr? "size").map ("fa-" ++ ·))
      |>.push? turn
    [.element .i (classes.attrs ++ optAttr .title (d.attr? "title")) []]
  else if s.icons then plainImage (s.iconUri (d.attr? "icon") target) (altOf d) dimensions
  else [.text ("[" ++ altOf d), .charRef 93]

def image (s : Scene) (d : NodeData) : Rendered Markup := do
  let type := d.variant.getD "image"
  let dimensions := optAttr .width (d.attr? "width") ++ optAttr .height (d.attr? "height") ++
    optAttr .title (d.attr? "title")
  let image ← if type = "icon" then pure (icon s d dimensions) else picture s d dimensions
  let classes := (ClassList.base type).push? (d.attr? "float") |>.push? d.role?
  return [.element .span classes.attrs (linked d image)]

/-- Keys of a keyboard, with plus signs between them. -/
def keyboard (d : NodeData) : Markup :=
  let key (name : String) : Html := .element .kbd [] [.text name]
  match d.attrList "keys" with
  | [] => [.element .span [attr .classes "keyseq"] [key ""]]
  | [name] => [key name]
  | names => [.element .span [attr .classes "keyseq"] ((names.map key).intersperse (.text "+"))]

/-- The mark between a menu and what is chosen from it. -/
def caret (s : Scene) : Markup :=
  .charRef 160 :: (if s.fontIcons then .element .i [attr .classes "fa fa-angle-right caret"] []
    else .element .b [attr .classes "caret"] [.charRef 8250]) :: [.text " "]

/-- A choice from a menu, through its submenus. -/
def menu (s : Scene) (d : NodeData) : Markup :=
  let part (cls name : String) : Markup := [.element .b [attr .classes cls] [.text name]]
  let menu := (d.attr? "menu").getD ""
  let item := d.attr? "menuitem"
  let sequence (parts : List Markup) : Markup :=
    [.element .span [attr .classes "menuseq"] ((caret s).intercalate parts)]
  match d.attrList "submenus", item with
  | [], some item => sequence [part "menu" menu, part "menuitem" item]
  | [], none => part "menuref" menu
  | submenus, item =>
    sequence (part "menu" menu :: (submenus.map (part "submenu") ++
      [part "menuitem" (item.getD "")]))

end Inline

open Inline

mutual

/-- The markup of a node by the rules of the given kind. -/
def inlineAs (s : Scene) (wording : Wording) (kind : Kind) : Node → Rendered Markup
  | ⟨d, _, text, _, _, _, _⟩ =>
    match kind with
    | .text => pure [.text (d.source.getD "")]
    | .inlineQuoted => do return quoted d (← inlineContent s wording d text)
    | .inlineAnchor =>
      match d.variant with
      | some "xref" =>
        match d.attr? "path" with
        | some path => do return pathLink d path (← inlineOr s wording text (pure [.text path]))
        | none => do return refLink d (← inlineOr s wording text (wording d (refIdOf d)))
      | some "ref" => pure (anchorAt d)
      | some "link" => do
        return link d (← inlineOr s wording text (pure [.text (d.target.getD "")]))
      | some "bibref" => pure (bibAnchor d)
      | some other => .warn (.unknownAnchor other) []
      | none => .warn (.unknownAnchor "none") []
    | .inlineBreak => do return (← inlineContent s wording d text) ++ [.void .br []]
    | .inlineButton => do
      return [.element .b [attr .classes "button"] (← inlineContent s wording d text)]
    | .inlineCallout => pure (callout s d)
    | .inlineFootnote =>
      match d.attr? indexName, d.variant == some "xref" with
      | some index, true => pure (footnoteRef index)
      | some index, false => pure (footnoteMark d index)
      | none, true => do return unresolvedFootnote (← inlineContent s wording d text)
      | none, false => pure []
    | .inlineImage => image s d
    | .inlineIndexterm =>
      if d.variant = some "visible" then inlineContent s wording d text else pure []
    | .inlineKbd => pure (keyboard d)
    | .inlineMenu => pure (menu s d)
    | kind => .warn (.blockInText kind) []

def inlines (s : Scene) (wording : Wording) : List Node → Rendered Markup
  | [] => pure []
  | n :: ns => do
    let first ← inlineAs s wording n.data.kind n
    let rest ← inlines s wording ns
    return first ++ rest

/-- The text of a node, else its source. -/
def inlineContent (s : Scene) (wording : Wording) (d : NodeData) :
    Option (List Node) → Rendered Markup
  | some ns => inlines s wording ns
  | none => pure [.text (d.source.getD "")]

/-- The text of a node if there is something in it, else the given markup. -/
def inlineOr (s : Scene) (wording : Wording) :
    Option (List Node) → Rendered Markup → Rendered Markup
  | some (n :: ns), _ => inlines s wording (n :: ns)
  | some [], other => other
  | none, other => other

end

end DocPress
