import DocPress.Text.Escape

/-!
# Markup

HTML as a tree. Text and attribute values are escaped where the tree is written, in one place;
what stands in it unescaped is marked `raw`. Tags and attribute names are closed types, so a
page cannot hold a tag that is not listed here.
-/

namespace DocPress

set_option autoImplicit false

/-- Elements with content and an end tag. -/
inductive Tag where
  | a | article | audio | b | blockquote | body | caption | cite | code | colgroup | dd | details
  | div | dl | dt | em | footer | head | header | heading (level : UInt64) | html | i | iframe
  | kbd | li | mark | nav | object | ol | p | pre | script | section | span | strong | style | sub
  | summary | sup | table | tbody | td | tfoot | th | thead | title | tr | ul | video
  deriving DecidableEq, Repr

def Tag.name : Tag → String
  | .a => "a"
  | .article => "article"
  | .audio => "audio"
  | .b => "b"
  | .blockquote => "blockquote"
  | .body => "body"
  | .caption => "caption"
  | .cite => "cite"
  | .code => "code"
  | .colgroup => "colgroup"
  | .dd => "dd"
  | .details => "details"
  | .div => "div"
  | .dl => "dl"
  | .dt => "dt"
  | .em => "em"
  | .footer => "footer"
  | .head => "head"
  | .header => "header"
  | .heading level => "h" ++ toString level.toNat
  | .html => "html"
  | .i => "i"
  | .iframe => "iframe"
  | .kbd => "kbd"
  | .li => "li"
  | .mark => "mark"
  | .nav => "nav"
  | .object => "object"
  | .ol => "ol"
  | .p => "p"
  | .pre => "pre"
  | .script => "script"
  | .section => "section"
  | .span => "span"
  | .strong => "strong"
  | .style => "style"
  | .sub => "sub"
  | .summary => "summary"
  | .sup => "sup"
  | .table => "table"
  | .tbody => "tbody"
  | .td => "td"
  | .tfoot => "tfoot"
  | .th => "th"
  | .thead => "thead"
  | .title => "title"
  | .tr => "tr"
  | .ul => "ul"
  | .video => "video"

/-- Elements without content and without an end tag. -/
inductive VoidTag where
  | br | col | hr | img | input | link | metadata
  deriving DecidableEq, Repr

def VoidTag.name : VoidTag → String
  | .br => "br"
  | .col => "col"
  | .hr => "hr"
  | .img => "img"
  | .input => "input"
  | .link => "link"
  | .metadata => "meta"

/-- The attribute names of the templates, and names given by the caller. -/
inductive AttrName where
  | allowfullscreen | alt | autoplay | charset | checked | classes | colspan | content | controls
  | crossorigin | data | dataId | dataItemComplete | dataLang | dataNoescape | dataTrim | dataValue
  | defer | frameborder | height | href | id | integrity | lang | loop | muted | named | onload
  | opened | poster | preload | property | rel | reversed | rowspan | src | start | style | target
  | title | type | width
  | custom (spelling : String)
  deriving DecidableEq, Repr

def AttrName.spelling : AttrName → String
  | .allowfullscreen => "allowfullscreen"
  | .alt => "alt"
  | .autoplay => "autoplay"
  | .charset => "charset"
  | .checked => "checked"
  | .classes => "class"
  | .colspan => "colspan"
  | .content => "content"
  | .controls => "controls"
  | .crossorigin => "crossorigin"
  | .data => "data"
  | .dataId => "data-id"
  | .dataItemComplete => "data-item-complete"
  | .dataLang => "data-lang"
  | .dataNoescape => "data-noescape"
  | .dataTrim => "data-trim"
  | .dataValue => "data-value"
  | .defer => "defer"
  | .frameborder => "frameborder"
  | .height => "height"
  | .href => "href"
  | .id => "id"
  | .integrity => "integrity"
  | .lang => "lang"
  | .loop => "loop"
  | .muted => "muted"
  | .named => "name"
  | .onload => "onload"
  | .opened => "open"
  | .poster => "poster"
  | .preload => "preload"
  | .property => "property"
  | .rel => "rel"
  | .reversed => "reversed"
  | .rowspan => "rowspan"
  | .src => "src"
  | .start => "start"
  | .style => "style"
  | .target => "target"
  | .title => "title"
  | .type => "type"
  | .width => "width"
  | .custom spelling => spelling

/-- A stretch of an attribute value: escaped when written, or inserted as it is. -/
inductive Piece where
  | escaped (s : String)
  | raw (s : String)
  deriving DecidableEq, Repr

def Piece.chars : Piece → List Char
  | .escaped s => Text.escapedAttribute s.toList
  | .raw s => s.toList

/-- An attribute: a bare name, or a name with a quoted value. -/
inductive Attr where
  | flag (name : AttrName)
  | value (name : AttrName) (pieces : List Piece)
  deriving DecidableEq, Repr

def Attr.chars : Attr → List Char
  | .flag name => ' ' :: name.spelling.toList
  | .value name pieces =>
    ' ' :: (name.spelling.toList ++ '=' :: '"' :: (pieces.flatMap Piece.chars ++ ['"']))

def attr (name : AttrName) (value : String) : Attr := .value name [.escaped value]

def optAttr (name : AttrName) (value : Option String) : List Attr := (value.map (attr name)).toList

def optFlag (name : AttrName) (present : Bool) : List Attr := if present then [.flag name] else []

inductive Html where
  | doctype
  | text (s : String)
  /-- Text in which quotes are escaped too, as in an attribute. -/
  | attrText (s : String)
  | raw (s : String)
  | charRef (code : Nat)
  | void (tag : VoidTag) (attrs : List Attr)
  | element (tag : Tag) (attrs : List Attr) (content : List Html)

abbrev Markup := List Html

def attrChars (attrs : List Attr) : List Char := attrs.flatMap Attr.chars

mutual

def Html.chars : Html → List Char
  | .doctype => "<!DOCTYPE html>".toList
  | .text s => Text.escapedText s.toList
  | .attrText s => Text.escapedAttribute s.toList
  | .raw s => s.toList
  | .charRef code => '&' :: '#' :: ((toString code).toList ++ [';'])
  | .void tag attrs => '<' :: (tag.name.toList ++ (attrChars attrs ++ ['>']))
  | .element tag attrs content =>
    '<' :: (tag.name.toList ++ (attrChars attrs ++ '>' ::
      (charsOf content ++ '<' :: '/' :: (tag.name.toList ++ ['>']))))

def charsOf : List Html → List Char
  | [] => []
  | h :: hs => h.chars ++ charsOf hs

end

namespace Markup

def chars (m : Markup) : List Char := charsOf m

def render (m : Markup) : String := String.ofList m.chars

def isBlank (m : Markup) : Bool := m.chars.isEmpty

def newline : Markup := [.text "\n"]

/-- The parts with line ends between them. -/
def lines (parts : List Markup) : Markup := newline.intercalate parts

end Markup

theorem Html.chars_charRef (code : Nat) :
    (Html.charRef code).chars = '&' :: '#' :: ((toString code).toList ++ [';']) := rfl

theorem Html.chars_void (tag : VoidTag) (attrs : List Attr) :
    (Html.void tag attrs).chars = '<' :: (tag.name.toList ++ (attrChars attrs ++ ['>'])) := rfl

theorem Html.chars_element (tag : Tag) (attrs : List Attr) (content : List Html) :
    (Html.element tag attrs content).chars =
      '<' :: (tag.name.toList ++ (attrChars attrs ++ '>' ::
        (charsOf content ++ '<' :: '/' :: (tag.name.toList ++ ['>'])))) := rfl

theorem charsOf_append (a b : List Html) : charsOf (a ++ b) = charsOf a ++ charsOf b := by
  induction a with
  | nil => rfl
  | cons h hs ih => simp [charsOf, ih]

theorem Markup.render_append (a b : Markup) : Markup.render (a ++ b) = a.render ++ b.render := by
  simp [Markup.render, Markup.chars, charsOf_append]

theorem Markup.render_newline : Markup.render newline = "\n" := by decide

/-- The parts are written with line ends between them. -/
theorem Markup.render_lines (parts : List Markup) :
    render (lines parts) = "\n".intercalate (parts.map render) := by
  induction parts with
  | nil => rfl
  | cons p rest ih =>
    cases rest with
    | nil => simp [lines]
    | cons q rest =>
      rw [lines, List.intercalate_cons_cons, render_append, render_append, render_newline,
        ← lines, ih]
      simp only [List.map_cons, String.intercalate_cons_cons]

end DocPress
