import DocPress.Node.Kind
import DocPress.SortedMap

/-!
# Nodes

The tree of a document. A node holds its own data and up to six groups of child nodes: title,
text, items, entries, blocks and table. Which of them mean something depends on its kind; the
others stay empty.
-/

namespace DocPress

set_option autoImplicit false

inductive AttrValue where
  | text (s : String)
  | list (items : List String)
  deriving DecidableEq, Repr

namespace AttrValue

def text? : AttrValue → Option String
  | .text s => some s
  | .list _ => none

/-- The items; a text counts as one item. -/
def toList : AttrValue → List String
  | .text s => [s]
  | .list items => items

end AttrValue

abbrev Attributes := SortedMap AttrValue

def Attributes.text? (a : Attributes) (name : String) : Option String :=
  (a.get? name).bind AttrValue.text?

/-- One term group of a description list. -/
structure Entry (α : Type) where
  terms : List α
  description : Option α

inductive CellStyle where
  | default | asciidoc | literal | header | emphasis | strong | monospaced
  deriving DecidableEq, Repr, Inhabited

inductive HAlign where
  | left | center | right
  deriving DecidableEq, Repr, Inhabited

inductive VAlign where
  | top | middle | bottom
  deriving DecidableEq, Repr, Inhabited

namespace CellStyle

def all : List CellStyle :=
  [.default, .asciidoc, .literal, .header, .emphasis, .strong, .monospaced]

def name : CellStyle → String
  | .default => "default"
  | .asciidoc => "asciidoc"
  | .literal => "literal"
  | .header => "header"
  | .emphasis => "emphasis"
  | .strong => "strong"
  | .monospaced => "monospaced"

def ofName? (name : String) : Option CellStyle := all.find? fun s => s.name == name

theorem ofName?_name (s : CellStyle) : ofName? s.name = some s := by cases s <;> decide

end CellStyle

namespace HAlign

def all : List HAlign := [.left, .center, .right]

def name : HAlign → String
  | .left => "left"
  | .center => "center"
  | .right => "right"

def ofName? (name : String) : Option HAlign := all.find? fun a => a.name == name

theorem ofName?_name (a : HAlign) : ofName? a.name = some a := by cases a <;> decide

end HAlign

namespace VAlign

def all : List VAlign := [.top, .middle, .bottom]

def name : VAlign → String
  | .top => "top"
  | .middle => "middle"
  | .bottom => "bottom"

def ofName? (name : String) : Option VAlign := all.find? fun a => a.name == name

theorem ofName?_name (a : VAlign) : ofName? a.name = some a := by cases a <;> decide

end VAlign

/-- A column: its width in percent of the table, or as wide as its content. -/
structure Column where
  pcwidth : Option Float := none
  autowidth : Bool := false

/-- A table cell: paragraphs of running text, or blocks, or a verbatim source. -/
structure Cell (α : Type) where
  style : CellStyle
  paragraphs : List (List α)
  blocks : List α
  source : Option String
  colspan : Option UInt32
  rowspan : Option UInt32
  halign : HAlign
  valign : VAlign

def Cell.blank (α : Type) : Cell α := ⟨.default, [], [], none, none, none, .left, .top⟩

abbrev Row (α : Type) := List (Cell α)

structure Table (α : Type) where
  columns : List Column
  head : List (List (Cell α))
  body : List (List (Cell α))
  foot : List (List (Cell α))

/-- The three groups of rows, in the order they are written. -/
inductive RowGroup where
  | head | body | foot
  deriving DecidableEq, Repr

def RowGroup.name : RowGroup → String
  | .head => "head"
  | .body => "body"
  | .foot => "foot"

namespace Table

def blank (α : Type) : Table α := ⟨[], [], [], []⟩

variable {α : Type}

def rowCount (t : Table α) : Nat := t.head.length + t.body.length + t.foot.length

def groups (t : Table α) : List (RowGroup × List (Row α)) :=
  [(.head, t.head), (.body, t.body), (.foot, t.foot)]

def cells (t : Table α) : List (Cell α) := (t.head ++ t.body ++ t.foot).flatten

def mapCells (f : Cell α → Cell α) (t : Table α) : Table α :=
  { t with
    head := t.head.map (·.map f)
    body := t.body.map (·.map f)
    foot := t.foot.map (·.map f) }

end Table

/-- What a node holds apart from its child nodes. -/
structure NodeData where
  kind : Kind := .paragraph
  id : Option String := none
  style : Option String := none
  roles : List String := []
  caption : Option String := none
  level : UInt64 := 0
  numbered : Bool := false
  sectnum : Option String := none
  sectname : Option String := none
  variant : Option String := none
  target : Option String := none
  source : Option String := none
  attributes : Attributes := ∅
  options : NameSet := ∅

structure Node where
  data : NodeData
  title : Option (List Node)
  text : Option (List Node)
  items : List Node
  entries : List (Entry Node)
  blocks : List Node
  table : Option (Table Node)

abbrev Inlines := List Node

namespace NodeData

def attr? (d : NodeData) (name : String) : Option String := d.attributes.text? name

def hasAttr (d : NodeData) (name : String) : Bool := d.attributes.contains name

def attrList (d : NodeData) (name : String) : List String :=
  ((d.attributes.get? name).map AttrValue.toList).getD []

def hasOption (d : NodeData) (name : String) : Bool := d.options.contains name

/-- The roles that are not empty, with single spaces between them. -/
def role? (d : NodeData) : Option String :=
  match d.roles.filter (· ≠ "") with
  | [] => none
  | roles => some (" ".intercalate roles)

end NodeData

namespace Node

def leaf (data : NodeData) : Node := ⟨data, none, none, [], [], [], none⟩

instance : Inhabited Node := ⟨leaf {}⟩

abbrev kind (n : Node) : Kind := n.data.kind
abbrev id (n : Node) : Option String := n.data.id
abbrev style (n : Node) : Option String := n.data.style
abbrev roles (n : Node) : List String := n.data.roles
abbrev caption (n : Node) : Option String := n.data.caption
abbrev level (n : Node) : UInt64 := n.data.level
abbrev numbered (n : Node) : Bool := n.data.numbered
abbrev sectnum (n : Node) : Option String := n.data.sectnum
abbrev sectname (n : Node) : Option String := n.data.sectname
abbrev variant (n : Node) : Option String := n.data.variant
abbrev target (n : Node) : Option String := n.data.target
abbrev source (n : Node) : Option String := n.data.source
abbrev attributes (n : Node) : Attributes := n.data.attributes
abbrev options (n : Node) : NameSet := n.data.options

abbrev attr? (n : Node) (name : String) : Option String := n.data.attr? name
abbrev hasAttr (n : Node) (name : String) : Bool := n.data.hasAttr name
abbrev attrList (n : Node) (name : String) : List String := n.data.attrList name
abbrev hasOption (n : Node) (name : String) : Bool := n.data.hasOption name
abbrev role? (n : Node) : Option String := n.data.role?

def hasTitle (n : Node) : Bool := n.title.any (!·.isEmpty)

def hasText (n : Node) : Bool := n.text.any (!·.isEmpty)

def isInline (n : Node) : Bool := n.kind.isInline

end Node

def Node.ofKind (kind : Kind) : Node := .leaf { kind := kind }

def Node.plain (source : String) : Node := .leaf { kind := .text, source := some source }

def Node.paragraph (source : String) : Node :=
  { Node.leaf {} with text := some [.plain source] }

namespace Node

mutual

/-- The literal text of a node, without markup. -/
def plainText : Node → String
  | ⟨data, _, text, _, _, _, _⟩ =>
    (if data.kind = .text then data.source.getD "" else "") ++ plainTextOf? text

def plainTextOf : List Node → String
  | [] => ""
  | n :: ns => plainText n ++ plainTextOf ns

def plainTextOf? : Option (List Node) → String
  | none => ""
  | some ns => plainTextOf ns

end

end Node

end DocPress
