import DocPress.Node.Basic

/-!
# Building nodes

Nodes and cells are built by setting one part after another. A part that can be there once is
replaced; roles, blocks, items and entries are added behind earlier ones.
-/

namespace DocPress

set_option autoImplicit false

namespace Node

def withId (n : Node) (id : String) : Node := { n with data.id := some id }

def withStyle (n : Node) (style : String) : Node := { n with data.style := some style }

def withRole (n : Node) (role : String) : Node := { n with data.roles := n.roles ++ [role] }

def withTitle (n : Node) (title : Inlines) : Node := { n with title := some title }

def withPlainTitle (n : Node) (title : String) : Node := n.withTitle [.plain title]

def withCaption (n : Node) (caption : String) : Node := { n with data.caption := some caption }

def withLevel (n : Node) (level : UInt64) : Node := { n with data.level := level }

def withNumber (n : Node) : Node := { n with data.numbered := true }

def withSectname (n : Node) (name : String) : Node := { n with data.sectname := some name }

def withVariant (n : Node) (variant : String) : Node := { n with data.variant := some variant }

def withTarget (n : Node) (target : String) : Node := { n with data.target := some target }

def withText (n : Node) (text : Inlines) : Node := { n with text := some text }

def withPlainText (n : Node) (text : String) : Node := n.withText [.plain text]

def withSource (n : Node) (source : String) : Node := { n with data.source := some source }

def withBlocks (n : Node) (blocks : List Node) : Node := { n with blocks := n.blocks ++ blocks }

def withBlock (n : Node) (block : Node) : Node := n.withBlocks [block]

def withItem (n : Node) (item : Node) : Node := { n with items := n.items ++ [item] }

def withEntry (n : Node) (entry : Entry Node) : Node := { n with entries := n.entries ++ [entry] }

def withTable (n : Node) (table : Table Node) : Node := { n with table := some table }

def withAttr (n : Node) (name : String) (value : AttrValue) : Node :=
  { n with data.attributes := n.attributes.insert name value }

def withOption (n : Node) (name : String) : Node :=
  { n with data.options := n.options.insert name () }

end Node

def Column.ofWidth (pcwidth : Float) : Column := ⟨some pcwidth, false⟩

def Column.auto : Column := ⟨none, true⟩

namespace Cell

def plain (source : String) : Cell Node := { Cell.blank Node with paragraphs := [[.plain source]] }

variable {α : Type}

def withStyle (c : Cell α) (style : CellStyle) : Cell α := { c with style := style }

def withParagraph (c : Cell α) (paragraph : List α) : Cell α :=
  { c with paragraphs := c.paragraphs ++ [paragraph] }

def withColspan (c : Cell α) (n : UInt32) : Cell α := { c with colspan := some n }

def withRowspan (c : Cell α) (n : UInt32) : Cell α := { c with rowspan := some n }

def withAlign (c : Cell α) (halign : HAlign) (valign : VAlign) : Cell α :=
  { c with halign := halign, valign := valign }

end Cell

end DocPress
