import DocPress.Document.Basic
import DocPress.Node.Walk

/-!
# Footnotes

Footnotes are numbered in document order. A footnote of variant `xref` repeats the number of an
earlier one; if there is none it keeps no number and shows the id it asked for.
-/

namespace DocPress

set_option autoImplicit false

/-- The attribute that holds the number of a footnote. -/
def indexName : String := "index"

namespace Node

def isFootnote (n : Node) : Bool := n.kind == .inlineFootnote

def isFootnoteRef (n : Node) : Bool := n.isFootnote && n.variant == some "xref"

def definesFootnote (n : Node) : Bool := n.isFootnote && n.variant != some "xref"

/-- The id a node refers back to: its target, else its own id. -/
def footnoteRefId (n : Node) : Option String := n.target <|> n.id

end Node

def NodeData.withIndex (d : NodeData) (index : Nat) : NodeData :=
  { d with attributes := d.attributes.insert indexName (.text (toString index)) }

def NodeData.withoutIndex (d : NodeData) : NodeData :=
  { d with attributes := d.attributes.erase indexName }

def findFootnote (id : String) (footnotes : List Footnote) : Option Footnote :=
  footnotes.find? fun f => f.id == some id

/-- Gives a node its footnote number, and collects the footnote it makes. -/
def indexFootnote (n : Node) (footnotes : List Footnote) : NodeData × List Footnote :=
  if !n.isFootnote then (n.data, footnotes)
  else if n.variant = some "xref" then
    match n.footnoteRefId.bind (findFootnote · footnotes) with
    | some f => (n.data.withoutIndex.withIndex f.index, footnotes)
    | none => (n.data.withoutIndex, footnotes)
  else
    let index := footnotes.length + 1
    (n.data.withoutIndex.withIndex index, footnotes ++ [⟨index, n.id, n.text.getD []⟩])

/-- A reference that found no footnote shows the id it asked for, unless it has a text. -/
def showUnresolved (n : Node) : Node :=
  if n.isFootnoteRef && !n.hasAttr indexName && !n.hasText then
    match n.footnoteRefId with
    | some id => { n with text := some [.plain id] }
    | none => n
  else n

def indexFootnotes (root : Node) : Node × List Footnote :=
  let (root, footnotes) := root.visit indexFootnote []
  (root.map showUnresolved, footnotes)

end DocPress
