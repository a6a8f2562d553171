import DocPress.Block.Grid
import DocPress.Block.Lists
import DocPress.Block.Media
import DocPress.Block.Prose
import DocPress.Block.Verbatim

/-!
# Blocks

The markup of block nodes, by recursion on the tree. Blocks side by side stand on lines of their
own, whatever the one before them was.
-/

namespace DocPress

set_option autoImplicit false

def NodeData.asParent (d : NodeData) : Parent := ⟨d.kind, d.level⟩

open Block

mutual

/-- The markup of a node by the rules of the given kind. -/
def blockAs (s : Scene) (kind : Kind) (parent : Option Parent) : Node → Rendered Markup
  | ⟨d, title, text, items, entries, blocks, table⟩ =>
    let n : Node := ⟨d, title, text, items, entries, blocks, table⟩
    match kind with
    | .document => content s d text blocks
    | .preamble => content s d text blocks
    | .section => Block.sectionBlock s n (content s d text blocks)
    | .paragraph => Block.paragraph s n (content s d text blocks)
    | .admonition => Block.admonition s n (content s d text blocks)
    | .audio => Block.audio s n
    | .colist => Block.calloutList s n (itemsOf s items)
    | .dlist => Block.descriptionList s n (groupsOf s entries)
    | .exampleBlock => Block.exampleBlock s n (content s d text blocks)
    | .floatingTitle => Block.floatingTitle s n
    | .image => Block.image s n
    | .listing => Block.listing s n
    | .literal => Block.literalBlock s n
    | .stem => Block.stem s n
    | .olist => Block.orderedList s n (itemsOf s items)
    | .openBlock => Block.openBlock s n parent (content s d text blocks)
    | .pageBreak => pure [.element .div [attr .style "page-break-after: always;"] []]
    | .pass =>
      match d.source, blocks with
      | some source, [] => pure [.raw source]
      | _, blocks => content s d text blocks
    | .quote => Block.quote s n (content s d text blocks)
    | .sidebar => Block.sidebar s n (content s d text blocks)
    | .table => Block.table s n (gridOf s d.asParent table)
    | .thematicBreak => pure [.void .hr []]
    | .ulist => Block.unorderedList s n (itemsOf s items)
    | .verse => Block.verse s n
    | .video => Block.video s n
    | .listItem => do return .lines (← Item.body s ⟨d, text, blocksOf? s d.asParent blocks⟩)
    | kind => .warn (.inlineAmongBlocks kind) []

def siblings (s : Scene) (parent : Option Parent) : List Node → Rendered (List Markup)
  | [] => pure []
  | n :: ns => do
    let first ← blockAs s n.data.kind parent n
    let rest ← siblings s parent ns
    return first :: rest

/-- The blocks of a node, else its text, else its source. -/
def content (s : Scene) (d : NodeData) (text : Option (List Node)) : List Node → Rendered Markup
  | [] => inlineContent s (Reference.wording s) d text
  | b :: bs => do
    let first ← blockAs s b.data.kind (some d.asParent) b
    let rest ← siblings s (some d.asParent) bs
    return .lines (first :: rest)

def blocksOf? (s : Scene) (parent : Parent) : List Node → Option (Rendered Markup)
  | [] => none
  | b :: bs => some do
    let first ← blockAs s b.data.kind (some parent) b
    let rest ← siblings s (some parent) bs
    return .lines (first :: rest)

def itemsOf (s : Scene) : List Node → List Item
  | [] => []
  | ⟨d, _, text, _, _, blocks, _⟩ :: rest =>
    ⟨d, text, blocksOf? s d.asParent blocks⟩ :: itemsOf s rest

def groupsOf (s : Scene) : List (Entry Node) → List Group
  | [] => []
  | ⟨terms, none⟩ :: rest => ⟨terms, none⟩ :: groupsOf s rest
  | ⟨terms, some ⟨d, _, text, _, _, blocks, _⟩⟩ :: rest =>
    ⟨terms, some ⟨d, text, blocksOf? s d.asParent blocks⟩⟩ :: groupsOf s rest

def gridOf (s : Scene) (parent : Parent) : Option (Table Node) → Option Grid
  | none => none
  | some ⟨columns, head, body, foot⟩ =>
    some ⟨columns, rowsOf s parent head, rowsOf s parent body, rowsOf s parent foot⟩

def rowsOf (s : Scene) (parent : Parent) : List (List (Cell Node)) → List (List RenderedCell)
  | [] => []
  | r :: rs => rowOf s parent r :: rowsOf s parent rs

def rowOf (s : Scene) (parent : Parent) : List (Cell Node) → List RenderedCell
  | [] => []
  | ⟨style, paragraphs, blocks, source, colspan, rowspan, halign, valign⟩ :: cs =>
    let blocksMarkup : Rendered Markup := do return .lines (← siblings s (some parent) blocks)
    ⟨⟨style, paragraphs, blocks, source, colspan, rowspan, halign, valign⟩, blocksMarkup⟩ ::
      rowOf s parent cs

end

def block (s : Scene) (parent : Option Parent) (n : Node) : Rendered Markup :=
  blockAs s n.kind parent n

/-- Blocks below a node, with line ends between them. -/
def blocksIn (s : Scene) (parent : Option Parent) (ns : List Node) : Rendered Markup := do
  return .lines (← siblings s parent ns)

end DocPress
