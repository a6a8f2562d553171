import DocPress.Block.Title
import DocPress.Decimal.Reading
import DocPress.Decimal.Shortest

/-!
# Tables

The element of a table: its columns, then its groups of rows. The blocks inside a cell are
rendered by the caller.
-/

namespace DocPress.Block

set_option autoImplicit false

structure RenderedCell where
  cell : Cell Node
  blocks : Rendered Markup

/-- A table whose cells are rendered as far as they hold blocks. -/
structure Grid where
  columns : List Column
  head : List (List RenderedCell)
  body : List (List RenderedCell)
  foot : List (List RenderedCell)

def Grid.rowCount (g : Grid) : Nat := g.head.length + g.body.length + g.foot.length

/-- The width of a table in percent; all of the page unless it is set to a number. -/
def tableWidth (d : NodeData) : Float :=
  match d.attr? "tablepcwidth" <|> (d.attr? "width").map (Text.trimEnd '%') with
  | some w => (Decimal.readFloat? (Text.trim w)).getD 100.0
  | none => 100.0

/-- Whether a width is all of the page, up to the precision of a double. -/
def isFull (width : Float) : Bool := (width - 100.0).abs < 2.220446049250313e-16

def widthStyle (width : Float) : Attr := attr .style ("width: " ++ Decimal.render width ++ "%;")

def tableClasses (s : Scene) (d : NodeData) : ClassList :=
  let frame := (s.nodeAttr? d "frame" "table-frame").getD "all"
  let grid := (s.nodeAttr? d "grid" "table-grid").getD "all"
  (ClassList.base "table").push ("frame-" ++ if frame = "topbot" then "ends" else frame)
    |>.push ("grid-" ++ grid)
    |>.push? ((s.nodeAttr? d "stripes" "table-stripes").map ("stripes-" ++ ·))

/-- The class that says how wide a table is, or the style that does. -/
def tableExtent (d : NodeData) : String × List Attr :=
  if d.hasOption "autowidth" && !d.hasAttr "width" then ("fit-content", [])
  else
    let width := tableWidth d
    if isFull width then ("stretch", []) else ("", [widthStyle width])

def tableAttrs (s : Scene) (d : NodeData) : List Attr :=
  let (extent, style) := tableExtent d
  let classes := (tableClasses s d).push extent |>.push? (d.attr? "float") |>.push? d.role?
  d.idAttrs ++ classes.attrs ++ style

def columnMarkup (autowidth : Bool) (c : Column) : Markup :=
  match c.pcwidth with
  | some width =>
    if autowidth || c.autowidth then [.void .col []] else [.void .col [widthStyle width]]
  | none => [.void .col []]

def groupTag : RowGroup → Tag
  | .head => .thead
  | .body => .tbody
  | .foot => .tfoot

def paragraphTexts (s : Scene) (c : Cell Node) : Rendered (List Markup) :=
  Rendered.sequence (c.paragraphs.map (runningText s))

/-- The paragraphs of a cell, each in the element of its style. -/
def cellParagraphs (s : Scene) (c : Cell Node) (wrap : Markup → Markup) : Rendered Markup := do
  let texts ← paragraphTexts s c
  return .lines (texts.map fun t => [.element .p [attr .classes "table"] (wrap t)])

/-- What a cell shows; a cell of the head shows its paragraphs on one line. -/
def cellContent (s : Scene) (head : Bool) (c : RenderedCell) : Rendered Markup :=
  if head then do
    let texts ← paragraphTexts s c.cell
    return ([.text " "] : Markup).intercalate texts
  else
    match c.cell.style with
    | .asciidoc => do return [.element .div [attr .classes "content"] (← c.blocks)]
    | .literal => do
      let text ← match c.cell.source with
        | some source => pure [Html.text source]
        | none => do pure (Markup.lines (← paragraphTexts s c.cell))
      return [.element .div [attr .classes "literal"] [.element .pre [] text]]
    | .emphasis => cellParagraphs s c.cell fun t => [.element .em [] t]
    | .strong => cellParagraphs s c.cell fun t => [.element .strong [] t]
    | .monospaced => cellParagraphs s c.cell fun t => [.element .code [] t]
    | .default => cellParagraphs s c.cell fun t => t
    | .header => cellParagraphs s c.cell fun t => t

/-- A cell: its alignment, the columns and rows it spans, and the colour of all cells. -/
def cellElement (s : Scene) (head : Bool) (c : RenderedCell) : Rendered Markup := do
  let content ← cellContent s head c
  let tag : Tag := if head || c.cell.style = .header then .th else .td
  let span (name : AttrName) (n : Option UInt32) : List Attr :=
    optAttr name (n.map fun n => toString n.toNat)
  let background := (s.attr? "cellbgcolor").map fun color => "background-color: " ++ color ++ ";"
  let classes := "table halign-" ++ c.cell.halign.name ++ " valign-" ++ c.cell.valign.name
  return [.element tag
    (attr .classes classes :: (span .colspan c.cell.colspan ++ span .rowspan c.cell.rowspan ++
      optAttr .style background)) content]

def rowElement (s : Scene) (head : Bool) (row : List RenderedCell) : Rendered Markup := do
  let cells ← Rendered.sequence (row.map (cellElement s head))
  return .stack .tr [] cells

def groupElement (s : Scene) (group : RowGroup) (rows : List (List RenderedCell)) :
    Rendered (List Markup) :=
  if rows.isEmpty then pure []
  else do
    let rows ← Rendered.sequence (rows.map (rowElement s (group == .head)))
    return [.stack (groupTag group) [] rows]

/-- The columns and the groups of a table that has rows. -/
def gridLines (s : Scene) (d : NodeData) (g : Grid) : Rendered (List Markup) :=
  if g.rowCount = 0 then pure []
  else do
    let columns := g.columns.map (columnMarkup (d.hasOption "autowidth"))
    let head ← groupElement s .head g.head
    let body ← groupElement s .body g.body
    let foot ← groupElement s .foot g.foot
    return .stack .colgroup [] columns :: (head ++ body ++ foot)

def table (s : Scene) (n : Node) (grid : Option Grid) : Rendered Markup := do
  let caption ← if n.hasTitle then do
      pure [[Html.element .caption titleClass (← captionedTitle s n)]]
    else pure []
  let lines ← match grid with
    | some g => gridLines s n.data g
    | none => pure []
  return .stack .table (tableAttrs s n.data) (caption ++ lines)

end DocPress.Block
