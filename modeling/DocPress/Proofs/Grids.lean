import DocPress.Node.Build
import DocPress.Proofs.FootnoteLinks
import DocPress.Proofs.GridReading
import DocPress.Proofs.IdsBlocks

/-! Tables are faithful to their grids. What a reader takes down of the tags of a table is one mark
for each column, and for each group of rows, each row and each cell in order, whatever the cells
hold. -/

namespace DocPress

set_option autoImplicit false

/-! ### Outlines -/

section

variable {α : Type}

/-- Whether a cell is a heading: in the head of a table, every cell is. -/
def Cell.isHeading (head : Bool) (c : Cell α) : Bool := head || c.style = .header

/-- A cell as it is to be read. -/
def Cell.asRead (head : Bool) (c : Cell α) : CellRead where
  heading := c.isHeading head
  colspan := c.colspan.map UInt32.toNat
  rowspan := c.rowspan.map UInt32.toNat
  halign := some c.halign
  valign := some c.valign

/-- A group of rows as it is to be read; one without rows is left out. -/
def groupOutline (group : RowGroup) (rows : List (Row α)) : List GridMark :=
  if rows.isEmpty then []
  else .group group :: rows.flatMap fun row =>
    .row :: row.map fun c => .cell (c.asRead (group == .head))

/-- A table as it is to be read: its columns, then its groups; nothing if it has no rows. -/
def Table.outline (t : Table α) : List GridMark :=
  if t.rowCount = 0 then []
  else .columns :: (t.columns.map fun _ => .column) ++
    t.groups.flatMap fun g => groupOutline g.1 g.2

end

/-! ### Cells -/

theorem number?_toString {t : TagRead} {name : String} (n : Option UInt32)
    (h : t.value? name = (n.map fun n => toString n.toNat).map String.toList) :
    t.number? name = n.map UInt32.toNat := by
  rw [TagRead.number?, h]
  cases n with
  | none => rfl
  | some n => exact readNumber?_toString n.toNat

/-- The alignments stand among the classes of a cell. -/
theorem classAfter?_alignment {t : TagRead} (halign : HAlign) (valign : VAlign)
    (h : t.value? "class" =
      some ("table halign-" ++ halign.name ++ " valign-" ++ valign.name).toList) :
    t.classAfter? "halign-" = some halign.name ∧ t.classAfter? "valign-" = some valign.name := by
  simp only [TagRead.classAfter?, h, Option.bind_some]
  cases halign <;> cases valign <;> decide

section

variable {α : Type} (c : Cell α)

/-- The attributes of a cell: its alignments, the columns and rows it spans, and its colour. -/
def Cell.attrs (colour : Option String) : List Attr :=
  attr .classes ("table halign-" ++ c.halign.name ++ " valign-" ++ c.valign.name) ::
    (optAttr .colspan (c.colspan.map fun n => toString n.toNat) ++
      optAttr .rowspan (c.rowspan.map fun n => toString n.toNat) ++ optAttr .style colour)

def Cell.tag (head : Bool) : Tag := if c.isHeading head then .th else .td

theorem value?_attrs (tag : Tag) (colour : Option String) :
    (tag.start (c.attrs colour)).value? "class" =
        some ("table halign-" ++ c.halign.name ++ " valign-" ++ c.valign.name).toList ∧
      (tag.start (c.attrs colour)).value? "colspan" =
        (c.colspan.map fun n => toString n.toNat).map String.toList ∧
      (tag.start (c.attrs colour)).value? "rowspan" =
        (c.rowspan.map fun n => toString n.toNat).map String.toList := by
  have hstyle (name : String) (h : name ≠ AttrName.style.spelling) :
      (tag.start (optAttr .style colour)).value? name = none := by
    rw [← List.append_nil (optAttr .style colour), value?_optAttr, if_neg h, value?_nil]
  refine ⟨?_, ?_, ?_⟩
  · rw [Cell.attrs, value?_cons, if_pos (by decide)]
  · rw [Cell.attrs, value?_cons, if_neg (by decide), List.append_assoc, value?_optAttr,
      if_pos (by decide), value?_optAttr, if_neg (by decide), hstyle _ (by decide), Option.or_none]
  · rw [Cell.attrs, value?_cons, if_neg (by decide), List.append_assoc, value?_optAttr,
      if_neg (by decide), value?_optAttr, if_pos (by decide), hstyle _ (by decide), Option.or_none]

/-- A cell is read off its tag and the attributes there. -/
theorem cell?_start (head : Bool) (colour : Option String) :
    ((c.tag head).start (c.attrs colour)).cell? = some (c.asRead head) := by
  obtain ⟨hclass, hcolspan, hrowspan⟩ := value?_attrs c (c.tag head) colour
  obtain ⟨hhalign, hvalign⟩ := classAfter?_alignment c.halign c.valign hclass
  have hname : ((c.tag head).start (c.attrs colour)).name = "th".toList ∧ c.isHeading head = true ∨
      ((c.tag head).start (c.attrs colour)).name = "td".toList ∧ c.isHeading head = false := by
    rw [Cell.tag]
    cases c.isHeading head with
    | true => exact .inl ⟨rfl, rfl⟩
    | false => exact .inr ⟨rfl, rfl⟩
  rw [TagRead.cell?, if_pos (hname.imp And.left And.left), number?_toString c.colspan hcolspan,
    number?_toString c.rowspan hrowspan, hhalign, hvalign, Option.bind_some, Option.bind_some,
    HAlign.ofName?_name, VAlign.ofName?_name, Cell.asRead]
  rcases hname with ⟨hname, hheading⟩ | ⟨hname, hheading⟩
  · rw [hname, hheading]
    rfl
  · rw [hname, hheading]
    rfl

end

namespace Block

variable {s : Scene} (table : List Char)

/-- A cell in a row of a group tells of itself, and of nothing that it holds. -/
theorem gridMarksOf_cellElement {group : List Char} (hgroup : (groupNamed? group).isSome = true)
    (head : Bool) (c : RenderedCell) :
    gridMarksOf ["tr".toList, group, table] (cellElement s head c).value =
      [.cell (c.cell.asRead head)] := by
  have hvalue : (cellElement s head c).value =
      [.element (c.cell.tag head) (c.cell.attrs ((s.attr? "cellbgcolor").map fun colour =>
        "background-color: " ++ colour ++ ";")) (cellContent s head c).value] := rfl
  have hdeep : PassedOver [(c.cell.tag head).name.toList, "tr".toList, group, table] :=
    passedOver_deep (by simp)
  rw [hvalue, gridMarksOf_element, gridMarksOf_passedOver _ hdeep, gridMark?,
    if_pos ⟨hgroup, rfl⟩, cell?_start]
  rfl

/-- A row of a group tells of itself and then of its cells. -/
theorem gridMarksOf_rowElement {group : List Char} (hcolumns : group ≠ "colgroup".toList)
    (hgroup : (groupNamed? group).isSome = true) (head : Bool) (row : List RenderedCell) :
    gridMarksOf [group, table] (rowElement s head row).value =
      .row :: row.map fun c => .cell (c.cell.asRead head) := by
  have hcells := flatMap_sequence (gridMarksOf_cellElement (s := s) table hgroup head) row
  have hrow : gridMark? [group, table] (Tag.tr.start []) = some .row := by
    rw [gridMark?, if_neg hcolumns, if_pos ⟨hgroup, rfl⟩]
  simp only [rowElement, Rendered.value_bind, Rendered.value_pure]
  rw [gridMarksOf_stack, hrow]
  refine congrArg (GridMark.row :: ·) (hcells.trans ?_)
  exact List.map_eq_flatMap.symm

theorem groupTag_name (group : RowGroup) : (groupTag group).name.toList ≠ "colgroup".toList ∧
    groupNamed? (groupTag group).name.toList = some group := by
  cases group <;> decide

/-- A group in a table tells of itself and then of its rows, unless it has none. -/
theorem gridMarksOf_groupElement (group : RowGroup) (rows : List (List RenderedCell)) :
    (groupElement s group rows).value.flatMap (gridMarksOf [table]) =
      groupOutline group (rows.map fun row => row.map RenderedCell.cell) := by
  obtain ⟨hcolumns, hnamed⟩ := groupTag_name group
  have hrows := flatMap_sequence
    (gridMarksOf_rowElement (s := s) table hcolumns (hnamed ▸ rfl) (group == .head)) rows
  have hgroup : gridMark? [table] ((groupTag group).start []) = some (.group group) := by
    rw [gridMark?]
    exact (if_neg hcolumns).trans (congrArg (Option.map GridMark.group) hnamed)
  unfold groupElement groupOutline
  rw [List.isEmpty_map]
  cases hempty : rows.isEmpty with
  | true => rfl
  | false =>
    simp only [Bool.false_eq_true, if_false, Rendered.value_bind, Rendered.value_pure,
      List.flatMap_singleton, gridMarksOf_stack, hgroup, hrows, Option.toList_some,
      List.singleton_append, List.flatMap_map, List.map_map]
    rfl

theorem gridMarksOf_columnMarkup (autowidth : Bool) (c : Column) :
    gridMarksOf ["colgroup".toList, table] (columnMarkup autowidth c) = [.column] := by
  unfold columnMarkup
  split
  · split <;> rfl
  · rfl

/-- The cells of a grid as the table has them. -/
def Grid.cells (g : Grid) : Table Node where
  columns := g.columns
  head := g.head.map fun row => row.map RenderedCell.cell
  body := g.body.map fun row => row.map RenderedCell.cell
  foot := g.foot.map fun row => row.map RenderedCell.cell

theorem Grid.rowCount_cells (g : Grid) : g.cells.rowCount = g.rowCount := by
  simp [Table.rowCount, Grid.rowCount, Grid.cells]

/-- The lines of a grid tell of its columns, and then of its groups. -/
theorem gridMarksOf_gridLines (d : NodeData) (g : Grid) :
    (gridLines s d g).value.flatMap (gridMarksOf [table]) = g.cells.outline := by
  unfold gridLines Table.outline
  rw [g.rowCount_cells]
  split
  · rfl
  · have hcolumns : (g.columns.map (columnMarkup (d.hasOption "autowidth"))).flatMap
        (gridMarksOf ["colgroup".toList, table]) = g.columns.map fun _ => .column := by
      rw [List.flatMap_map, List.map_eq_flatMap]
      simp only [gridMarksOf_columnMarkup]
    have hparts := congrArg (GridMark.columns :: ·) hcolumns
    simp only [Rendered.value_bind, Rendered.value_pure, List.flatMap_cons, List.flatMap_append,
      gridMarksOf_groupElement, gridMarksOf_stack]
    refine (congrArg (· ++ _) hparts).trans ?_
    simp [Table.groups, Grid.cells]

/-- The element of a table holds a caption, if it has a title, and the lines of its grid. -/
theorem table_value (n : Node) (grid : Option Grid) : ∃ caption,
    (Block.table s n grid).value = .stack .table (tableAttrs s n.data)
        (caption ++ (grid.map fun g => (gridLines s n.data g).value).getD []) ∧
      (caption = [] ∨ ∃ content, caption = [[.element .caption titleClass content]]) := by
  unfold Block.table
  by_cases htitle : n.hasTitle = true
  · simp only [htitle, if_true]
    cases grid <;> exact ⟨_, rfl, .inr ⟨_, rfl⟩⟩
  · simp only [htitle, Bool.false_eq_true, if_false]
    cases grid <;> exact ⟨_, rfl, .inl rfl⟩

/-- The element of a table without rows holds nothing but its caption. -/
theorem table_value_of_empty (n : Node) {grid : Option Grid}
    (h : ∀ g, grid = some g → g.rowCount = 0) : ∃ caption,
    (Block.table s n grid).value = .stack .table (tableAttrs s n.data) caption ∧
      (caption = [] ∨ ∃ content, caption = [[.element .caption titleClass content]]) := by
  obtain ⟨caption, hvalue, hcaption⟩ := table_value (s := s) n grid
  have hlines : (grid.map fun g => (gridLines s n.data g).value).getD [] = [] := by
    cases grid with
    | none => rfl
    | some g =>
      rw [Option.map_some, Option.getD_some, gridLines, if_pos (h g rfl)]
      rfl
  rw [hlines, List.append_nil] at hvalue
  exact ⟨caption, hvalue, hcaption⟩

/-- A table is read as its outline. -/
theorem readTable_table (n : Node) (grid : Option Grid) (rest : List TagRead) :
    readTable (tagsOf (Block.table s n grid).value ++ rest) =
      some (((grid.map Grid.cells).map Table.outline).getD []) := by
  obtain ⟨caption, hvalue, hcaption⟩ := table_value (s := s) n grid
  have hnone : caption.flatMap (gridMarksOf ["table".toList]) = [] := by
    rcases hcaption with rfl | ⟨content, rfl⟩
    · rfl
    · have hpart : PassedOver [Tag.caption.name.toList, "table".toList] :=
        passedOver_part (by decide) (by decide) _
      rw [List.flatMap_singleton, gridMarksOf_element, gridMarksOf_passedOver content hpart]
      rfl
  rw [hvalue, readTable_stack, List.flatMap_append, hnone, List.nil_append]
  cases grid with
  | none => rfl
  | some g => exact congrArg some (gridMarksOf_gridLines _ n.data g)

end Block

/-! ### The tree -/

mutual

theorem rows_cells (s : Scene) (parent : Parent) : ∀ rows : List (List (Cell Node)),
    (rowsOf s parent rows).map (fun row => row.map Block.RenderedCell.cell) = rows
  | [] => rfl
  | r :: rs => by
    simp only [rowsOf, List.map_cons, row_cells s parent r, rows_cells s parent rs]

theorem row_cells (s : Scene) (parent : Parent) : ∀ row : List (Cell Node),
    (rowOf s parent row).map Block.RenderedCell.cell = row
  | [] => rfl
  | ⟨style, paragraphs, blocks, source, colspan, rowspan, halign, valign⟩ :: cs => by
    simp only [rowOf, List.map_cons, row_cells s parent cs]

end

theorem gridOf_cells (s : Scene) (parent : Parent) (t : Option (Table Node)) :
    (gridOf s parent t).map Block.Grid.cells = t := by
  cases t with
  | none => rfl
  | some t => simp only [gridOf, Option.map_some, Block.Grid.cells, rows_cells]

/-! ### Reading tables -/

/-- All nodes below a node that a document holds are held too. -/
theorem Document.Holds.walk {d : Document} {n m : Node} (h : d.Holds n) (hm : m ∈ n.walk) :
    d.Holds m := by
  cases h with
  | tree h => exact .tree (Node.walk_subset _ n h hm)
  | header h =>
    rcases List.mem_append.1 h with h | h
    · exact .header (List.mem_append_left _ (Node.walkAll_subset _ n h hm))
    · exact .header (List.mem_append_right _ (Node.walkOpt_subset _ n h hm))
  | target ht h => exact .target ht (Node.walkOpt_subset _ n h hm)
  | note hf h => exact .note hf (Node.walkAll_subset _ n h hm)

/-- Whether all that blocks insert unescaped is inert: what nodes do, the numbers of targets and of
footnotes, and what the highlighter gives. -/
structure Scene.InertBlocks (s : Scene) : Prop extends s.InertNodes where
  targetNumber : ∀ id t, s.doc.catalog.ref? id = some t → ∀ x, t.sectnum = some x → Inert x
  index : ∀ n, s.doc.Holds n → n.kind = .inlineFootnote → ∀ x, n.attr? indexName = some x → Inert x
  highlighter : ∀ h, s.highlighter = some h → s.PlainHighlighter h

/-- A block whose insertions are inert is read as the tags of its tree. -/
theorem Scene.InertBlocks.read {s : Scene} (h : s.InertBlocks) {n : Node} (hn : s.doc.Holds n)
    (parent : Option Parent) : readTags (block s parent n).value.render.toList =
      some (tagsOf (block s parent n).value) := by
  have hcovers : Palette.inert.Covers s := {
    node := fun _ hx => h.of_channel hx
    text := fun _ hx => h.of_splicedText h.targetNumber hx
    scheme := h.of_scheme
    sign := fun _ _ hsign => Reference.defaultSign_inert hsign }
  have hlistings : s.DrawsListings .inert := drawsListings_of_plain (fun _ hx => hx) h.highlighter
  have hnodes (m : Node) (hm : s.doc.Holds m) : m.Supplied s .inert :=
    supplied_of_holds hcovers hlistings hm (fun _ _ => trivial) (h.index m hm)
  have hscene : s.Supplied .inert := scene_supplied hcovers fun _ _ ht m hm =>
    hnodes m (Document.holds_target ht hm)
  have hfine := (blockAs_drawn hscene n parent fun m hm => hnodes m (hn.walk hm)).fine
  rw [Markup.render, String.toList_ofList]
  exact (Palette.inert_inert.sealed hfine).read (FineAll.named _ hfine)

/-- A table with rows is read as its columns and then its groups, rows and cells in order, whatever
its cells hold and whatever tags stand behind it. A table without rows holds nothing but its
caption. -/
theorem Converter.table_outline (c : Converter) (d : Document) (h : (c.scene d).InertBlocks)
    {n : Node} (hn : d.Holds n) (hkind : n.kind = .table) (parent : Option Parent) :
    ∃ ts, readTags (block (c.scene d) parent n).value.render.toList = some ts ∧
      (∀ t, n.table = some t → 0 < t.rowCount → ∀ rest, readTable (ts ++ rest) =
        some (.columns :: (t.columns.map fun _ => .column) ++
          t.groups.flatMap fun g => groupOutline g.1 g.2)) ∧
      ((∀ t, n.table = some t → t.rowCount = 0) →
        (∀ rest, readTable (ts ++ rest) = some []) ∧
          ∃ caption, (block (c.scene d) parent n).value =
              .stack .table (Block.tableAttrs (c.scene d) n.data) caption ∧
            (caption = [] ∨
              ∃ content, caption = [[.element .caption Block.titleClass content]])) := by
  have hvalue : block (c.scene d) parent n =
      Block.table (c.scene d) n (gridOf (c.scene d) n.data.asParent n.table) := by
    obtain ⟨data, title, text, items, entries, blocks, table⟩ := n
    rw [block, hkind, blockAs]
  have houtline (rest : List TagRead) :
      readTable (tagsOf (block (c.scene d) parent n).value ++ rest) =
        some ((n.table.map Table.outline).getD []) := by
    rw [hvalue, Block.readTable_table, gridOf_cells]
  refine ⟨_, h.read hn parent, ?_, ?_⟩
  · intro t ht hrows rest
    rw [houtline, ht, Option.map_some, Option.getD_some, Table.outline, if_neg (by omega)]
  · intro hempty
    refine ⟨fun rest => ?_, ?_⟩
    · rw [houtline]
      cases ht : n.table with
      | none => rfl
      | some t => rw [Option.map_some, Option.getD_some, Table.outline, if_pos (hempty t ht)]
    · rw [hvalue]
      refine Block.table_value_of_empty n fun g hg => ?_
      have hcells := gridOf_cells (c.scene d) n.data.asParent n.table
      rw [hg] at hcells
      rw [← g.rowCount_cells]
      exact hempty _ hcells.symm

/-- A table whose body has a cell with a table of its own and a heading over two rows. -/
def gridSample : Table Node :=
  let inner := { Table.blank Node with columns := [.auto], body := [[.plain "in"]] }
  let holder := { Cell.blank Node with
    style := .asciidoc, blocks := [{ Node.ofKind .table with table := some inner }] }
  { columns := [.auto, .auto]
    head := [[(Cell.plain "top").withColspan 2 |>.withAlign .center .top]]
    body := [[holder, (Cell.plain "side").withStyle .header |>.withRowspan 2]]
    foot := [] }

theorem gridSample_outline :
    let c : Converter := ⟨.initial, some HighlightJs.highlighter, .blank⟩
    let n : Node := { Node.ofKind .table with table := some gridSample }
    let d := Document.blank.withBlocks [n]
    (c.scene d).InertBlocks ∧ d.Holds n ∧ n.kind = .table ∧ 0 < gridSample.rowCount ∧
      ∃ ts, readTags (block (c.scene d) none n).value.render.toList = some ts ∧
        readTable ts = some [.columns, .column, .column,
          .group .head, .row, .cell ⟨true, some 2, none, some .center, some .top⟩,
          .group .body, .row, .cell ⟨false, none, none, some .left, some .top⟩,
          .cell ⟨true, none, some 2, some .left, some .top⟩] := by
  intro c n d
  have htree : ∀ n ∈ d.root.walk, n.sectnum = none ∧ n.kind ≠ .pass ∧ n.kind ≠ .inlineCallout ∧
      n.hasOption "inline" = false ∧ n.kind ≠ .inlineFootnote := by
    decide
  have held : ∀ n, d.Holds n → n ∈ d.root.walk := by
    intro n hn
    cases hn with
    | tree h => exact h
    | header h => exact absurd h nofun
    | target ht _ => exact absurd ht nofun
    | note hf _ => exact absurd hf nofun
  have hinert : (c.scene d).InertBlocks := {
    pass := fun n hn hk => absurd hk (htree n (held n hn)).2.1
    guard := fun n hn hk => absurd hk (htree n (held n hn)).2.2.1
    svg := fun n hn _ ho => absurd ho (by simp [(htree n (held n hn)).2.2.2.1])
    sign := fun _ _ h => absurd h nofun
    scheme := fun _ h => absurd h nofun
    sectnum := fun n hn x hx => absurd ((htree n (held n hn)).1.symm.trans hx) nofun
    targetNumber := fun _ _ h => absurd h nofun
    index := fun n hn hk => absurd hk (htree n (held n hn)).2.2.2.2
    highlighter := fun _ h => .inl (Option.some.inj h).symm }
  have hn : d.Holds n := .tree (.tail _ (.head _))
  have hrows : 0 < gridSample.rowCount := by decide
  obtain ⟨ts, hread, hgrid, -⟩ := c.table_outline d hinert hn rfl none
  have hmarks := hgrid gridSample rfl hrows []
  rw [List.append_nil] at hmarks
  exact ⟨hinert, hn, rfl, hrows, ts, hread, hmarks⟩

end DocPress
