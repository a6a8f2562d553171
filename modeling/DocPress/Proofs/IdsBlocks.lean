import DocPress.Block.Basic
import DocPress.Highlighter.HighlightJs
import DocPress.Proofs.Shown

/-! What is read off the ids of blocks: their own, where their kind has a place for it, then what is
read off their titles, texts and parts, in the order of the page. -/

namespace DocPress

set_option autoImplicit false

variable {α : Type} (r : IdReading α)

/-! ### Running text and verbatim text -/

namespace IdReading

variable (s : Scene)

/-- What is read off a running text, nothing if there is no text. -/
def text (ns : Option Inlines) : List α := r.read (runningText s (ns.getD [])).value

theorem text_of_blank {ns : Option Inlines} (h : ¬ ns.any (!·.isEmpty) = true) :
    r.text s ns = [] := by
  cases ns with
  | none => rfl
  | some ns =>
    have hempty : ns = [] := by simpa using h
    rw [hempty]
    rfl

/-- What is read off a text that was handed to the splitter of equations. -/
def equation (n : Node) : List α :=
  r.read (Block.equations (Block.stemStyle s n.data) (Block.verbatim s n).value)

/-- What is read off a listing, which a highlighter may have been given. -/
def listing (n : Node) : List α := r.read (Block.listingBody s n (Block.verbatim s n).value)

end IdReading

theorem flatMap_sequence {β γ : Type} {f : β → Rendered γ} {m : γ → List α} {g : β → List α}
    (h : ∀ b, m (f b).value = g b) (bs : List β) :
    (Rendered.sequence (bs.map f)).value.flatMap m = bs.flatMap g := by
  induction bs with
  | nil => rfl
  | cons b bs ih =>
    simp only [List.map_cons, Rendered.sequence, Rendered.value_bind, Rendered.value_pure,
      List.flatMap_cons, h, ih]

open Block

/-- Whether an open block is left out: an abstract where a book has no place for it, and the
introduction of a part where there is none. -/
def NodeData.isLeftOut (book : Bool) (parent : Option Parent) (d : NodeData) : Bool :=
  match d.style with
  | some "abstract" => atRoot parent && book
  | some "partintro" => !(inPart parent && book)
  | _ => false

namespace Block

variable {s : Scene} {n : Node}

@[simp] theorem read_title : r.read (title s n).value = r.text s n.title := rfl

theorem text_of_not (h : ¬ n.hasTitle = true) : r.text s n.title = [] := r.text_of_blank s h

@[simp] theorem read_captionedTitle :
    r.read (captionedTitle s n).value = r.text s n.title := by
  simp only [captionedTitle, Rendered.value_bind, Rendered.value_pure]
  split <;> simp

@[simp] theorem attrIds_titleClass : attrIds titleClass = [] := by simp [titleClass]

@[simp] theorem read_titleLine (captioned : Bool) :
    (titleLine s n captioned).value.flatMap r.read = r.text s n.title := by
  by_cases h : n.hasTitle = true
  · cases captioned <;> simp [titleLine, h]
  · simp [titleLine, h, text_of_not r h]

@[simp] theorem read_verbatim : r.read (verbatim s n).value = r.text s n.text := by
  unfold verbatim
  cases n.text with
  | some text => rfl
  | none => cases n.source <;> simp [IdReading.text, runningText, inlines]

@[simp] theorem read_attribution (d : NodeData) : (attribution d).flatMap r.read = [] := by
  simp only [attribution]
  cases d.attr? "citetitle" <;> cases d.attr? "attribution" <;> simp

/-! ### Prose -/

theorem read_heading : r.read (heading s n).value = r.text s n.title := by
  simp only [heading]
  split
  · exact read_captionedTitle r
  · split <;> simp
  · exact read_title r

@[simp] theorem read_linkedHeading (id : Option String) (heading : Markup) :
    r.read (linkedHeading s id heading) = r.read heading := by
  cases id with
  | none => rfl
  | some id =>
    by_cases hlinks : s.hasAttr "sectlinks" = true <;>
      by_cases hanchors : s.hasAttr "sectanchors" = true
    all_goals
      by_cases hafter : s.attrIs "sectanchors" "after" = true <;>
        simp [linkedHeading, hlinks, hanchors, hafter]

section

variable (content : Rendered Markup)

theorem read_sectionBlock : r.read (sectionBlock s n content).value =
    r.ofIds n.data.idValues ++ (r.text s n.title ++ r.read content.value) := by
  simp only [sectionBlock, Rendered.value_bind]
  split <;> simp [read_heading]

theorem read_paragraph : r.read (paragraph s n content).value =
    r.ofIds n.data.idValues ++ (r.text s n.title ++ r.read content.value) := by
  by_cases h : n.hasTitle = true
  · simp [paragraph, h]
  · simp [paragraph, h, text_of_not r h]

theorem read_admonitionLabel (d : NodeData) : r.read (admonitionLabel s d) = [] := by
  simp only [admonitionLabel]
  split
  · split <;> simp [Inline.read_plainImage]
  · simp

theorem read_admonition : r.read (admonition s n content).value =
    r.ofIds n.data.idValues ++ (r.text s n.title ++ r.read content.value) := by
  simp [admonition, read_admonitionLabel]

theorem read_exampleBlock : r.read (exampleBlock s n content).value =
    r.ofIds n.data.idValues ++ (r.text s n.title ++ r.read content.value) := by
  simp only [exampleBlock, Rendered.value_bind]
  split
  · by_cases h : n.hasTitle = true
    · simp [h]
    · simp [h, text_of_not r h]
  · simp

theorem read_quote : r.read (quote s n content).value =
    r.ofIds n.data.idValues ++ (r.text s n.title ++ r.read content.value) := by
  simp [quote]

theorem read_sidebar : r.read (sidebar s n content).value =
    r.ofIds n.data.idValues ++ (r.text s n.title ++ r.read content.value) := by
  simp [sidebar]

theorem read_openBlock (parent : Option Parent) :
    r.read (openBlock s n parent content).value =
      if n.data.isLeftOut (isBook s) parent then []
      else r.ofIds n.data.idValues ++ (r.text s n.title ++ r.read content.value) := by
  by_cases habstract : n.style = some "abstract"
  · have hout : n.data.isLeftOut (isBook s) parent = (atRoot parent && isBook s) := by
      simp only [NodeData.isLeftOut, habstract]
    rw [openBlock, if_pos habstract, abstractBlock, hout]
    split <;> simp [Rendered.warn]
  · by_cases hintro : n.style = some "partintro"
    · have hout : n.data.isLeftOut (isBook s) parent = !(inPart parent && isBook s) := by
        simp only [NodeData.isLeftOut, hintro]
      rw [openBlock, if_neg habstract, hout]
      by_cases hin : (inPart parent && isBook s) = true
      · simp [hintro, hin]
      · simp [hintro, hin, Rendered.warn]
    · have hout : n.data.isLeftOut (isBook s) parent = false := by
        unfold NodeData.isLeftOut
        split
        · exact absurd ‹_› habstract
        · exact absurd ‹_› hintro
        · rfl
      simp [openBlock, habstract, hintro, hout]

end

theorem read_floatingTitle :
    r.read (floatingTitle s n).value = r.ofIds n.data.idValues ++ r.text s n.title := by
  simp [floatingTitle]

theorem read_verse : r.read (verse s n).value =
    r.ofIds n.data.idValues ++ (r.text s n.title ++ r.text s n.text) := by
  simp [verse]

/-! ### Verbatim blocks and media -/

theorem read_preformatted (nowrap : Bool) (content : Markup) :
    r.read (preformatted nowrap content) = r.read content := by
  simp [preformatted]

theorem read_literalBlock : r.read (literalBlock s n).value =
    r.ofIds n.data.idValues ++ (r.text s n.title ++ r.text s n.text) := by
  simp [literalBlock, read_preformatted]

theorem read_listing : r.read (listing s n).value =
    r.ofIds n.data.idValues ++ (r.text s n.title ++ r.listing s n) := by
  simp [listing, IdReading.listing]

theorem read_stem : r.read (stem s n).value =
    r.ofIds n.data.idValues ++ (r.text s n.title ++ r.equation s n) := by
  simp [stem, IdReading.equation]

theorem attrIds_dimensions (d : NodeData) : attrIds (dimensions d) = [] := by
  have hgiven : ∀ {given : List (AttrName × String)}, (∀ p ∈ given, p.1.isId = false) →
      attrIds (given.map fun p => attr p.1 p.2) = [] := by
    intro given h
    induction given with
    | nil => rfl
    | cons p given ih =>
      have hp := h p List.mem_cons_self
      rw [List.map_cons, attrIds_attr, hp, ih fun q hq => h q (List.mem_cons_of_mem p hq)]
      rfl
  rw [dimensions, attrIds_append, hgiven]
  · simp
  · intro p hp
    obtain ⟨q, hq, hmap⟩ := List.mem_filterMap.1 (List.mem_filter.1 hp).1
    obtain ⟨v, -, rfl⟩ := Option.map_eq_some_iff.1 hmap
    simp only [List.mem_cons, List.not_mem_nil, or_false] at hq
    rcases hq with rfl | rfl <;> rfl

@[simp] theorem attrIds_placedAttrs (d : NodeData) (base : String) :
    attrIds (placedAttrs d base) = [] := by
  simp [placedAttrs]

theorem read_audio : r.read (audio s n).value = r.ofIds n.data.idValues ++ r.text s n.title := by
  simp [audio]

theorem read_image : r.read (image s n).value = r.ofIds n.data.idValues ++ r.text s n.title := by
  simp [image, Inline.read_linked, Inline.read_picture, attrIds_dimensions]

theorem read_video : r.read (video s n).value = r.ofIds n.data.idValues ++ r.text s n.title := by
  simp only [video, Rendered.value_bind, Rendered.value_pure]
  split <;> simp [playerFrame, videoElement, fullscreen]

/-! ### Lists -/

/-- The ids in the text and the blocks of an item. -/
def Item.read (s : Scene) (i : Item) : List α :=
  r.text s i.text ++ (i.blocks.map fun b => r.read b.value).getD []

def Group.read (s : Scene) (g : Group) : List α :=
  (g.terms.flatMap fun t => r.text s t.text) ++ (g.description.map (Item.read r s)).getD []

@[simp] theorem read_textMarkup (i : Item) : r.read (i.textMarkup s).value = r.text s i.text :=
  rfl

@[simp] theorem read_blockLines (i : Item) :
    i.blockLines.value.flatMap r.read = (i.blocks.map fun b => r.read b.value).getD [] := by
  unfold Item.blockLines
  cases i.blocks <;> simp

@[simp] theorem read_body (i : Item) : (i.body s).value.flatMap r.read = i.read r s := by
  by_cases h : i.text.any (!·.isEmpty) = true
  · simp [Item.body, h, Item.read]
  · simp [Item.body, h, Item.read, r.text_of_blank s h]

theorem read_listElement {mark : Markup} (hmark : r.read mark = []) (i : Item) :
    r.read (i.listElement s mark).value = r.ofIds i.data.idValues ++ i.read r s := by
  simp [Item.listElement, Item.attrs, Item.read, hmark]

theorem read_calloutItem (i : Item) : r.read (calloutItem s i).value = i.read r s := by
  simp [calloutItem, Item.read]

theorem read_listBox (classes : ClassList) (title : List Markup) (list : Markup) :
    r.read (listBox n classes title list) =
      r.ofIds n.data.idValues ++ (title.flatMap r.read ++ r.read list) := by
  simp [listBox]

@[simp] theorem read_listTitle : (listTitle s n).value.flatMap r.read = r.text s n.title :=
  read_titleLine r false

theorem read_orderedList (items : List Item) : r.read (orderedList s n items).value =
    r.ofIds n.data.idValues ++ (r.text s n.title ++
      items.flatMap fun i => r.ofIds i.data.idValues ++ i.read r s) := by
  simp [orderedList, read_listBox, flatMap_sequence (read_listElement r r.read_nil)]

theorem read_checkMark (i : Item) : r.read (checkMark s n i) = [] := by
  have hmarks : r.read (checkMarks s n).1 = [] ∧ r.read (checkMarks s n).2 = [] := by
    unfold checkMarks
    split
    · simp
    · split <;> simp
  unfold checkMark
  split
  · split
    · exact hmarks.1
    · exact hmarks.2
  · rfl

theorem read_unorderedList (items : List Item) : r.read (unorderedList s n items).value =
    r.ofIds n.data.idValues ++ (r.text s n.title ++
      items.flatMap fun i => r.ofIds i.data.idValues ++ i.read r s) := by
  have hitems : ∀ i : Item, r.read (i.listElement s (checkMark s n i)).value =
      r.ofIds i.data.idValues ++ i.read r s := fun i => read_listElement r (read_checkMark r i) i
  simp [unorderedList, read_listBox, flatMap_sequence hitems]

theorem read_calloutLabel (number : Nat) : r.read (calloutLabel s number) = [] := by
  simp only [calloutLabel]
  split <;> simp [Inline.read_plainImage]

theorem read_calloutRows (number : Nat) (items : List Item) :
    (calloutRows s number items).value.flatMap r.read = items.flatMap (Item.read r s) := by
  induction items generalizing number with
  | nil => rfl
  | cons i rest ih =>
    simp [calloutRows, ih, read_calloutLabel, Item.read]

theorem read_calloutList (items : List Item) : r.read (calloutList s n items).value =
    r.ofIds n.data.idValues ++ (r.text s n.title ++ items.flatMap (Item.read r s)) := by
  simp only [calloutList, Rendered.value_bind]
  split
  · simp [read_listBox, read_calloutRows]
  · simp [read_listBox, flatMap_sequence (read_calloutItem r)]

theorem read_termTexts (g : Group) :
    (termTexts s g).value.flatMap r.read = g.terms.flatMap fun t => r.text s t.text := by
  have hterm : ∀ t : Node, r.read (termText s t).value = r.text s t.text := fun _ => rfl
  rw [termTexts, flatMap_sequence hterm]

theorem read_descriptionLines (g : Group) :
    (descriptionLines s g).value.flatMap r.read =
      (g.description.map (Item.read r s)).getD [] := by
  unfold descriptionLines
  cases g.description <;> simp

theorem read_questionItem (g : Group) : r.read (questionItem s g).value = g.read r s := by
  simp [questionItem, Group.read, List.flatMap_map, read_termTexts, read_descriptionLines]

theorem read_horizontalRow (g : Group) : r.read (horizontalRow s n g).value = g.read r s := by
  have hterms : ∀ terms : List Markup,
      (terms.intersperse [.void .br []]).flatMap r.read = terms.flatMap r.read := by
    intro terms
    have hsep : r.read [.void .br []] = [] := by simp
    have hterms := r.read_intercalate hsep terms
    rwa [List.intercalate, r.read_flatten] at hterms
  simp [horizontalRow, Group.read, hterms, read_termTexts, read_descriptionLines]

theorem read_termLines (g : Group) :
    (termLines s n g).value.flatMap r.read = g.read r s := by
  have hlines := @read_descriptionLines _ r s g
  cases hd : g.description with
  | some i => simp_all [termLines, Group.read, List.flatMap_map, read_termTexts]
  | none => simp_all [termLines, Group.read, List.flatMap_map, read_termTexts]

theorem read_descriptionList (groups : List Group) :
    r.read (descriptionList s n groups).value =
      r.ofIds n.data.idValues ++ (r.text s n.title ++ groups.flatMap (Group.read r s)) := by
  have hcolumns : (horizontalColumns n).flatMap r.read = [] := by
    simp only [horizontalColumns]
    cases n.attr? "labelwidth" <;> cases n.attr? "itemwidth" <;> simp
  simp only [descriptionList, Rendered.value_bind]
  split
  · simp [read_listBox, flatMap_sequence (read_questionItem r)]
  · simp [read_listBox, flatMap_sequence (read_horizontalRow r), hcolumns]
  · have hlines : (Rendered.sequence (groups.map (termLines s n))).value.flatten.flatMap
        r.read = groups.flatMap (Group.read r s) := by
      rw [List.flatten_eq_flatMap, List.flatMap_assoc]
      exact flatMap_sequence (read_termLines r) groups
    simp [read_listBox, hlines]

/-! ### Tables -/

/-- The ids in a cell, its blocks being rendered. -/
def RenderedCell.read (s : Scene) (head : Bool) (c : RenderedCell) : List α :=
  match head, c.cell.style, c.cell.source with
  | false, .asciidoc, _ => r.read c.blocks.value
  | false, .literal, some _ => []
  | _, _, _ => c.cell.paragraphs.flatMap fun p => r.text s (some p)

@[simp] theorem read_paragraphTexts (c : Cell Node) :
    (paragraphTexts s c).value.flatMap r.read =
      c.paragraphs.flatMap fun p => r.text s (some p) :=
  flatMap_sequence (fun _ => rfl) _

theorem read_cellParagraphs (c : Cell Node) {wrap : Markup → Markup}
    (hw : ∀ t, r.read (wrap t) = r.read t) :
    r.read (cellParagraphs s c wrap).value =
      c.paragraphs.flatMap fun p => r.text s (some p) := by
  simp [cellParagraphs, List.flatMap_map, hw]

theorem read_cellContent (head : Bool) (c : RenderedCell) :
    r.read (cellContent s head c).value = c.read r s head := by
  cases head with
  | true => simp [cellContent, RenderedCell.read, r.read_intercalate]
  | false =>
    cases hstyle : c.cell.style
    case asciidoc => simp [cellContent, RenderedCell.read, hstyle]
    case literal =>
      cases hsource : c.cell.source <;>
        simp [cellContent, RenderedCell.read, hstyle, hsource]
    all_goals simp [cellContent, RenderedCell.read, hstyle, read_cellParagraphs]

theorem read_cellElement (head : Bool) (c : RenderedCell) :
    r.read (cellElement s head c).value = c.read r s head := by
  simp only [cellElement, Rendered.value_bind, Rendered.value_pure]
  split <;> simp [read_cellContent]

theorem read_rowElement (head : Bool) (row : List RenderedCell) :
    r.read (rowElement s head row).value = row.flatMap (RenderedCell.read r s head) := by
  simp [rowElement, flatMap_sequence (read_cellElement r head)]

def rowsRead (s : Scene) (head : Bool) (rows : List (List RenderedCell)) : List α :=
  rows.flatMap fun row => row.flatMap (RenderedCell.read r s head)

theorem read_groupElement (group : RowGroup) (rows : List (List RenderedCell)) :
    (groupElement s group rows).value.flatMap r.read = rowsRead r s (group == .head) rows := by
  have htag : groupTag group ≠ .a := by cases group <;> decide
  unfold groupElement
  by_cases hempty : rows = []
  · subst hempty
    rfl
  · simp [hempty, htag, flatMap_sequence (read_rowElement r _), rowsRead]

def Grid.read (s : Scene) (g : Grid) : List α :=
  rowsRead r s true g.head ++ rowsRead r s false g.body ++ rowsRead r s false g.foot

theorem read_gridLines (d : NodeData) (g : Grid) :
    (gridLines s d g).value.flatMap r.read = g.read r s := by
  have hcolumns : ∀ autowidth, (g.columns.map (columnMarkup autowidth)).flatMap r.read = [] := by
    intro autowidth
    rw [List.flatMap_map, List.flatMap_eq_nil_iff]
    intro c _
    simp only [columnMarkup]
    split
    · split <;> simp [widthStyle]
    · simp
  have hbody : (RowGroup.body == .head) = false := rfl
  have hfoot : (RowGroup.foot == .head) = false := rfl
  by_cases hempty : g.rowCount = 0
  · obtain ⟨⟨hhead, hbody⟩, hfoot⟩ : (g.head = [] ∧ g.body = []) ∧ g.foot = [] := by
      simpa [Grid.rowCount] using hempty
    simp [gridLines, hempty, Grid.read, rowsRead, hhead, hbody, hfoot]
  · simp [gridLines, hempty, Grid.read, read_groupElement, hcolumns, hbody, hfoot]

theorem attrIds_tableAttrs (d : NodeData) : attrIds (tableAttrs s d) = d.idValues := by
  simp only [tableAttrs, tableExtent]
  split
  · simp
  · split <;> simp [widthStyle]

theorem read_table (grid : Option Grid) : r.read (table s n grid).value =
    r.ofIds n.data.idValues ++ (r.text s n.title ++ (grid.map (Grid.read r s)).getD []) := by
  cases grid <;> by_cases h : n.hasTitle = true <;>
    simp [table, h, read_gridLines, text_of_not, attrIds_tableAttrs]

end Block

end DocPress
