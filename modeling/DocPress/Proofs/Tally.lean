import DocPress.Block.Basic
import DocPress.Proofs.InnerAnchors
import DocPress.Proofs.IdsBlocks
import Mathlib.Algebra.GroupWithZero.Nat

/-! Counts over rendered blocks: the anchors in their markup that stand within another anchor, and
the warnings that came up. What templates put around the parts of a block adds nothing to either, so
that the count of a block is that of its titles, texts and parts, in whatever order they were
rendered. The exceptions are headings that are made links, and images. -/

namespace DocPress

set_option autoImplicit false

/-- What is counted: inner anchors as often as `inner` says, and some of the warnings. -/
structure Tally where
  inner : Nat
  counted : Warning → Bool

namespace Tally

variable (t : Tally)

def of (x : Rendered Markup) : Nat :=
  t.inner * innerOf false x.value + x.warnings.countP t.counted

/-- The count of several parts. -/
def lines (x : Rendered (List Markup)) : Nat :=
  t.inner * innerOf false x.value.flatten + x.warnings.countP t.counted

/-- The count of a running text, nothing if there is no text. -/
def text (s : Scene) (ns : Option Inlines) : Nat := t.of (runningText s (ns.getD []))

/-- The count of a listing, which a highlighter may have been given. -/
def listing (s : Scene) (n : Node) : Nat := t.of (Block.listingBody s n <$> Block.verbatim s n)

@[simp] theorem of_pure (m : Markup) : t.of (pure m) = t.inner * innerOf false m := rfl

@[simp] theorem of_warn (w : Warning) : t.of (.warn w []) = (t.counted w).toNat := by
  cases hw : t.counted w <;> simp [of, Rendered.warn, hw]

theorem lines_cons (x : Rendered Markup) (xs : Rendered (List Markup)) :
    t.lines (do let first ← x; let rest ← xs; return first :: rest) = t.of x + t.lines xs := by
  simp only [lines, of, Rendered.value_bind, Rendered.value_pure, Rendered.warnings_bind,
    Rendered.warnings_pure, List.flatten_cons, innerOf_append, List.append_nil,
    List.countP_append, Nat.mul_add]
  omega

/-- A part and the lines below it, put together. -/
theorem of_lines_cons (x : Rendered Markup) (xs : Rendered (List Markup)) :
    t.of (do let first ← x; let rest ← xs; return .lines (first :: rest)) =
      t.of x + t.lines xs := by
  rw [← lines_cons]
  simp [of, lines]

theorem lines_sequence {β : Type} {f : β → Rendered Markup} {g : β → Nat}
    (h : ∀ b, t.of (f b) = g b) (bs : List β) :
    t.lines (Rendered.sequence (bs.map f)) = (bs.map g).sum := by
  induction bs with
  | nil => rfl
  | cons b bs ih =>
    rw [List.map_cons, Rendered.sequence, lines_cons, h, ih, List.map_cons, List.sum_cons]

/-- The parts of each element of a list, put one after the other. -/
theorem lines_sequence_flatten {β : Type} {f : β → Rendered (List Markup)} {g : β → Nat}
    (h : ∀ b, t.lines (f b) = g b) (bs : List β) :
    t.lines (List.flatten <$> Rendered.sequence (bs.map f)) = (bs.map g).sum := by
  induction bs with
  | nil => rfl
  | cons b bs ih =>
    have hb := h b
    simp only [lines, Rendered.value_map, Rendered.warnings_map] at hb ih
    simp only [lines, Rendered.value_map, Rendered.warnings_map, List.map_cons,
      Rendered.sequence, Rendered.value_bind, Rendered.value_pure, Rendered.warnings_bind,
      Rendered.warnings_pure, List.flatten_cons, List.flatten_append, innerOf_append,
      List.append_nil, List.countP_append, List.sum_cons, Nat.mul_add]
    omega

end Tally

namespace Block

variable {inside : Bool} {s : Scene} {n : Node}

/-! ### Titles and texts -/

theorem runningText_of_blank {ns : Option Inlines} (h : ¬ ns.any (!·.isEmpty) = true) :
    runningText s (ns.getD []) = pure [] := by
  cases ns with
  | none => rfl
  | some ns =>
    have hempty : ns = [] := by simpa using h
    rw [hempty]
    rfl

theorem title_of_not (h : ¬ n.hasTitle = true) : title s n = pure [] := runningText_of_blank h

@[simp] theorem innerOf_captionedTitle :
    innerOf inside (captionedTitle s n).value = innerOf inside (title s n).value := by
  simp only [captionedTitle, Rendered.value_bind, Rendered.value_pure]
  split <;> simp

@[simp] theorem warnings_captionedTitle : (captionedTitle s n).warnings = (title s n).warnings := by
  simp [captionedTitle]

@[simp] theorem innerOf_titleLine (captioned : Bool) :
    innerOf inside (titleLine s n captioned).value.flatten = innerOf inside (title s n).value := by
  by_cases h : n.hasTitle = true
  · cases captioned <;> simp [titleLine, h]
  · simp [titleLine, h, title_of_not h]

@[simp] theorem warnings_titleLine (captioned : Bool) :
    (titleLine s n captioned).warnings = (title s n).warnings := by
  by_cases h : n.hasTitle = true
  · cases captioned <;> simp [titleLine, h]
  · simp [titleLine, h, title_of_not h]

@[simp] theorem innerOf_verbatim : innerOf inside (verbatim s n).value =
    innerOf inside (runningText s (n.text.getD [])).value := by
  unfold verbatim
  cases n.text with
  | some text => rfl
  | none => cases n.source <;> rfl

@[simp] theorem warnings_verbatim :
    (verbatim s n).warnings = (runningText s (n.text.getD [])).warnings := by
  unfold verbatim
  cases n.text with
  | some text => rfl
  | none => cases n.source <;> rfl

@[simp] theorem innerOf_attribution (d : NodeData) :
    innerOf inside (attribution d).flatten = 0 := by
  simp only [attribution]
  cases d.attr? "citetitle" <;> cases d.attr? "attribution" <;> simp

@[simp] theorem innerOf_preformatted (nowrap : Bool) (content : Markup) :
    innerOf inside (preformatted nowrap content) = innerOf inside content := by
  simp [preformatted]

@[simp] theorem innerOf_equations (style : String) (content : Markup) :
    innerOf inside (equations style content) = innerOf inside content := by
  simp only [equations, innerOf_delimit]
  by_cases h : style = "asciimath"
  · have hascii : ¬ style = "latexmath" := by
      rw [h]
      decide
    simp only [h, if_true, innerOf_split, show ¬ "asciimath" = "latexmath" by decide, if_false]
  · simp only [h, if_false]

@[simp] theorem innerOf_plainImage (uri alt : String) (dimensions : List Attr) :
    innerOf inside (Inline.plainImage uri alt dimensions) = 0 := rfl

@[simp] theorem innerOf_picture (d : NodeData) (dimensions : List Attr) :
    innerOf inside (Inline.picture s d dimensions).value = 0 := by
  simp only [Inline.picture]
  split
  · simp only [Rendered.value_bind]
    split <;> simp
  · split
    · split <;> simp
    · simp

theorem innerOf_linked (d : NodeData) {image : Markup} (h : innerOf true image = 0) :
    innerOf false (Inline.linked d image) = 0 := by
  have hfalse : innerOf false image = 0 := Nat.le_zero.mp (h ▸ innerOf_le image)
  unfold Inline.linked
  split <;> simp [h, hfalse]

/-! ### Prose -/

@[simp] theorem innerOf_heading :
    innerOf inside (heading s n).value = innerOf inside (title s n).value := by
  simp only [heading]
  split
  · exact innerOf_captionedTitle
  · split <;> simp
  · rfl

@[simp] theorem warnings_heading : (heading s n).warnings = (title s n).warnings := by
  simp only [heading]
  split
  · exact warnings_captionedTitle
  · split <;> simp
  · rfl

/-- Whether the heading of a section is made a link. -/
def isLinked (s : Scene) (d : NodeData) : Bool := d.id.isSome && s.hasAttr "sectlinks"

/-- The anchors of a title that stand within none of its own, if a link is put around it. -/
def wrapped (s : Scene) (n : Node) : Nat :=
  if isLinked s n.data then innerOf true (title s n).value - innerOf false (title s n).value else 0

theorem innerOf_linkedHeading :
    innerOf false (linkedHeading s n.id (heading s n).value) =
      innerOf false (title s n).value + wrapped s n := by
  have hle := innerOf_le (title s n).value
  have hid : n.data.id = n.id := rfl
  cases h : n.id with
  | none => simp [linkedHeading, wrapped, isLinked, hid, h]
  | some id =>
    by_cases hlinks : s.hasAttr "sectlinks" = true <;>
      by_cases hanchors : s.hasAttr "sectanchors" = true
    all_goals
      by_cases hafter : s.attrIs "sectanchors" "after" = true <;>
        simp [linkedHeading, wrapped, isLinked, hid, h, hlinks, hanchors, hafter]
    all_goals omega

section

variable (t : Tally) (content : Rendered Markup)

theorem tally_sectionBlock : t.of (sectionBlock s n content) =
    t.inner * wrapped s n + (t.text s n.title + t.of content) := by
  have hheading := @innerOf_linkedHeading s n
  by_cases hlevel : n.level = 0
  all_goals
    simp only [title] at hheading
    simp [sectionBlock, hlevel, hheading, title, Tally.of, Tally.text, Nat.mul_add]
    omega

theorem tally_paragraph :
    t.of (paragraph s n content) = t.text s n.title + t.of content := by
  by_cases h : n.hasTitle = true
  · simp [paragraph, h, title, Tally.of, Tally.text, Nat.mul_add]
    omega
  · have htitle : runningText s (n.title.getD []) = pure [] := title_of_not h
    simp [paragraph, h, htitle, Tally.of, Tally.text]

theorem innerOf_admonitionLabel (d : NodeData) : innerOf inside (admonitionLabel s d) = 0 := by
  simp only [admonitionLabel]
  split
  · split <;> simp
  · simp

theorem tally_admonition :
    t.of (admonition s n content) = t.text s n.title + t.of content := by
  simp [admonition, innerOf_admonitionLabel, title, Tally.of, Tally.text, Nat.mul_add]
  omega

theorem tally_exampleBlock :
    t.of (exampleBlock s n content) = t.text s n.title + t.of content := by
  by_cases hc : n.hasOption "collapsible" = true
  · by_cases h : n.hasTitle = true
    · simp [exampleBlock, hc, h, title, Tally.of, Tally.text, Nat.mul_add]
      omega
    · have htitle : runningText s (n.title.getD []) = pure [] := title_of_not h
      simp [exampleBlock, hc, h, htitle, Tally.of, Tally.text]
  · simp [exampleBlock, hc, title, Tally.of, Tally.text, Nat.mul_add]
    omega

theorem tally_quote : t.of (quote s n content) = t.text s n.title + t.of content := by
  simp [quote, title, Tally.of, Tally.text, Nat.mul_add]
  omega

theorem tally_sidebar : t.of (sidebar s n content) = t.text s n.title + t.of content := by
  simp [sidebar, title, Tally.of, Tally.text, Nat.mul_add]
  omega

/-- The warning that comes with a block that is left out. -/
def leftOutWarning (d : NodeData) : Warning :=
  if d.style = some "abstract" then .bookAbstract else .misplacedPartIntro

theorem tally_openBlock (parent : Option Parent) : t.of (openBlock s n parent content) =
    if n.data.isLeftOut (isBook s) parent then (t.counted (leftOutWarning n.data)).toNat
    else t.text s n.title + t.of content := by
  have hstyle : n.data.style = n.style := rfl
  by_cases habstract : n.style = some "abstract"
  · have hout : n.data.isLeftOut (isBook s) parent = (atRoot parent && isBook s) := by
      simp only [NodeData.isLeftOut, hstyle, habstract]
    rw [openBlock, if_pos habstract, abstractBlock, hout, leftOutWarning, if_pos habstract]
    split
    · exact t.of_warn _
    · simp [title, Tally.of, Tally.text, Nat.mul_add]
      omega
  · by_cases hintro : n.style = some "partintro"
    · have hout : n.data.isLeftOut (isBook s) parent = !(inPart parent && isBook s) := by
        simp only [NodeData.isLeftOut, hstyle, hintro]
      rw [openBlock, if_neg habstract, hout, leftOutWarning, if_neg habstract]
      by_cases hin : (inPart parent && isBook s) = true
      · simp [hintro, hin, title, Tally.of, Tally.text, Nat.mul_add]
        omega
      · simp [hintro, hin]
    · have hout : n.data.isLeftOut (isBook s) parent = false := by
        unfold NodeData.isLeftOut
        split
        · exact absurd ‹_› habstract
        · exact absurd ‹_› hintro
        · rfl
      simp [openBlock, habstract, hintro, hout, title, Tally.of, Tally.text, Nat.mul_add]
      omega

theorem tally_floatingTitle : t.of (floatingTitle s n) = t.text s n.title := by
  simp [floatingTitle, title, Tally.of, Tally.text]

theorem tally_verse : t.of (verse s n) = t.text s n.title + t.text s n.text := by
  simp [verse, title, Tally.of, Tally.text, Nat.mul_add]
  omega

/-! ### Verbatim blocks and media -/

theorem tally_literalBlock : t.of (literalBlock s n) = t.text s n.title + t.text s n.text := by
  simp [literalBlock, title, Tally.of, Tally.text, Nat.mul_add]
  omega

theorem tally_listing : t.of (listing s n) = t.text s n.title + t.listing s n := by
  simp [listing, title, Tally.of, Tally.text, Tally.listing, Nat.mul_add]
  omega

theorem tally_stem : t.of (stem s n) = t.text s n.title + t.text s n.text := by
  simp [stem, title, Tally.of, Tally.text, Nat.mul_add]
  omega

theorem tally_audio : t.of (audio s n) = t.text s n.title := by
  simp [audio, title, Tally.of, Tally.text]

theorem tally_image : t.of (image s n) =
    (Inline.picture s n.data (dimensions n.data)).warnings.countP t.counted +
      t.text s n.title := by
  have hlinked := innerOf_linked n.data
    (@innerOf_picture true s n.data (dimensions n.data))
  simp [image, hlinked, title, Tally.of, Tally.text]
  omega

theorem tally_video : t.of (video s n) = t.text s n.title := by
  simp only [video, Tally.of, Rendered.value_bind, Rendered.value_pure]
  split <;> simp [playerFrame, videoElement, title, Tally.text, Tally.of]

/-! ### Lists -/

/-- The count of the text and the blocks of an item. -/
def Item.tally (s : Scene) (i : Item) : Nat := t.text s i.text + (i.blocks.map t.of).getD 0

def Group.tally (s : Scene) (g : Group) : Nat :=
  (g.terms.map fun term => t.text s term.text).sum + (g.description.map (Item.tally t s)).getD 0

theorem Item.tally_eq (i : Item) :
    i.tally t s = t.text s i.text + t.lines i.blockLines := by
  unfold Item.tally Item.blockLines
  cases i.blocks <;> simp [Tally.lines, Tally.of]

theorem tally_body (i : Item) : t.lines (i.body s) = i.tally t s := by
  rw [Item.tally_eq]
  by_cases h : i.text.any (!·.isEmpty) = true
  · simp [Item.body, h, Item.textMarkup, Tally.lines, Tally.text, Tally.of, Nat.mul_add]
    omega
  · simp [Item.body, h, runningText_of_blank h, Tally.lines, Tally.text, Tally.of]

theorem tally_listElement {mark : Markup} (hmark : innerOf false mark = 0) (i : Item) :
    t.of (i.listElement s mark) = i.tally t s := by
  rw [Item.tally_eq]
  simp [Item.listElement, Item.textMarkup, hmark, Tally.lines, Tally.text, Tally.of, Nat.mul_add]
  omega

theorem tally_calloutItem (i : Item) : t.of (calloutItem s i) = i.tally t s := by
  rw [Item.tally_eq]
  simp [calloutItem, Item.textMarkup, Tally.lines, Tally.text, Tally.of, Nat.mul_add]
  omega

/-- A list whose items are rendered one by one, below its title. -/
theorem tally_orderedList (items : List Item) : t.of (orderedList s n items) =
    t.text s n.title + (items.map (Item.tally t s)).sum := by
  have hitem : ∀ i : Item, t.of (i.listElement s []) = i.tally t s := tally_listElement t rfl
  have hitems := t.lines_sequence hitem items
  simp only [Tally.lines] at hitems
  simp [orderedList, listTitle, listBox, title, Tally.text, Tally.of, Nat.mul_add, ← hitems]
  omega

theorem innerOf_checkMark (i : Item) : innerOf inside (checkMark s n i) = 0 := by
  have hmarks : innerOf inside (checkMarks s n).1 = 0 ∧ innerOf inside (checkMarks s n).2 = 0 := by
    unfold checkMarks
    split
    · simp
    · split <;> simp
  unfold checkMark
  split
  · split
    · exact hmarks.1
    · exact hmarks.2
  · rfl

theorem tally_unorderedList (items : List Item) : t.of (unorderedList s n items) =
    t.text s n.title + (items.map (Item.tally t s)).sum := by
  have hitem : ∀ i : Item, t.of (i.listElement s (checkMark s n i)) = i.tally t s :=
    fun i => tally_listElement t (innerOf_checkMark i) i
  have hitems := t.lines_sequence hitem items
  simp only [Tally.lines] at hitems
  simp [unorderedList, listTitle, listBox, title, Tally.text, Tally.of, Nat.mul_add, ← hitems]
  omega

theorem innerOf_calloutLabel (number : Nat) : innerOf inside (calloutLabel s number) = 0 := by
  simp only [calloutLabel]
  split <;> simp

theorem tally_calloutRows (number : Nat) (items : List Item) :
    t.lines (calloutRows s number items) = (items.map (Item.tally t s)).sum := by
  induction items generalizing number with
  | nil => rfl
  | cons i rest ih =>
    rw [List.map_cons, List.sum_cons, Item.tally_eq, ← ih (number + 1)]
    simp [calloutRows, innerOf_calloutLabel, Item.textMarkup, Tally.lines, Tally.text, Tally.of,
      Nat.mul_add]
    omega

theorem tally_calloutList (items : List Item) : t.of (calloutList s n items) =
    t.text s n.title + (items.map (Item.tally t s)).sum := by
  have hrows := tally_calloutRows (s := s) t 1 items
  have hitems := t.lines_sequence (tally_calloutItem t (s := s)) items
  simp only [Tally.lines] at hrows hitems
  by_cases hicons : s.icons = true
  · rw [← hrows]
    simp [calloutList, hicons, listTitle, listBox, title, Tally.text, Tally.of, Nat.mul_add]
    omega
  · rw [← hitems]
    simp [calloutList, hicons, listTitle, listBox, title, Tally.text, Tally.of, Nat.mul_add]
    omega

theorem tally_termTexts (g : Group) :
    t.lines (termTexts s g) = (g.terms.map fun term => t.text s term.text).sum :=
  t.lines_sequence (fun _ => rfl) g.terms

theorem tally_descriptionLines (g : Group) :
    t.lines (descriptionLines s g) = (g.description.map (Item.tally t s)).getD 0 := by
  unfold descriptionLines
  cases g.description with
  | some i => exact tally_body t i
  | none => simp [Tally.lines]

theorem Group.tally_eq (g : Group) :
    g.tally t s = t.lines (termTexts s g) + t.lines (descriptionLines s g) := by
  rw [Group.tally, tally_termTexts, tally_descriptionLines]

theorem tally_questionItem (g : Group) : t.of (questionItem s g) = g.tally t s := by
  have hwrap : ∀ terms : List Markup, innerOf false
      (terms.map fun term => [Html.element .p [] [.element .em [] term]]).flatten =
        innerOf false terms.flatten :=
    innerOf_flatten_wrap fun term => by simp
  rw [Group.tally_eq]
  simp [questionItem, hwrap, Tally.lines, Tally.of, Nat.mul_add]
  omega

theorem tally_horizontalRow (g : Group) : t.of (horizontalRow s n g) = g.tally t s := by
  have hbreaks : ∀ terms : List Markup,
      innerOf false (terms.intersperse [.void .br []]).flatten = innerOf false terms.flatten :=
    innerOf_intercalate rfl
  rw [Group.tally_eq]
  simp [horizontalRow, hbreaks, Tally.lines, Tally.of, Nat.mul_add]
  omega

theorem tally_termLines (g : Group) : t.lines (termLines s n g) = g.tally t s := by
  have hwrap : ∀ (attrs : List Attr) (terms : List Markup), innerOf false
      (terms.map fun term => [Html.element .dt attrs term]).flatten =
        innerOf false terms.flatten :=
    fun _ => innerOf_flatten_wrap fun term => by simp
  rw [Group.tally_eq]
  cases hd : g.description with
  | some i =>
    simp [termLines, hwrap, hd, Tally.lines, Nat.mul_add]
    omega
  | none =>
    simp [termLines, hwrap, hd, descriptionLines, Tally.lines]

theorem tally_descriptionList (groups : List Group) : t.of (descriptionList s n groups) =
    t.text s n.title + (groups.map (Group.tally t s)).sum := by
  have hquestions := t.lines_sequence (tally_questionItem t (s := s)) groups
  have hrows := t.lines_sequence (tally_horizontalRow t (s := s) (n := n)) groups
  have hlines := t.lines_sequence_flatten (tally_termLines t (s := s) (n := n)) groups
  have hcolumns : innerOf false (horizontalColumns n).flatten = 0 := by
    simp only [horizontalColumns]
    cases n.attr? "labelwidth" <;> cases n.attr? "itemwidth" <;> simp
  simp only [Tally.lines, Rendered.value_map, Rendered.warnings_map] at hquestions hrows hlines
  simp only [descriptionList]
  split
  · rw [← hquestions]
    simp [listTitle, listBox, title, Tally.text, Tally.of, Nat.mul_add]
    omega
  · rw [← hrows]
    simp [listTitle, listBox, hcolumns, title, Tally.text, Tally.of, Nat.mul_add]
    omega
  · rw [← hlines]
    simp [listTitle, listBox, title, Tally.text, Tally.of, Nat.mul_add]
    omega

/-! ### Tables -/

/-- The count of a cell, its blocks being rendered. -/
def RenderedCell.tally (s : Scene) (head : Bool) (c : RenderedCell) : Nat :=
  match head, c.cell.style, c.cell.source with
  | false, .asciidoc, _ => t.of c.blocks
  | false, .literal, some _ => 0
  | _, _, _ => (c.cell.paragraphs.map fun p => t.text s (some p)).sum

theorem tally_paragraphTexts (c : Cell Node) :
    t.lines (paragraphTexts s c) = (c.paragraphs.map fun p => t.text s (some p)).sum :=
  t.lines_sequence (fun _ => rfl) c.paragraphs

theorem tally_cellParagraphs (c : Cell Node) {wrap : Markup → Markup}
    (hw : ∀ m, innerOf false (wrap m) = innerOf false m) :
    t.of (cellParagraphs s c wrap) = (c.paragraphs.map fun p => t.text s (some p)).sum := by
  have hwrap : ∀ texts : List Markup, innerOf false
      (texts.map fun m => [Html.element .p [attr .classes "table"] (wrap m)]).flatten =
        innerOf false texts.flatten :=
    innerOf_flatten_wrap fun m => by simp [hw]
  rw [← tally_paragraphTexts t c]
  simp [cellParagraphs, hwrap, Tally.of, Tally.lines]

theorem tally_cellContent (head : Bool) (c : RenderedCell) :
    t.of (cellContent s head c) = c.tally t s head := by
  have htexts := tally_paragraphTexts (s := s) t c.cell
  simp only [Tally.lines] at htexts
  cases head with
  | true =>
    rw [RenderedCell.tally, ← htexts]
    · simp [cellContent, Tally.of]
    · nofun
    · nofun
  | false =>
    cases hstyle : c.cell.style
    case asciidoc => simp [cellContent, RenderedCell.tally, hstyle, Tally.of]
    case literal =>
      cases hsource : c.cell.source with
      | some source => simp [cellContent, RenderedCell.tally, hstyle, hsource, Tally.of]
      | none => simp [cellContent, RenderedCell.tally, hstyle, hsource, Tally.of, ← htexts]
    all_goals
      simp [cellContent, RenderedCell.tally, hstyle, tally_cellParagraphs]

theorem tally_cellElement (head : Bool) (c : RenderedCell) :
    t.of (cellElement s head c) = c.tally t s head := by
  rw [← tally_cellContent t head c]
  simp only [cellElement, Tally.of, Rendered.value_bind, Rendered.value_pure]
  split <;> simp

theorem tally_rowElement (head : Bool) (row : List RenderedCell) :
    t.of (rowElement s head row) = (row.map (RenderedCell.tally t s head)).sum := by
  rw [← t.lines_sequence (tally_cellElement t (s := s) head) row]
  simp [rowElement, Tally.of, Tally.lines]

def rowsTally (s : Scene) (head : Bool) (rows : List (List RenderedCell)) : Nat :=
  (rows.map fun row => (row.map (RenderedCell.tally t s head)).sum).sum

theorem tally_groupElement (group : RowGroup) (rows : List (List RenderedCell)) :
    t.lines (groupElement s group rows) = rowsTally t s (group == .head) rows := by
  have htag : groupTag group ≠ .a := by cases group <;> decide
  unfold groupElement
  by_cases hempty : rows = []
  · subst hempty
    rfl
  · rw [rowsTally, ← t.lines_sequence (tally_rowElement t (s := s) (group == .head)) rows]
    simp [hempty, htag, Tally.lines]

def Grid.tally (s : Scene) (g : Grid) : Nat :=
  rowsTally t s true g.head + rowsTally t s false g.body + rowsTally t s false g.foot

theorem tally_gridLines (d : NodeData) (g : Grid) : t.lines (gridLines s d g) = g.tally t s := by
  have hcolumns : ∀ autowidth,
      innerOf false (g.columns.map (columnMarkup autowidth)).flatten = 0 := by
    intro autowidth
    have hcolumn : ∀ c : Column, innerOf false (columnMarkup autowidth c) = innerOf false [] := by
      intro c
      simp only [columnMarkup]
      split
      · split <;> simp
      · simp
    rw [innerOf_flatten_map hcolumn]
    simp
  have hhead := tally_groupElement (s := s) t .head g.head
  have hbody := tally_groupElement (s := s) t .body g.body
  have hfoot := tally_groupElement (s := s) t .foot g.foot
  simp only [Tally.lines] at hhead hbody hfoot
  by_cases hempty : g.rowCount = 0
  · obtain ⟨⟨hnohead, hnobody⟩, hnofoot⟩ : (g.head = [] ∧ g.body = []) ∧ g.foot = [] := by
      simpa [Grid.rowCount] using hempty
    simp [gridLines, hempty, Grid.tally, rowsTally, hnohead, hnobody, hnofoot, Tally.lines]
  · have htallies : g.tally t s = rowsTally t s (RowGroup.head == .head) g.head +
        rowsTally t s (RowGroup.body == .head) g.body +
          rowsTally t s (RowGroup.foot == .head) g.foot := rfl
    rw [htallies, ← hhead, ← hbody, ← hfoot]
    simp [gridLines, hempty, hcolumns, Tally.lines, Nat.mul_add]
    omega

theorem tally_table (grid : Option Grid) : t.of (table s n grid) =
    t.text s n.title + (grid.map (Grid.tally t s)).getD 0 := by
  have hgrid : ∀ g, t.inner * innerOf false (gridLines s n.data g).value.flatten +
      (gridLines s n.data g).warnings.countP t.counted = g.tally t s := tally_gridLines t n.data
  by_cases h : n.hasTitle = true
  · cases grid with
    | none => simp [table, h, title, Tally.of, Tally.text]
    | some g =>
      simp [table, h, title, Tally.of, Tally.text, ← hgrid g, Nat.mul_add]
      omega
  · have htitle : runningText s (n.title.getD []) = pure [] := title_of_not h
    cases grid with
    | none => simp [table, h, htitle, Tally.of, Tally.text]
    | some g => simp [table, h, htitle, Tally.of, Tally.text, ← hgrid g]

end

end Block

end DocPress
