import DocPress.Page.Basic
import DocPress.Proofs.Agreement
import DocPress.Proofs.Walk

/-! Scenes that answer alike and hold the same catalog make the same blocks, once they make the same
listings, for those alone ask the highlighter. If they hold the same tree too, they make the same
pages: it does not matter where an attribute is set. -/

namespace DocPress

set_option autoImplicit false

/-- Two scenes that give the same answers to all blocks but listings. -/
structure Scene.Alike (s t : Scene) : Prop extends s.Agree t where
  rootTarget : s.doc.rootTarget = t.doc.rootTarget
  header : s.doc.header = t.doc.header
  catalog : s.doc.catalog = t.doc.catalog
  book : Block.isBook s = Block.isBook t
  chrome : s.options.chrome = t.options.chrome

/-- Two scenes that differ only in where their attributes are set. -/
structure Scene.Twin (s t : Scene) : Prop extends s.Alike t where
  root : s.doc.root = t.doc.root
  highlighter : s.highlighter = t.highlighter

namespace Scene.Alike

variable {s t : Scene} (h : s.Alike t)

include h

/-! ### References -/

theorem docTitle : s.doc.title? = t.doc.title? := by
  simp only [Document.title?, h.header]

theorem target? : Reference.target? s = Reference.target? t := by
  funext id
  simp only [Reference.target?, h.catalog, h.rootTarget]

theorem bracketed : Reference.bracketed s = Reference.bracketed t := by
  funext id
  simp only [Reference.bracketed, h.catalog]

theorem plainWording : Reference.plainWording s = Reference.plainWording t := by
  funext _ id
  simp only [Reference.plainWording, h.bracketed]

theorem offered : Reference.offered s = Reference.offered t := by
  funext target style
  simp only [Reference.offered, Reference.sectionWords, Reference.signed, h.attr?,
    h.plainWording, h.inlines]

theorem wording : Reference.wording s = Reference.wording t := by
  funext d id
  simp only [Reference.wording, Reference.wordsFor, h.nodeAttr?, h.target?, h.offered,
    h.bracketed]

theorem runningText : DocPress.runningText s = DocPress.runningText t := by
  funext ns
  simp only [DocPress.runningText, h.wording, h.inlines]

/-! ### Parts of blocks -/

theorem title : Block.title s = Block.title t := by
  funext n
  simp only [Block.title, h.runningText]

theorem captionedTitle : Block.captionedTitle s = Block.captionedTitle t := by
  funext n
  simp only [Block.captionedTitle, h.title]

theorem titleLine : Block.titleLine s = Block.titleLine t := by
  funext n captioned
  simp only [Block.titleLine, h.title, h.captionedTitle]

theorem verbatim : Block.verbatim s = Block.verbatim t := by
  funext n
  simp only [Block.verbatim, h.runningText]

/-! ### Prose -/

theorem numberLevels : Block.numberLevels s = Block.numberLevels t := by
  simp only [Block.numberLevels, h.attr?]

theorem heading : Block.heading s = Block.heading t := by
  funext n
  simp only [Block.heading, h.numberLevels, h.title, h.captionedTitle]

theorem linkedHeading : Block.linkedHeading s = Block.linkedHeading t := by
  funext id heading
  simp only [Block.linkedHeading, h.hasAttr, h.attrIs]

theorem sectionBlock : Block.sectionBlock s = Block.sectionBlock t := by
  funext n content
  simp only [Block.sectionBlock, h.heading, h.linkedHeading]

theorem paragraph : Block.paragraph s = Block.paragraph t := by
  funext n content
  simp only [Block.paragraph, h.title]

theorem admonition : Block.admonition s = Block.admonition t := by
  funext n content
  simp only [Block.admonition, Block.admonitionLabel, h.titleLine, h.icons, h.fontIcons,
    h.iconUri]

theorem exampleBlock : Block.exampleBlock s = Block.exampleBlock t := by
  funext n content
  simp only [Block.exampleBlock, h.title, h.titleLine]

theorem floatingTitle : Block.floatingTitle s = Block.floatingTitle t := by
  funext n
  simp only [Block.floatingTitle, h.title]

theorem quote : Block.quote s = Block.quote t := by
  funext n content
  simp only [Block.quote, h.titleLine]

theorem verse : Block.verse s = Block.verse t := by
  funext n
  simp only [Block.verse, h.titleLine, h.verbatim]

theorem sidebar : Block.sidebar s = Block.sidebar t := by
  funext n content
  simp only [Block.sidebar, h.titleLine]

theorem openBlock : Block.openBlock s = Block.openBlock t := by
  funext n parent content
  simp only [Block.openBlock, Block.abstractBlock, h.book, h.titleLine]

/-! ### Verbatim blocks and media -/

theorem isNowrap : Block.isNowrap s = Block.isNowrap t := by
  funext d
  simp only [Block.isNowrap, h.hasAttr]

theorem listing (hlighter : s.highlighter = t.highlighter) :
    Block.listing s = Block.listing t := by
  funext n
  simp only [Block.listing, Block.listingBody, Block.listingStyle, h.isNowrap, h.attr?,
    hlighter, h.verbatim, h.titleLine]

/-- A listing that is not source does not ask the highlighter. -/
theorem plainListing {n : Node} (hn : n.style ≠ some "source") :
    Block.listing s n = Block.listing t n := by
  simp only [Block.listing, Block.listingBody, hn, if_false, h.isNowrap, h.verbatim, h.titleLine]

theorem literalBlock : Block.literalBlock s = Block.literalBlock t := by
  funext n
  simp only [Block.literalBlock, h.isNowrap, h.verbatim, h.titleLine]

theorem stem : Block.stem s = Block.stem t := by
  funext n
  simp only [Block.stem, Block.stemStyle, h.attr?, h.verbatim, h.titleLine]

theorem audio : Block.audio s = Block.audio t := by
  funext n
  simp only [Block.audio, h.titleLine, h.imageUri]

theorem imageBlock : Block.image s = Block.image t := by
  funext n
  simp only [Block.image, h.picture, h.titleLine]

theorem video : Block.video s = Block.video t := by
  funext n
  simp only [Block.video, Block.playerFrame, Block.videoElement, h.titleLine, h.assetScheme,
    h.imageUri]

/-! ### Lists -/

theorem itemText : Block.Item.textMarkup s = Block.Item.textMarkup t := by
  funext i
  simp only [Block.Item.textMarkup, h.runningText]

theorem itemBody : Block.Item.body s = Block.Item.body t := by
  funext i
  simp only [Block.Item.body, h.itemText]

theorem listElement : Block.Item.listElement s = Block.Item.listElement t := by
  funext mark i
  simp only [Block.Item.listElement, h.itemText]

theorem listTitle : Block.listTitle s = Block.listTitle t := by
  funext n
  simp only [Block.listTitle, h.titleLine]

theorem orderedList : Block.orderedList s = Block.orderedList t := by
  funext n items
  simp only [Block.orderedList, h.listTitle, h.listElement]

theorem unorderedList : Block.unorderedList s = Block.unorderedList t := by
  funext n items
  simp only [Block.unorderedList, Block.checkMark, Block.checkMarks, h.fontIcons, h.listTitle,
    h.listElement]

theorem calloutLabel : Block.calloutLabel s = Block.calloutLabel t := by
  funext number
  simp only [Block.calloutLabel, h.fontIcons, h.iconUri]

theorem calloutRows (number : Nat) (items : List Block.Item) :
    Block.calloutRows s number items = Block.calloutRows t number items := by
  induction items generalizing number with
  | nil => rfl
  | cons i rest ih => simp only [Block.calloutRows, h.itemText, h.calloutLabel, ih]

theorem calloutItem : Block.calloutItem s = Block.calloutItem t := by
  funext i
  simp only [Block.calloutItem, h.itemText]

theorem calloutList : Block.calloutList s = Block.calloutList t := by
  funext n items
  simp only [Block.calloutList, h.listTitle, h.icons, h.calloutRows, h.calloutItem]

theorem descriptionList : Block.descriptionList s = Block.descriptionList t := by
  have hterms : Block.termTexts s = Block.termTexts t := by
    funext g
    have hterm : Block.termText s = Block.termText t := by
      funext term
      simp only [Block.termText, h.runningText]
    simp only [Block.termTexts, hterm]
  have hlines : Block.descriptionLines s = Block.descriptionLines t := by
    funext g
    simp only [Block.descriptionLines, h.itemBody]
  have hquestion : Block.questionItem s = Block.questionItem t := by
    funext g
    simp only [Block.questionItem, hterms, hlines]
  have hrow : Block.horizontalRow s = Block.horizontalRow t := by
    funext n g
    simp only [Block.horizontalRow, hterms, hlines]
  have hterm : Block.termLines s = Block.termLines t := by
    funext n g
    simp only [Block.termLines, hterms, hlines]
  funext n groups
  simp only [Block.descriptionList, h.listTitle, hquestion, hrow, hterm]

/-! ### Tables -/

theorem cellContent : Block.cellContent s = Block.cellContent t := by
  have htexts : Block.paragraphTexts s = Block.paragraphTexts t := by
    funext c
    simp only [Block.paragraphTexts, h.runningText]
  funext head c
  simp only [Block.cellContent, Block.cellParagraphs, htexts]

theorem rowElement : Block.rowElement s = Block.rowElement t := by
  have hcell : Block.cellElement s = Block.cellElement t := by
    funext head c
    simp only [Block.cellElement, h.cellContent, h.attr?]
  funext head row
  simp only [Block.rowElement, hcell]

theorem table : Block.table s = Block.table t := by
  have hgroup : Block.groupElement s = Block.groupElement t := by
    funext group rows
    simp only [Block.groupElement, h.rowElement]
  have hattrs : Block.tableAttrs s = Block.tableAttrs t := by
    funext d
    simp only [Block.tableAttrs, Block.tableClasses, h.nodeAttr?]
  funext n grid
  simp only [Block.table, Block.gridLines, hgroup, hattrs, h.captionedTitle]

end Scene.Alike

/-! ### The tree -/

/-- Whether two scenes make the same of the listings among some nodes. -/
abbrev Scene.SameListings (s t : Scene) (ns : List Node) : Prop :=
  ∀ n ∈ ns, n.kind = .listing → Block.listing s n = Block.listing t n

namespace Scene.Alike

variable {s t : Scene}

theorem below_blocks {n : Node} (hn : s.SameListings t n.walk) :
    s.SameListings t (Node.walkAll n.blocks) := by
  intro m hm
  exact hn m (by rw [Node.walk_eq]; simp [hm])

/-- The rules of a kind, for a node whose parts are rendered alike. -/
theorem blockAs_of (h : s.Alike t) (kind : Kind) (parent : Option Parent) {n : Node}
    (hlisting : kind = .listing → Block.listing s n = Block.listing t n)
    (hcontent : DocPress.content s n.data n.text n.blocks =
      DocPress.content t n.data n.text n.blocks)
    (hitems : DocPress.itemsOf s n.items = DocPress.itemsOf t n.items)
    (hgroups : DocPress.groupsOf s n.entries = DocPress.groupsOf t n.entries)
    (hgrid : DocPress.gridOf s n.data.asParent n.table = DocPress.gridOf t n.data.asParent n.table)
    (hblocks : DocPress.blocksOf? s n.data.asParent n.blocks =
      DocPress.blocksOf? t n.data.asParent n.blocks) :
    DocPress.blockAs s kind parent n = DocPress.blockAs t kind parent n := by
  obtain ⟨d, title, text, items, entries, blocks, table⟩ := n
  simp only at hcontent hitems hgroups hgrid hblocks
  unfold DocPress.blockAs
  cases kind <;> simp only [hcontent, hitems, hgroups, hgrid, hblocks,
    h.sectionBlock, h.paragraph, h.admonition, h.audio, h.calloutList, h.descriptionList,
    h.exampleBlock, h.floatingTitle, h.imageBlock, h.literalBlock, h.stem,
    h.orderedList, h.openBlock, h.quote, h.sidebar, h.table, h.unorderedList, h.verse,
    h.video, h.itemBody]
  case listing => exact hlisting rfl
  case pass =>
    split
    · rfl
    · exact hcontent

mutual

theorem blockAs (h : s.Alike t) : ∀ (n : Node) (parent : Option Parent),
    s.SameListings t n.walk →
      DocPress.blockAs s n.data.kind parent n = DocPress.blockAs t n.data.kind parent n
  | ⟨d, _, text, items, entries, blocks, table⟩, parent => by
    intro hn
    simp only [Scene.SameListings, Node.walk, List.mem_cons, List.mem_append, or_imp, forall_and,
      forall_eq] at hn
    obtain ⟨hself, ⟨⟨⟨-, hitems⟩, hentries⟩, hblocks⟩, htable⟩ := hn
    exact h.blockAs_of d.kind parent hself (content h d text blocks hblocks)
      (itemsOf h items hitems) (groupsOf h entries hentries) (gridOf h d.asParent table htable)
      (blocksOf? h d.asParent blocks hblocks)

theorem siblings (h : s.Alike t) (parent : Option Parent) : ∀ ns : List Node,
    s.SameListings t (Node.walkAll ns) →
      DocPress.siblings s parent ns = DocPress.siblings t parent ns
  | [] => fun _ => by simp only [DocPress.siblings]
  | n :: ns => fun hns => by
    simp only [Scene.SameListings, Node.walkAll, List.forall_mem_append] at hns
    simp only [DocPress.siblings, blockAs h n parent hns.1, siblings h parent ns hns.2]

theorem content (h : s.Alike t) (d : NodeData) (text : Option (List Node)) :
    ∀ blocks : List Node, s.SameListings t (Node.walkAll blocks) →
      DocPress.content s d text blocks = DocPress.content t d text blocks
  | [] => fun _ => by simp only [DocPress.content, h.wording, h.inlineContent]
  | b :: bs => fun hb => by
    simp only [Scene.SameListings, Node.walkAll, List.forall_mem_append] at hb
    simp only [DocPress.content, blockAs h b (some d.asParent) hb.1,
      siblings h (some d.asParent) bs hb.2]

theorem blocksOf? (h : s.Alike t) (parent : Parent) : ∀ blocks : List Node,
    s.SameListings t (Node.walkAll blocks) →
      DocPress.blocksOf? s parent blocks = DocPress.blocksOf? t parent blocks
  | [] => fun _ => by simp only [DocPress.blocksOf?]
  | b :: bs => fun hb => by
    simp only [Scene.SameListings, Node.walkAll, List.forall_mem_append] at hb
    simp only [DocPress.blocksOf?, blockAs h b (some parent) hb.1,
      siblings h (some parent) bs hb.2]

theorem itemsOf (h : s.Alike t) : ∀ items : List Node,
    s.SameListings t (Node.walkAll items) →
      DocPress.itemsOf s items = DocPress.itemsOf t items
  | [] => fun _ => by simp only [DocPress.itemsOf]
  | ⟨d, _, _, _, _, blocks, _⟩ :: rest => fun hi => by
    simp only [Scene.SameListings, Node.walkAll, List.forall_mem_append] at hi
    have hblocks := blocksOf? h d.asParent blocks (below_blocks hi.1)
    simp only [DocPress.itemsOf, hblocks, itemsOf h rest hi.2]

theorem groupsOf (h : s.Alike t) : ∀ entries : List (Entry Node),
    s.SameListings t (Node.walkEntries entries) →
      DocPress.groupsOf s entries = DocPress.groupsOf t entries
  | [] => fun _ => by simp only [DocPress.groupsOf]
  | ⟨_, none⟩ :: rest => fun he => by
    simp only [Scene.SameListings, Node.walkEntries, List.forall_mem_append] at he
    simp only [DocPress.groupsOf, groupsOf h rest he.2]
  | ⟨_, some ⟨d, _, _, _, _, blocks, _⟩⟩ :: rest => fun he => by
    simp only [Scene.SameListings, Node.walkEntries, List.forall_mem_append] at he
    have hblocks := blocksOf? h d.asParent blocks (below_blocks he.1.2)
    simp only [DocPress.groupsOf, hblocks, groupsOf h rest he.2]

theorem gridOf (h : s.Alike t) (parent : Parent) : ∀ table : Option (Table Node),
    s.SameListings t (Node.walkTable table) →
      DocPress.gridOf s parent table = DocPress.gridOf t parent table
  | none => fun _ => by simp only [DocPress.gridOf]
  | some ⟨_, head, body, foot⟩ => fun ht => by
    simp only [Scene.SameListings, Node.walkTable, List.forall_mem_append] at ht
    simp only [DocPress.gridOf, rowsOf h parent head ht.1.1, rowsOf h parent body ht.1.2,
      rowsOf h parent foot ht.2]

theorem rowsOf (h : s.Alike t) (parent : Parent) : ∀ rows : List (List (Cell Node)),
    s.SameListings t (Node.walkRows rows) →
      DocPress.rowsOf s parent rows = DocPress.rowsOf t parent rows
  | [] => fun _ => by simp only [DocPress.rowsOf]
  | r :: rs => fun hr => by
    simp only [Scene.SameListings, Node.walkRows, List.forall_mem_append] at hr
    simp only [DocPress.rowsOf, rowOf h parent r hr.1, rowsOf h parent rs hr.2]

theorem rowOf (h : s.Alike t) (parent : Parent) : ∀ cells : List (Cell Node),
    s.SameListings t (Node.walkRow cells) →
      DocPress.rowOf s parent cells = DocPress.rowOf t parent cells
  | [] => fun _ => by simp only [DocPress.rowOf]
  | ⟨_, _, blocks, _, _, _, _, _⟩ :: cs => fun hc => by
    simp only [Scene.SameListings, Node.walkRow, List.forall_mem_append] at hc
    simp only [DocPress.rowOf, siblings h (some parent) blocks hc.1.2, rowOf h parent cs hc.2]

end

/-! ### Pages -/

variable (h : s.Alike t)

include h

theorem headLines : Page.headLines s = Page.headLines t := by
  have hsheet : Page.stylesheet s = Page.stylesheet t := by
    simp only [Page.stylesheet, Page.readStylesheet, h.attr?, h.hasAttr, h.assetScheme,
      h.basePath, h.files]
  have hfont : Page.iconFont s = Page.iconFont t := by
    simp only [Page.iconFont, h.attr?, h.hasAttr, h.cdnBaseUrl, h.fontIcons]
  have hown : Page.descriptions s = Page.descriptions t ∧ Page.favicon s = Page.favicon t ∧
      Page.titleText s = Page.titleText t := by
    simp only [Page.descriptions, Page.favicon, Page.titleText, h.attr?, h.docTitle, and_self]
  simp only [Page.headLines, hsheet, hfont, hown, h.hasAttr]

theorem lang : Page.lang s = Page.lang t := by
  simp only [Page.lang, h.attr?]

theorem maxWidth : Page.maxWidth s = Page.maxWidth t := by
  simp only [Page.maxWidth, h.attr?]

theorem pageHeader : Page.header s = Page.header t := by
  simp only [Page.header, Document.headerOrBlank, h.header, h.hasAttr, h.docTitle, h.runningText,
    h.chrome, h.lang]

theorem footnotes : Page.footnotes s = Page.footnotes t := by
  have hnote : Page.footnote s = Page.footnote t := by
    funext f
    simp only [Page.footnote, h.runningText]
  have hany : s.doc.hasFootnotes = t.doc.hasFootnotes := by
    simp only [Document.hasFootnotes, h.catalog]
  simp only [Page.footnotes, hany, hnote, h.maxWidth, h.catalog, h.hasAttr]

/-- The lines of a page are the same if the blocks of the trees are. -/
theorem bodyLines (hbody : Page.body s = Page.body t) : Page.bodyLines s = Page.bodyLines t := by
  simp only [Page.bodyLines, h.maxWidth, h.pageHeader, hbody, h.footnotes, h.hasAttr, h.chrome,
    h.lang]

end Scene.Alike

namespace Scene.Twin

variable {s t : Scene} (h : s.Twin t)

include h

theorem body : Page.body s = Page.body t := by
  have hblocks := h.toAlike.siblings (some t.doc.root.data.asParent) t.doc.root.blocks
    fun n _ _ => congrFun (h.toAlike.listing h.highlighter) n
  simp only [Page.body, blocksIn, h.root, hblocks]

theorem embedded : Page.embedded s = Page.embedded t := by
  simp only [Page.embedded, h.docTitle, h.hasAttr, h.runningText, h.root, h.body]

/-- Pages are the same when the highlighter adds the same to them. -/
theorem standalone (hhead : Page.highlighterHead s = Page.highlighterHead t)
    (hfoot : Page.highlighterFooter s = Page.highlighterFooter t) :
    Page.standalone s = Page.standalone t := by
  simp only [Page.standalone, h.headLines, h.bodyLines h.body, h.hasAttr, h.lang, h.root, hhead,
    hfoot]

end Scene.Twin

end DocPress
