import DocPress.Highlighter.HighlightJs
import DocPress.Page.Basic
import DocPress.Proofs.DrawnTree

/-! Pages are drawn: the head and the frame by templates of their own, the rest from the document.
What highlighters add is drawn too, as far as they are the ones defined here. -/

namespace DocPress

set_option autoImplicit false

variable {P : Palette} {s : Scene} {ds : List NodeData}

/-! ### Highlighters -/

namespace CodeTags

/-- Whether the names of a list of attributes are those of code elements. -/
def NamesKnown (list : AttrList) : Prop := ∀ e ∈ list, e.1 ∈ codeNames

theorem namesKnown_set {list : AttrList} (h : NamesKnown list) {name : String}
    (hname : name ∈ codeNames) (value : String) : NamesKnown (list.set name value) := by
  induction list with
  | nil =>
    intro e he
    obtain rfl := List.mem_singleton.1 he
    exact hname
  | cons e rest ih =>
    have hrest : NamesKnown rest := fun x hx => h x (List.mem_cons_of_mem e hx)
    obtain ⟨k, v⟩ := e
    have hk : k ∈ codeNames := h (k, v) List.mem_cons_self
    simp only [AttrList.set]
    split
    · exact List.forall_mem_cons.2 ⟨hk, hrest⟩
    · exact List.forall_mem_cons.2 ⟨hk, ih hrest⟩

theorem namesKnown_langLast {list : AttrList} (h : NamesKnown list) :
    NamesKnown (langLast list) := by
  unfold langLast
  split
  · rename_i entry hentry
    refine List.forall_mem_append.2 ⟨fun e he => h e (List.mem_of_mem_eraseP he), ?_⟩
    intro e he
    obtain rfl := List.mem_singleton.1 he
    exact h e (List.mem_of_find?_eq_some hentry)
  · exact h

theorem ordinary_attrsOf {list : AttrList} (h : NamesKnown list) :
    OrdinaryAttrs P (attrsOf list) := by
  intro a ha
  obtain ⟨e, he, rfl⟩ := List.mem_map.1 ha
  exact ordinary_attr.2 ⟨h e he, nofun⟩

/-- Tags whose attributes all have names of code elements. -/
structure Known (tags : CodeTags) : Prop where
  pre : NamesKnown tags.pre
  code : NamesKnown tags.code

theorem Known.new (preClass : String) (lang : Option String) (nowrap : Bool) :
    (CodeTags.new preClass lang nowrap).Known := by
  have hpre :
      NamesKnown [("class", preClass ++ " highlight" ++ if nowrap then " nowrap" else "")] :=
    fun e he => List.mem_singleton.1 he ▸ by simp [codeNames]
  have hcode : NamesKnown [] := by simp [NamesKnown]
  cases lang with
  | none => exact ⟨hpre, hcode⟩
  | some lang => exact ⟨hpre, namesKnown_set hcode (by simp [codeNames, langName]) lang⟩

theorem Known.setCode {tags : CodeTags} (h : tags.Known) {name : String} (hname : name ∈ codeNames)
    (value : String) : (tags.setCode name value).Known :=
  ⟨h.pre, namesKnown_set h.code hname value⟩

theorem Known.setPre {tags : CodeTags} (h : tags.Known) {name : String} (hname : name ∈ codeNames)
    (value : String) : (tags.setPre name value).Known :=
  ⟨namesKnown_set h.pre hname value, h.code⟩

theorem wrap_drawn {tags : CodeTags} (h : tags.Known) {content : Markup}
    (hc : Drawn P ds content) : Drawn P ds (tags.wrap content) :=
  .box (ordinary_attrsOf h.pre) (by decide)
    (.box (ordinary_attrsOf (namesKnown_langLast h.code)) (by decide) hc)

end CodeTags

/-- A highlighter that draws what it adds, from no node, and listings from their content. -/
structure Highlighter.Draws (h : Highlighter) (P : Palette) : Prop where
  format : ∀ (n : Node) (lang : Option String) (style : ListingStyle) {ds : List NodeData}
    {content : Markup}, Drawn P ds content → Drawn P ds (h.format n lang content style)
  head : ∀ (d : Document) (ctx : AssetContext) (m : Markup), h.head d ctx = some m → Drawn P [] m
  footer : ∀ (d : Document) (ctx : AssetContext), Drawn P [] (h.footer d ctx)

theorem Highlighter.draws_ofName (name : String) : (Highlighter.ofName name).Draws P where
  format _ _ _ _ _ hc := CodeTags.wrap_drawn (.new _ _ _) hc
  head _ _ _ h := absurd h nofun
  footer _ _ := .nil

namespace HighlightJs

theorem format_eq (n : Node) (lang : Option String) (style : ListingStyle) :
    ∃ tags : CodeTags, tags.Known ∧ ∀ content, format n lang content style = tags.wrap content := by
  have hclass : "class" ∈ codeNames := by simp [codeNames]
  have hnoescape : "data-noescape" ∈ codeNames := by simp [codeNames]
  have hid : "data-id" ∈ codeNames := by simp [codeNames]
  have htrim : "data-trim" ∈ codeNames := by simp [codeNames]
  refine ⟨_, ?_, fun content => rfl⟩
  have hbase := ((CodeTags.Known.new highlighterName lang style.nowrap).setCode hclass
    ("language-" ++ lang.getD "none" ++ " hljs")).setCode hnoescape "true"
  cases n.attr? "data-id" with
  | none =>
    split
    · exact hbase.setCode htrim ""
    · exact hbase
  | some id =>
    split
    · exact (hbase.setPre hid id).setCode htrim ""
    · exact hbase.setPre hid id

theorem format_drawn (n : Node) (lang : Option String) (style : ListingStyle) {content : Markup}
    (hc : Drawn P ds content) : Drawn P ds (format n lang content style) := by
  obtain ⟨tags, hknown, hformat⟩ := format_eq n lang style
  rw [hformat]
  exact CodeTags.wrap_drawn hknown hc

theorem scriptAt_drawn (url : String) : Drawn P [] (scriptAt url) :=
  .box (by simp) (by decide) .nil

theorem footer_drawn (d : Document) (ctx : AssetContext) : Drawn P [] (footer d ctx) := by
  refine .lines (.leaves ?_)
  simp only [List.forall_mem_append, List.forall_mem_cons, List.forall_mem_map]
  exact ⟨⟨⟨.void (by simp), scriptAt_drawn _, List.forall_mem_nil _⟩, fun l _ => scriptAt_drawn _⟩,
    .box (by simp) (by decide) (.text _), List.forall_mem_nil _⟩

theorem draws : highlighter.Draws P where
  format n lang style _ _ hc := format_drawn n lang style hc
  head _ _ _ h := absurd h nofun
  footer := footer_drawn

end HighlightJs

namespace Page

/-! ### The frame -/

theorem navLink_drawn (l : NavLink) : Drawn P [] (navLink l) :=
  .consLeaf (.text _) (.link (by simp) (.href _ _) (.attrText _))

theorem navigation_drawn (links : Option (List NavLink)) (lang : String) :
    Drawn P [] (navigation links lang) := by
  refine .stack (by simp) (by decide) (.leaves fun m hm => ?_)
  obtain ⟨l, _, rfl⟩ := List.mem_map.1 hm
  exact navLink_drawn l

theorem licence_drawn (name : String) : Drawn P [] (licence name) := by
  refine .link (by simp) (.href _ _) (.consLeaf (.text _) (.concatLeaf
    (.intercalate (.text _) (.leaves fun m hm => ?_)) (.text _)))
  obtain ⟨badge, _, rfl⟩ := List.mem_map.1 hm
  exact .void (by simp)

theorem siteLink_drawn (href name : String) : Drawn P [] [siteLink href name] :=
  .link (by simp) (.property _ _) (.text _)

theorem siteAuthor_drawn : Drawn P [] [siteAuthor] := .box (by simp) (by decide) (.text _)

theorem footerLines_drawn (lang : String) :
    ∀ m ∈ (if lang = chinese then chineseFooter else englishFooter), Drawn P [] m := by
  split
  · simp only [chineseFooter, List.forall_mem_cons]
    exact ⟨siteLink_drawn _ _, .consLeaf (.text _) siteAuthor_drawn, .text _, licence_drawn _,
      .text _, nofun⟩
  · simp only [englishFooter, List.forall_mem_cons]
    exact ⟨.consLeaf (.text _) (siteLink_drawn _ _), .consLeaf (.text _) siteAuthor_drawn, .text _,
      licence_drawn _, nofun⟩

theorem footer_drawn {configured : Option String} (h : ∀ x, configured = some x → P.text x)
    (lang : String) : Drawn P [] (footer configured lang) := by
  unfold footer
  cases configured with
  | some x => exact .raw (h x rfl)
  | none =>
    refine .stack (by simp) (by decide) (.part (.consLeaf (.text _) (.box (by simp) (by decide)
      (.consLeaf (.text _) (.concatLeaf ?_ (.text _))))))
    rw [List.flatMap_def]
    refine .leaves fun m hm => ?_
    obtain ⟨l, hl, rfl⟩ := List.mem_map.1 hm
    exact .consLeaf (.text _) (.concatLeaf (footerLines_drawn lang l hl) (.text _))

/-! ### The head -/

theorem siteAssets_drawn : ∀ m ∈ siteAssets, Drawn P [] m := by
  simp only [siteAssets, fontLink, stylesheetLink, List.forall_mem_cons]
  exact ⟨.void (by simp), .void (by simp), .void (by simp), .void (by simp), .void (by simp),
    .void (by simp), .void (by simp), nofun⟩

theorem equationAssets_drawn : ∀ m ∈ equationAssets, Drawn P [] m := by
  simp only [equationAssets, deferredScript, List.forall_mem_cons]
  exact ⟨.void (by simp), .box (by simp) (by decide) .nil, .box (by simp) (by decide) .nil,
    .box (by simp) (by decide) .nil, nofun⟩

theorem descriptions_drawn (s : Scene) : ∀ m ∈ descriptions s, Drawn P [] m := by
  intro m hm
  obtain ⟨name, _, hname⟩ := List.mem_filterMap.1 hm
  obtain ⟨content, _, rfl⟩ := Option.map_eq_some_iff.1 hname
  exact .void (by simp)

/-- The extension of the icon that is named in its media type. -/
def faviconExtension? (s : Scene) : Option String :=
  (s.attr? "favicon").bind fun favicon =>
    Path.extension? (if favicon.isEmpty then "favicon.ico" else favicon)

theorem favicon_drawn (h : ∀ x, faviconExtension? s = some x → P.value x) :
    ∀ m ∈ favicon s, Drawn P [] m := by
  intro m hm
  unfold favicon at hm
  split at hm
  · simp at hm
  · rename_i favicon hf
    obtain rfl := List.mem_singleton.1 hm
    have hext : ∀ x, Path.extension? (if favicon.isEmpty then "favicon.ico" else favicon) = some x →
        P.value x := fun x hx => h x (by rw [faviconExtension?, hf]; exact hx)
    refine .void (ordinaryAttrs_cons.2 ⟨by simp, ordinaryAttrs_cons.2 ⟨?_, by simp⟩⟩)
    refine ⟨by simp [Attr.name], ?_, by simp [Attr.name]⟩
    unfold faviconType
    split
    · simp [Attr.rawValues, Piece.raw?]
    · rename_i x _ hx
      simpa [Attr.rawValues, Piece.raw?] using Palette.Value.own (hext x hx)
    · simp [Attr.rawValues, Piece.raw?]

def sheetText (s : Scene) (sheet : String) : String :=
  (readStylesheet s (Asset.join (s.attr? "stylesdir") sheet)).value

theorem stylesheet_drawn (hs : P.value s.assetScheme)
    (h : ∀ sheet, s.attr? "stylesheet" = some sheet → P.text (sheetText s sheet)) :
    ∀ m ∈ (stylesheet s).value, Drawn P [] m := by
  intro m hm
  unfold stylesheet at hm
  split at hm
  · obtain ⟨fonts, _, rfl⟩ := List.mem_map.1 hm
    refine .void (ordinaryAttrs_cons.2 ⟨by simp, ordinaryAttrs_cons.2 ⟨?_, by simp⟩⟩)
    refine ⟨by simp [Attr.name], ?_, by simp [Attr.name]⟩
    simpa [Attr.rawValues, Piece.raw?] using Palette.Value.own hs
  · rename_i sheet hsheet
    have hsheet := (Option.filter_eq_some_iff.1 hsheet).1
    simp only at hm
    split at hm
    · obtain rfl := List.mem_singleton.1 hm
      exact .void (by simp)
    · obtain rfl := List.mem_singleton.1 hm
      exact .stack (by simp) (by decide) (.part (.raw (h sheet hsheet)))

theorem iconFont_drawn (s : Scene) : Drawn P [] (iconFont s).flatten :=
  .when (.void (by simp))

/-- What the head inserts unescaped is in the palette. -/
structure HeadSupplied (s : Scene) (P : Palette) : Prop where
  scheme : P.value s.assetScheme
  favicon : ∀ x, faviconExtension? s = some x → P.value x
  sheet : ∀ sheet, s.attr? "stylesheet" = some sheet → P.text (sheetText s sheet)

theorem headLines_drawn (h : HeadSupplied s P) : Drawn P [] (headLines s).value.flatten := by
  simp only [headLines, Rendered.value_bind, Rendered.value_pure, List.append_assoc,
    List.cons_append, List.nil_append]
  refine .leafCons (.void (by simp)) ?_
  refine .leavesAppend (.leaves siteAssets_drawn) ?_
  refine .leavesAppend (.leaves ?_) ?_
  · split
    · exact equationAssets_drawn
    · nofun
  refine .leafCons (.void (by simp)) (.leafCons (.void (by simp)) ?_)
  refine .leavesAppend (.leaves (descriptions_drawn s)) ?_
  refine .leavesAppend (.leaves (favicon_drawn h.favicon)) ?_
  refine .leafCons (.box (by simp) (by decide) (.text _)) ?_
  exact .leavesAppend (.leaves (stylesheet_drawn h.scheme h.sheet)) (iconFont_drawn s)

/-! ### The header -/

def AuthorIds (P : Palette) : Prop := ∀ suffix, P.id ("author" ++ suffix) ∧ P.id ("email" ++ suffix)

theorem authorLines_drawn (h : AuthorIds P) (position : Nat) (a : Author) :
    ∀ m ∈ authorLines position a, Drawn P [] m := by
  have line : ∀ {i cls : String} {content : Markup}, P.id i → Drawn P [] content →
      Drawn P [] [.element .span [attr .id i, attr .classes cls] content, .void .br []] :=
    fun hi hc => .cons (.box (by simpa using hi) (by decide) hc) (.void (by simp))
  simp only [authorLines, List.forall_mem_cons]
  refine ⟨line (h _).1 (.text _), ?_⟩
  split
  · simp only [List.forall_mem_cons]
    exact ⟨line (h _).2 (.link (by simp) (.href _ _) (.text _)), List.forall_mem_nil _⟩
  · exact List.forall_mem_nil _

theorem details_drawn (h : AuthorIds P) (authors : List Author) :
    Drawn P [] (details authors).flatten := by
  refine .when (.stack (by simp) (by decide) (.leaves fun m hm => ?_))
  obtain ⟨p, _, hm⟩ := List.mem_flatMap.1 hm
  exact authorLines_drawn h p.2 p.1 m hm

def headerData (d : Document) : List NodeData :=
  dataOf? d.title? ++ dataOf? d.headerOrBlank.subtitle

/-- What the header inserts unescaped is in the palette. -/
structure HeaderSupplied (s : Scene) (P : Palette) : Prop where
  scene : s.Supplied P
  title : SuppliedAll s P (Node.walkOpt s.doc.title?)
  subtitle : SuppliedAll s P (Node.walkOpt s.doc.headerOrBlank.subtitle)
  authors : AuthorIds P

theorem header_drawn (h : HeaderSupplied s P) :
    Drawn P.page (headerData s.doc) (header s).value := by
  have hrest : Drawn P.page [] (details s.doc.headerOrBlank.authors ++ Markup.when
      (s.hasAttr "shownav")
      (navigation (s.options.chrome.navigationFor (lang s)) (lang s))).flatten :=
    .leavesAppend ((details_drawn h.authors _).mono P.le_page) (.when (navigation_drawn _ _))
  have hall : ∀ title subtitle : List Markup, Drawn P.page (dataOf? s.doc.title?) title.flatten →
      Drawn P.page (dataOf? s.doc.headerOrBlank.subtitle) subtitle.flatten →
        Drawn P.page (headerData s.doc) (.stack .header [] (title ++ subtitle ++
          details s.doc.headerOrBlank.authors ++ Markup.when (s.hasAttr "shownav")
            (navigation (s.options.chrome.navigationFor (lang s)) (lang s)))) := by
    intro title subtitle ht hsub
    refine .stack (by simp) (by decide) ?_
    rw [List.append_assoc _ (details _)]
    exact .leavesAppend (.partsAppend ht hsub) hrest
  have hnone : ∀ ds, Drawn P.page ds ([] : List Markup).flatten :=
    fun ds => Drawn.nil.within (List.nil_sublist ds)
  have htitle : ∀ {m : Markup}, Drawn P.page (dataOf? s.doc.title?) m →
      Drawn P.page (dataOf? s.doc.title?) [[Html.element (.heading 1) [] m]].flatten :=
    fun hm => .part (.box (by simp) nofun hm)
  have hsubtitle : ∀ {m : Markup}, Drawn P.page (dataOf? s.doc.headerOrBlank.subtitle) m →
      Drawn P.page (dataOf? s.doc.headerOrBlank.subtitle)
        [[Html.element (.heading 2) [attr .classes "subtitle"] m]].flatten :=
    fun hm => .part (.box (by simp) nofun hm)
  have hplain : Drawn P.page (dataOf? s.doc.title?) [.text "Untitled"] :=
    (Drawn.text _).within (List.nil_sublist _)
  have hgiven : ∀ title, s.doc.title? = some title →
      Drawn P.page (dataOf? s.doc.title?) (runningText s title).value := by
    intro title ht
    have hs := h.title
    rw [ht] at hs ⊢
    exact pageText_drawn h.scene hs
  have hsubgiven : ∀ title, s.doc.headerOrBlank.subtitle.filter (!·.isEmpty) = some title →
      Drawn P.page (dataOf? s.doc.headerOrBlank.subtitle) (runningText s title).value := by
    intro title ht
    have hs := h.subtitle
    rw [(Option.filter_eq_some_iff.1 ht).1] at hs ⊢
    exact pageText_drawn h.scene hs
  simp only [header]
  split
  · split
    · rename_i subtitle hsub
      exact hall [] _ (hnone _) (hsubtitle (hsubgiven subtitle hsub))
    · exact hall [] [] (hnone _) (hnone _)
  · split
    · rename_i title ht
      split
      · rename_i subtitle hsub
        exact hall _ _ (htitle (hgiven title ht)) (hsubtitle (hsubgiven subtitle hsub))
      · exact hall _ [] (htitle (hgiven title ht)) (hnone _)
    · split
      · rename_i subtitle hsub
        exact hall _ _ (htitle hplain) (hsubtitle (hsubgiven subtitle hsub))
      · exact hall _ [] (htitle hplain) (hnone _)

/-! ### The body -/

/-- What the document inserts unescaped outside of the head is in the palette. -/
structure Supplied (s : Scene) (P : Palette) : Prop extends HeaderSupplied s P where
  root : ∀ i, s.doc.root.id = some i → P.id i
  blocks : SuppliedAll s P (Node.walkAll s.doc.root.blocks)
  content : P.id "content"
  footer : ∀ x, s.options.chrome.footerFor (lang s) = some x → P.text x
  highlighter : ∀ h, s.highlighter = some h →
    (∀ m ∈ h.head s.doc (assetContext s), Drawn P.page [] m) ∧
    Drawn P.page [] (h.footer s.doc (assetContext s))

/-- What the footnotes insert unescaped is in the palette, and the ids of their definitions. -/
structure NotesSupplied (s : Scene) (P : Palette) : Prop where
  texts : ∀ f ∈ s.doc.catalog.footnotes, SuppliedAll s P (Node.walkAll f.text)
  list : P.id "footnotes"
  note : ∀ index : Nat, P.id ("_footnotedef_" ++ toString index)

theorem body_drawn (hs : s.Supplied P) (h : SuppliedAll s P (Node.walkAll s.doc.root.blocks)) :
    Drawn P.page (dataOf s.doc.root.blocks) (body s).value :=
  blocksIn_drawn hs _ h

theorem embedded_drawn (hs : s.Supplied P) (htitle : SuppliedAll s P (Node.walkOpt s.doc.title?))
    (hroot : ∀ i, s.doc.root.id = some i → P.id i)
    (hblocks : SuppliedAll s P (Node.walkAll s.doc.root.blocks)) :
    Drawn P.page (dataOf? s.doc.title? ++ dataOf s.doc.root.blocks) (embedded s).value := by
  have hbody := body_drawn hs hblocks
  have hall : ∀ title : List Markup, Drawn P.page (dataOf? s.doc.title?) title.flatten →
      Drawn P.page (dataOf? s.doc.title? ++ dataOf s.doc.root.blocks)
        (.lines (title ++ [(body s).value])) := fun _ ht => .lines (ht.partsConcat hbody)
  have hnone : Drawn P.page (dataOf? s.doc.title?) ([] : List Markup).flatten :=
    Drawn.nil.within (List.nil_sublist _)
  simp only [embedded]
  split
  · rename_i title ht
    rw [ht] at htitle hall hnone
    split
    · refine ht ▸ hall _ (.part (.box ?_ nofun (pageText_drawn hs htitle)))
      exact ordinaryAttrs_id.2 hroot
    · exact ht ▸ hall [] hnone
  · exact hall [] hnone

theorem maxWidth_ordinary (s : Scene) : OrdinaryAttrs P (maxWidth s) := by simp [maxWidth]

theorem footnote_drawn (hs : s.Supplied P) {f : Footnote}
    (hid : P.id ("_footnotedef_" ++ toString f.index))
    (hf : SuppliedAll s P (Node.walkAll f.text)) :
    Drawn P.page (dataOf f.text) (footnote s f).value := by
  have hnote : P.page.id ("_footnotedef_" ++ toString f.index) := hid
  simp only [footnote, Rendered.value_bind, Rendered.value_pure]
  refine .stack (by simpa using hnote) (by decide) (.part (.consLeaf ?_ (.consLeaf (.text _) ?_)))
  · exact .link (by simp) (.href _ _) (.text _)
  · exact pageText_drawn hs hf

def notesData (d : Document) : List NodeData := d.catalog.footnotes.flatMap fun f => dataOf f.text

theorem footnotes_drawn (hs : s.Supplied P) (h : NotesSupplied s P) :
    Drawn P.page (notesData s.doc) (footnotes s).value.flatten := by
  simp only [footnotes]
  split
  · refine .part (.stack (ordinaryAttrs_cons.2 ⟨?_, maxWidth_ordinary s⟩) (by decide)
      (Each.drawn (.sequence (.flatMap fun f hf => ?_))))
    · exact ordinary_attr.2 ⟨by simp, fun _ => h.list⟩
    · exact footnote_drawn hs (h.note f.index) (h.texts f hf)
  · exact Drawn.nil.within (List.nil_sublist _)

def frontLines (s : Scene) : List Markup :=
  Markup.when (!s.hasAttr "noheader") (header s).value ++
    [[.void .hr []], Markup.stack .div (attr .id "content" :: maxWidth s) [(body s).value],
      [.void .hr []]]

def backLines (s : Scene) : List Markup :=
  Markup.when (!s.hasAttr "nofooter") (footer (s.options.chrome.footerFor (lang s)) (lang s)) ++
    highlighterFooter s

theorem frontLines_drawn (h : Supplied s P) :
    Drawn P.page (headerData s.doc ++ dataOf s.doc.root.blocks) (frontLines s).flatten := by
  refine .partsAppend (.when (header_drawn h.toHeaderSupplied)) (.leafCons (.void (by simp))
    (.leavesAppend (.part (.stack ?_ (by decide) (.part (body_drawn h.scene h.blocks))))
      (.part (.void (by simp)))))
  exact ordinaryAttrs_cons.2 ⟨ordinary_attr.2 ⟨by simp, fun _ => h.content⟩, maxWidth_ordinary s⟩

theorem backLines_drawn (h : Supplied s P) : Drawn P.page [] (backLines s).flatten := by
  refine .leavesAppend (.when ((footer_drawn h.footer _).mono P.le_page)) ?_
  unfold highlighterFooter
  cases hh : s.highlighter with
  | some hl => exact .when (h.highlighter hl hh).2
  | none => exact .nil

/-! ### Whole pages -/

/-- The lines of the body, in an article unless there is navigation. -/
def around (s : Scene) (lines : List Markup) : List Markup :=
  if s.hasAttr "shownav" then lines else [.stack .article [] lines]

/-- The parts of a page: what stands before the footnotes, the footnotes, and what stands behind. -/
theorem standalone_value (s : Scene) : (standalone s).value =
    .lines [[.doctype], .stack .html (if s.hasAttr "nolang" then [] else [attr .lang (lang s)]) [
      .stack .head [] ((headLines s).value ++ highlighterHead s),
      .stack .body s.doc.root.data.idAttrs
        (around s (frontLines s ++ (footnotes s).value ++ backLines s))]] := by
  have hbody : (bodyLines s).value ++ highlighterFooter s =
      frontLines s ++ (footnotes s).value ++ backLines s := by
    simp only [bodyLines, frontLines, backLines, Markup.when]
    cases s.hasAttr "noheader" <;> simp
  simp only [standalone, Rendered.value_bind, Rendered.value_pure, around, hbody]

theorem doctype_drawn : Drawn P [] [.doctype] where
  fine := ⟨trivial, trivial⟩
  marks _ := by
    have hnone : marksOf [.doctype] = [] := rfl
    rw [hnone]
    exact List.nil_sublist _

theorem around_drawn {lines : List Markup} (h : Drawn P ds lines.flatten) :
    Drawn P ds (around s lines).flatten := by
  unfold around
  split
  · exact h
  · exact .part (.stack (by simp) (by decide) h)

theorem allHeadLines_drawn (h : Supplied s P) (hhead : HeadSupplied s P) :
    Drawn P.page [] ((headLines s).value ++ highlighterHead s).flatten := by
  refine .leavesAppend ((headLines_drawn hhead).mono P.le_page) ?_
  unfold highlighterHead
  split
  · rename_i hl hh
    split
    · exact .leaves fun m hm => (h.highlighter hl hh).1 m (Option.mem_toList.1 hm)
    · exact .nil
  · exact .nil

theorem htmlAttrs_ordinary (s : Scene) :
    OrdinaryAttrs P (if s.hasAttr "nolang" then [] else [attr .lang (lang s)]) := by
  split <;> simp

theorem standalone_drawn (h : Supplied s P) (hhead : HeadSupplied s P)
    (hnotes : NotesSupplied s P) :
    Drawn P.page (headerData s.doc ++ dataOf s.doc.root.blocks ++ notesData s.doc)
      (standalone s).value := by
  rw [standalone_value]
  refine .lines (.leafCons doctype_drawn (.part (.stack (htmlAttrs_ordinary s) (by decide)
    (.leafCons ?_ (.part ?_)))))
  · exact .stack (by simp) (by decide) (allHeadLines_drawn h hhead)
  · refine .stack (ordinaryAttrs_id.2 h.root) (by decide) (around_drawn ?_)
    exact .leavesAppend (.partsAppend (frontLines_drawn h) (footnotes_drawn h.scene hnotes))
      (backLines_drawn h)

end Page

end DocPress
