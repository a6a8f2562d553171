import DocPress.Proofs.Children
import DocPress.Proofs.DrawnPages

/-! Where the unescaped texts of a page come from. Some are channels: texts that are meant to be
inserted as they are. The others are spliced in where an escaped text would do. Every page is drawn
from these two, whatever the document, the options and the files are. -/

namespace DocPress

set_option autoImplicit false

/-! ### The nodes of a document -/

variable {s : Scene} {P : Palette}

theorem Document.mem_headerNodes_of_title {d : Document} {n : Node}
    (h : n ∈ Node.walkOpt d.title?) : n ∈ d.headerNodes := by
  refine List.mem_append_left _ ?_
  unfold Document.title? at h
  unfold Document.headerOrBlank
  cases hd : d.header with
  | none =>
    rw [hd] at h
    simp [Node.walkOpt] at h
  | some header =>
    rw [hd] at h
    simp only at h
    split at h
    · simp [Node.walkOpt] at h
    · exact h

theorem Document.holds_title {d : Document} {n : Node} (h : n ∈ Node.walkOpt d.title?) :
    d.Holds n := .header (mem_headerNodes_of_title h)

theorem Document.mem_headerNodes {d : Document} {n : Node}
    (h : n ∈ Node.walkAll ((d.header.map Header.title).getD [])) : n ∈ d.headerNodes := by
  refine List.mem_append_left _ ?_
  unfold Document.headerOrBlank
  cases hd : d.header with
  | none =>
    rw [hd] at h
    exact absurd h nofun
  | some header =>
    rw [hd] at h
    exact h

/-- The title of a target is of nodes that the document holds. -/
theorem Document.holds_target {id : String} {t : RefTarget} (ht : Reference.target? s id = some t)
    {n : Node} (h : n ∈ Node.walkOpt t.title) : s.doc.Holds n := by
  unfold Reference.target? at ht
  split at ht
  · rename_i target hr
    obtain rfl := Option.some.inj ht
    exact .target hr h
  · split at ht
    · obtain rfl := Option.some.inj ht
      exact holds_title h
    · simp at ht

/-! ### Channels and splices -/

/-- A text that a node is meant to insert as it is: the source of a pass block, the guard of a
callout, or an SVG. -/
inductive NodeChannel (s : Scene) : String → Prop
  | pass {n : Node} (hn : s.doc.Holds n) (hk : n.kind = .pass) {x : String}
    (hx : n.source = some x) : NodeChannel s x
  | guard {n : Node} (hn : s.doc.Holds n) (hk : n.kind = .inlineCallout) {x : String}
    (hx : n.attributes.get? "guard" = some (.text x)) : NodeChannel s x
  | svg {n : Node} (hn : s.doc.Holds n) (hk : n.kind = .image ∨ n.kind = .inlineImage)
    (ho : n.hasOption "inline" = true) {x : String}
    (hx : (Svg.read s n.data (n.target.getD "")).value = some x) : NodeChannel s x

/-- A text that is meant to be inserted as it is: one of a node, a style sheet, or a footer of the
options. -/
inductive Channel (s : Scene) : String → Prop
  | node {x : String} (h : NodeChannel s x) : Channel s x
  | sheet {sheet : String} (h : s.attr? "stylesheet" = some sheet) :
    Channel s (Page.sheetText s sheet)
  | footer {lang x : String} (h : s.options.chrome.footer.get? lang = some x) : Channel s x

/-- A text that is spliced in where no channel is meant: a sign before a number, or the number of a
section, with or without its last dot. -/
inductive SplicedText (s : Scene) : String → Prop
  | sign {name x : String} (h : s.attr? (name ++ "-refsig") = some x) : SplicedText s x
  | sectnum {n : Node} (hn : s.doc.Holds n) (hk : n.kind = .section) {x : String}
    (hx : n.sectnum = some x) : SplicedText s x
  | target {id : String} {t : RefTarget} (ht : Reference.target? s id = some t)
    (hk : t.kind = .section) {x : String} (hx : t.sectnum = some x) :
    SplicedText s (Text.trimEnd '.' x)

/-- A part of an attribute value that is spliced in: the scheme of addresses, or the extension of
the icon of the page. -/
inductive SplicedValue (s : Scene) : String → Prop
  | scheme : SplicedValue s s.assetScheme
  | favicon {x : String} (h : Page.faviconExtension? s = some x) : SplicedValue s x

/-- The number of a footnote, which is spliced into text and into values. -/
def SplicedNumber (s : Scene) (x : String) : Prop :=
  ∃ n, s.doc.Holds n ∧ n.kind = .inlineFootnote ∧ n.attr? indexName = some x

/-- Whether a palette has all that nodes insert unescaped, numbers apart. -/
structure Palette.Covers (P : Palette) (s : Scene) : Prop where
  node : ∀ x, NodeChannel s x → P.text x
  text : ∀ x, SplicedText s x → P.text x
  scheme : P.value s.assetScheme
  sign : ∀ name sign, Reference.defaultSign? name = some sign → P.text sign

/-- Whether a palette also has what else a page inserts unescaped. -/
structure Palette.CoversPage (P : Palette) (s : Scene) : Prop extends Palette.Covers P s where
  channel : ∀ x, Channel s x → P.text x
  value : ∀ x, SplicedValue s x → P.value x

/-- Whether the highlighter of the scene, if there is one, draws the listings of the document. -/
def Scene.DrawsListings (s : Scene) (P : Palette) : Prop :=
  ∀ n, s.doc.Holds n → n.kind = .listing → n.style = some "source" →
    ∀ h, s.highlighter = some h → ∀ ds content, (Block.verbatim s n).value = content →
      Drawn P.page ds content → Drawn P.page ds (h.format n (n.attr? "language") content
        (Block.listingStyle s h (Block.isNowrap s n.data)))

section

variable (hP : P.Covers s) (hl : s.DrawsListings P)

include hP hl

/-- A node that the document holds is supplied once its id and its number are in the palette. -/
theorem supplied_of_holds {n : Node} (hn : s.doc.Holds n) (hid : ∀ i, n.id = some i → P.id i)
    (hnumber : n.kind = .inlineFootnote → ∀ x, n.attr? indexName = some x → P.number x) :
    n.Supplied s P where
  id := hid
  pass hk x hx := hP.node x (.pass hn hk hx)
  guard hk x hx := hP.node x (.guard hn hk hx)
  index := hnumber
  sectnum hk x hx := hP.text x (.sectnum hn hk hx)
  svg hk ho x hx := hP.node x (.svg hn hk ho hx)
  listing hk hstyle := hl n hn hk hstyle

omit hl in
theorem scene_supplied (htitle : ∀ id t, Reference.target? s id = some t →
    SuppliedAll s P (Node.walkOpt t.title)) : s.Supplied P where
  scheme := hP.scheme
  sign _ sign h := hP.text sign (.sign h)
  defaultSign := hP.sign
  sectnum _ _ ht hk _ hx := hP.text _ (.target ht hk hx)
  title := htitle

end

theorem channel_footer {lang x : String} (h : s.options.chrome.footerFor lang = some x) :
    Channel s x := by
  unfold Chrome.footerFor at h
  cases hl : s.options.chrome.footer.get? lang with
  | some y =>
    rw [hl] at h
    obtain rfl := Option.some.inj h
    exact .footer hl
  | none =>
    rw [hl] at h
    exact .footer h

theorem head_supplied (hP : P.CoversPage s) : Page.HeadSupplied s P where
  scheme := hP.value _ .scheme
  favicon x h := hP.value x (.favicon h)
  sheet _ h := hP.channel _ (.sheet h)

/-- A page is supplied once all nodes of the document, the ids of the frame, and what a highlighter
adds are. -/
theorem page_supplied_of (hP : P.CoversPage s) (hnodes : ∀ n, s.doc.Holds n → n.Supplied s P)
    (hauthors : Page.AuthorIds P) (hcontent : P.id "content")
    (hadded : ∀ h, s.highlighter = some h →
      (∀ m ∈ h.head s.doc (Page.assetContext s), Drawn P.page [] m) ∧
        Drawn P.page [] (h.footer s.doc (Page.assetContext s))) : Page.Supplied s P where
  scene := scene_supplied hP.toCovers fun _ _ ht n hn =>
    hnodes n (Document.holds_target ht hn)
  title n hn := hnodes n (Document.holds_title hn)
  subtitle n hn := hnodes n (.header (List.mem_append_right _ hn))
  authors := hauthors
  root := (hnodes s.doc.root (.tree (Node.mem_walk_self _))).id
  blocks n hn := hnodes n (.tree (by rw [Node.walk_eq]; simp [hn]))
  content := hcontent
  footer _ h := hP.channel _ (channel_footer h)
  highlighter := hadded

/-! ### The palette of origins -/

/-- All that a page of the scene may hold unescaped. -/
def Palette.origins (s : Scene) : Palette where
  text x := Channel s x ∨ SplicedText s x ∨ ∃ name, Reference.defaultSign? name = some x
  value := SplicedValue s
  number := SplicedNumber s
  id _ := True
  split := False

theorem Palette.CoversPage.origins (s : Scene) : (Palette.origins s).CoversPage s where
  node _ h := .inl (.node h)
  text _ h := .inr (.inl h)
  scheme := .scheme
  sign name _ h := .inr (.inr ⟨name, h⟩)
  channel _ h := .inl h
  value _ h := h

theorem Palette.Covers.origins (s : Scene) : (Palette.origins s).Covers s :=
  (Palette.CoversPage.origins s).toCovers

def Scene.KnownHighlighter (s : Scene) : Prop :=
  s.highlighter = none ∨ s.highlighter = some HighlightJs.highlighter

theorem Scene.KnownHighlighter.draws (h : s.KnownHighlighter) (P : Palette) :
    ∀ hl, s.highlighter = some hl → hl.Draws P := by
  intro hl hhl
  rcases h with h | h
  · exact absurd (h.symm.trans hhl) nofun
  · obtain rfl := Option.some.inj (h.symm.trans hhl)
    exact HighlightJs.draws

theorem Scene.KnownHighlighter.drawsListings (h : s.KnownHighlighter) (P : Palette) :
    s.DrawsListings P :=
  fun _ _ _ _ hl hhl _ _ _ hc => (h.draws P.page hl hhl).format _ _ _ hc

section

variable (hh : s.KnownHighlighter)

include hh

theorem supplied_origins {n : Node} (hn : s.doc.Holds n) : n.Supplied s (.origins s) :=
  supplied_of_holds (.origins s) (hh.drawsListings _) hn (fun _ _ => trivial)
    fun hk _ hx => ⟨n, hn, hk, hx⟩

theorem page_supplied : Page.Supplied s (.origins s) :=
  page_supplied_of (.origins s) (fun _ hn => supplied_origins hh hn) (fun _ => ⟨trivial, trivial⟩)
    trivial fun hl hhl => ⟨fun m hm => (hh.draws _ hl hhl).head _ _ m hm,
      (hh.draws _ hl hhl).footer _ _⟩

theorem notes_supplied : Page.NotesSupplied s (.origins s) where
  texts _ hf _ hn := supplied_origins hh (.note hf hn)
  list := trivial
  note _ := trivial

/-- Every page is drawn from channels and splices. -/
theorem standalone_fine : FineAll (Palette.origins s).page (Page.standalone s).value :=
  (Page.standalone_drawn (page_supplied hh) (head_supplied (.origins s))
    (notes_supplied hh)).fine

theorem embedded_fine : FineAll (Palette.origins s).page (Page.embedded s).value :=
  have h := page_supplied hh
  (Page.embedded_drawn h.scene h.title h.root h.blocks).fine

end

end DocPress
