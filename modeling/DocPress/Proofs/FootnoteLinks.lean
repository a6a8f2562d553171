import DocPress.Proofs.Containment
import DocPress.Proofs.Definitions

/-! Footnotes in the text and at the end of the page. The marks of a prepared document have
increasing numbers, and every link leads to the one definition of its number. -/

namespace DocPress

set_option autoImplicit false

/-! ### Inert output of highlighters -/

variable {P : Palette} {s : Scene}

theorem Inert.of_append {a b : List Char} (h : Inert (String.ofList (a ++ b))) :
    Inert (String.ofList a) ∧ Inert (String.ofList b) := by
  unfold Inert at h ⊢
  simp only [String.toList_ofList, List.mem_append] at h ⊢
  exact ⟨fun c hc => h c (.inl hc), fun c hc => h c (.inr hc)⟩

theorem no_bracket_of_inert {cs : List Char} (h : Inert (String.ofList ('<' :: cs))) : False :=
  h.no_bracket (by simp)

theorem Html.chars_raw (t : String) : (Html.raw t).chars = t.toList := rfl

/-- A node that is written without tags is a text, and fine if inert texts are in the palette. -/
theorem Html.leaf_of_inert (hP : ∀ x, Inert x → P.text x) {h : Html}
    (hi : Inert (String.ofList h.chars)) : h.Fine P ∧ h.tags = [] := by
  cases h with
  | text t => exact ⟨trivial, rfl⟩
  | attrText t => exact ⟨trivial, rfl⟩
  | charRef code => exact ⟨trivial, rfl⟩
  | raw t =>
    rw [Html.chars_raw, String.ofList_toList] at hi
    exact ⟨.own (hP t hi), rfl⟩
  | doctype => exact (hi.no_bracket (by decide)).elim
  | void tag attrs => exact (no_bracket_of_inert hi).elim
  | element tag attrs content => exact (no_bracket_of_inert hi).elim

/-- Markup that is written without tags is drawn from nothing. -/
theorem drawn_of_inert (hP : ∀ x, Inert x → P.text x) : ∀ {m : List Html},
    Inert (Markup.render m) → Drawn P [] m
  | [], _ => .nil
  | h :: hs, hm => by
    obtain ⟨hhead, htail⟩ := Inert.of_append (a := h.chars) (b := charsOf hs) hm
    obtain ⟨hfine, htags⟩ := Html.leaf_of_inert hP hhead
    exact .consLeaf (.leaf hfine htags) (drawn_of_inert hP htail)

theorem tagsOf_of_inert : ∀ {m : List Html}, Inert (Markup.render m) → tagsOf m = []
  | [], _ => rfl
  | h :: hs, hm => by
    obtain ⟨hhead, htail⟩ := Inert.of_append (a := h.chars) (b := charsOf hs) hm
    have htags := (Html.leaf_of_inert (P := ⟨Inert, Inert, Inert, Inert, False⟩) (fun _ h => h)
      hhead).2
    rw [tagsOf, htags, tagsOf_of_inert htail]
    rfl

/-- Whether all that a highlighter gives for a document is inert. -/
structure Scene.InertOutput (s : Scene) (h : Highlighter) : Prop where
  format : ∀ n, s.doc.Holds n → n.kind = .listing → n.style = some "source" →
    Inert (Markup.render (h.format n (n.attr? "language") (Block.verbatim s n).value
      (Block.listingStyle s h (Block.isNowrap s n.data))))
  head : ∀ m, h.head s.doc (Page.assetContext s) = some m → Inert (Markup.render m)
  footer : Inert (Markup.render (h.footer s.doc (Page.assetContext s)))

/-- Whether a highlighter is that for highlight.js, one that is only a name, or one of inert
output. -/
def Scene.PlainHighlighter (s : Scene) (h : Highlighter) : Prop :=
  h = HighlightJs.highlighter ∨ (∃ name, h = .ofName name) ∨ s.InertOutput h

theorem drawsListings_of_plain (hP : ∀ x, Inert x → P.text x)
    (hh : ∀ h, s.highlighter = some h → s.PlainHighlighter h) : s.DrawsListings P := by
  intro n hn hk hstyle h hs ds content hcontent hdrawn
  rcases hh h hs with rfl | ⟨name, rfl⟩ | hinert
  · exact HighlightJs.draws.format n _ _ hdrawn
  · exact (Highlighter.draws_ofName name).format n _ _ hdrawn
  · subst hcontent
    exact ((drawn_of_inert hP (hinert.format n hn hk hstyle)).mono P.le_page).within
      (List.nil_sublist ds)

theorem added_of_plain (hP : ∀ x, Inert x → P.text x)
    (hh : ∀ h, s.highlighter = some h → s.PlainHighlighter h) (h : Highlighter)
    (hs : s.highlighter = some h) :
    (∀ m ∈ h.head s.doc (Page.assetContext s), Drawn P.page [] m) ∧
      Drawn P.page [] (h.footer s.doc (Page.assetContext s)) := by
  rcases hh h hs with rfl | ⟨name, rfl⟩ | hinert
  · exact ⟨fun m hm => HighlightJs.draws.head _ _ m hm, HighlightJs.draws.footer _ _⟩
  · exact ⟨fun m hm => (Highlighter.draws_ofName name).head _ _ m hm,
      (Highlighter.draws_ofName name).footer _ _⟩
  · exact ⟨fun m hm => (drawn_of_inert hP (hinert.head m hm)).mono P.le_page,
      (drawn_of_inert hP hinert.footer).mono P.le_page⟩

/-! ### Links in markup -/

mutual

theorem Html.Fine.notes (hp : P.Clean) : ∀ h : Html, h.Fine P → ∀ t ∈ h.tags, ∀ x,
    t.note? = some x → ∃ i, P.number i ∧ x = i.toList
  | .doctype => fun _ t ht x hx => by
    have ht : t = doctypeTag := by simpa [Html.tags] using ht
    have hnone : doctypeTag.note? = none := by decide
    rw [ht, hnone] at hx
    exact absurd hx nofun
  | .text _ => fun _ _ ht => absurd ht nofun
  | .attrText _ => fun _ _ ht => absurd ht nofun
  | .raw _ => fun _ _ ht => absurd ht nofun
  | .charRef _ => fun _ _ ht => absurd ht nofun
  | .void tag attrs => fun _ t ht x hx => by
    obtain rfl := List.mem_singleton.1 ht
    rw [note?_void] at hx
    exact absurd hx nofun
  | .element tag attrs content => fun hf t ht x hx => by
    simp only [Html.tags, List.mem_cons, List.mem_append, List.not_mem_nil, or_false] at ht
    rcases ht with rfl | ht | rfl
    · rw [note?_start] at hx
      split at hx
      · rename_i htag
        exact hf.1.noteNumber? hp (by simp [htag]) hx
      · exact absurd hx nofun
    · exact FineAll.notes hp content hf.2 t ht x hx
    · rw [note?_stop] at hx
      exact absurd hx nofun

theorem FineAll.notes (hp : P.Clean) : ∀ m : List Html, FineAll P m → ∀ t ∈ tagsOf m, ∀ x,
    t.note? = some x → ∃ i, P.number i ∧ x = i.toList
  | [] => fun _ _ ht => absurd ht nofun
  | h :: hs => fun hf t ht x hx => by
    rcases List.mem_append.1 ht with ht | ht
    · exact Html.Fine.notes hp h hf.1 t ht x hx
    · exact FineAll.notes hp hs hf.2 t ht x hx

end

/-! ### Plain notes -/

/-- Whether footnotes are apart from all else: what nodes and highlighters insert is inert, none is
in the header, and no id begins as theirs do. -/
structure Scene.PlainNotes (s : Scene) : Prop where
  inert : s.InertNodes
  header : ∀ n ∈ s.doc.headerNodes, n.kind ≠ .inlineFootnote
  ids : ∀ n, s.doc.Holds n → ∀ i, n.id = some i → ¬ "_footnote".toList <+: i.toList
  highlighter : ∀ h, s.highlighter = some h → s.PlainHighlighter h

section

variable {d : Document} {defaults : SortedMap String} (hd : s.doc = d.prepareWith defaults)

include hd

theorem target_held {id : String} {t : RefTarget} (ht : s.doc.catalog.ref? id = some t) :
    ∃ n, s.doc.Holds n ∧ t = .ofNode id n := by
  rw [hd] at ht
  have hrefs : (d.prepareWith defaults).catalog.ref? id =
      ((d.prepareWith defaults).registered.foldl registerRef ∅).get? id := rfl
  rw [hrefs] at ht
  rcases registerRef_fold _ _ ht with h | ⟨n, hn, h⟩
  · exact absurd h nofun
  · refine ⟨n, ?_, h⟩
    rw [← hd] at hn
    rcases List.mem_append.1 hn with hn | hn
    · exact .header (Document.mem_headerNodes hn)
    · exact .tree hn

theorem covers_of_inert (h : s.InertNodes) (ht : ∀ x, Inert x → P.text x)
    (hv : ∀ x, Inert x → P.value x) : P.Covers s where
  node x hx := ht x (h.of_channel hx)
  text x hx := by
    refine ht x (h.of_splicedText (fun id t hr y hy => ?_) hx)
    obtain ⟨n, hn, rfl⟩ := target_held hd hr
    exact h.sectnum n hn y hy
  scheme := hv _ h.of_scheme
  sign _ _ hsign := ht _ (Reference.defaultSign_inert hsign)

end

/-- The palette of the body: inert texts, the numbers of footnotes, and ids apart from theirs. -/
def Palette.numbered (count : Nat) : Palette where
  text := DocPress.Inert
  value := DocPress.Inert
  number x := ∃ i : Nat, 1 ≤ i ∧ i ≤ count ∧ x = toString i
  id i := ¬ "_footnote".toList <+: i.toList
  split := False

theorem Palette.numbered_inert (count : Nat) : (Palette.numbered count).Inert where
  text h := h
  value h := h
  number := by
    rintro x ⟨i, _, _, rfl⟩
    exact .decimal i
  whole hs := hs

theorem Palette.numbered_clean (count : Nat) : (Palette.numbered count).page.Clean where
  number := by
    rintro x ⟨i, _, _, rfl⟩
    exact ⟨i, rfl⟩
  id h := h

section

variable {d : Document} {defaults : SortedMap String} (hd : s.doc = d.prepareWith defaults)
  (h : s.PlainNotes)

include hd h

/-- Nodes of the header and the tree have no other numbers than those of the catalog. -/
theorem supplied_numbered {n : Node} (hn : s.doc.Holds n)
    (hfrom : n ∈ s.doc.headerNodes ∨ n ∈ s.doc.root.walk) :
    n.Supplied s (.numbered s.doc.catalog.footnotes.length) := by
  have hcovers : (Palette.numbered s.doc.catalog.footnotes.length).Covers s :=
    covers_of_inert hd h.inert (fun _ hx => hx) fun _ hx => hx
  refine supplied_of_holds hcovers (drawsListings_of_plain (fun _ hx => hx) h.highlighter) hn
    (h.ids n hn) fun hk x hx => ?_
  rcases hfrom with hheader | htree
  · exact absurd hk (h.header n hheader)
  · rw [hd] at htree ⊢
    exact index_indexFootnotes _ htree hk hx

omit h in
theorem target_title {id : String} {t : RefTarget} (ht : Reference.target? s id = some t) {n : Node}
    (hn : n ∈ Node.walkOpt t.title) : n ∈ s.doc.headerNodes ∨ n ∈ s.doc.root.walk := by
  unfold Reference.target? at ht
  split at ht
  · rename_i target hr
    obtain rfl := Option.some.inj ht
    exact title_prepared hd hr hn
  · split at ht
    · obtain rfl := Option.some.inj ht
      exact .inl (Document.mem_headerNodes_of_title hn)
    · exact absurd ht nofun

/-- The body is drawn from its nodes with the numbers of the catalog. -/
theorem body_numbered :
    Drawn (Palette.numbered s.doc.catalog.footnotes.length).page (dataOf s.doc.root.blocks)
      (Page.body s).value := by
  have hscene : s.Supplied (.numbered s.doc.catalog.footnotes.length) := by
    refine scene_supplied (covers_of_inert hd h.inert (fun _ hx => hx) fun _ hx => hx) ?_
    intro id t ht n hn
    exact supplied_numbered hd h (Document.holds_target ht hn) (target_title hd ht hn)
  refine Page.body_drawn hscene fun n hn => ?_
  have hwalk : n ∈ s.doc.root.walk := by
    rw [Node.walk_eq]
    simp [hn]
  exact supplied_numbered hd h (.tree hwalk) (.inr hwalk)

theorem body_read : readTags (Page.body s).value.chars = some (tagsOf (Page.body s).value) := by
  have hbody := body_numbered hd h
  have hsealed : Sealed (Page.body s).value := (Palette.numbered_inert _).sealed hbody.fine
  exact hsealed.read (FineAll.named _ hbody.fine)

/-- The marks of the body have increasing numbers. -/
theorem body_marks :
    ∃ ns : List Nat, marksOf (Page.body s).value = ns.map decimal ∧ ns.Pairwise (· < ·) := by
  -- The marks are among the numbers of the blocks, these among those of the tree, which count up.
  have hmarks := (body_numbered hd h).marks (Palette.numbered_clean _)
  have hblocks : (dataOf s.doc.root.blocks).Sublist (s.doc.root.walk.map Node.data) := by
    rw [Node.walk_data]
    refine List.Sublist.cons _ ?_
    exact (List.sublist_append_right _ _).trans (List.sublist_append_left _ _)
  have hnumbers : numbersOf (s.doc.root.walk.map Node.data) =
      (List.range' 1 s.doc.catalog.footnotes.length).map decimal := by
    rw [hd]
    exact numbersOf_indexFootnotes _
  have hall := hmarks.trans (hblocks.filterMap NodeData.markNumber?)
  rw [show (s.doc.root.walk.map Node.data).filterMap NodeData.markNumber? = _ from hnumbers] at hall
  obtain ⟨ns, hns, hmap⟩ := List.sublist_map_iff.1 hall
  exact ⟨ns, hmap, List.Pairwise.sublist hns List.pairwise_lt_range'⟩

theorem body_notes {t : TagRead} (ht : t ∈ tagsOf (Page.body s).value) {x : List Char}
    (hx : t.note? = some x) :
    ∃ n, 1 ≤ n ∧ n ≤ s.doc.catalog.footnotes.length ∧ x = decimal n := by
  have hfine := (body_numbered hd h).fine
  obtain ⟨i, ⟨n, h1, hn, rfl⟩, hi⟩ := FineAll.notes (Palette.numbered_clean _) _ hfine t ht x hx
  exact ⟨n, h1, hn, hi⟩

end

/-! ### Definitions on the page -/

theorem decimal_injective {m n : Nat} (h : decimal m = decimal n) : m = n := by
  have hdigits : ∀ k : Nat, Nat.ofDigitChars 10 (decimal k) 0 = k := by
    intro k
    rw [decimal, show toString k = k.repr from rfl, Nat.toList_repr]
    exact Nat.ofDigitChars_toDigits (by decide) (by decide)
  rw [← hdigits m, ← hdigits n, h]

theorem count_decimal {n k : Nat} (h1 : 1 ≤ n) (hn : n ≤ k) :
    ((List.range' 1 k).map decimal).count (decimal n) = 1 := by
  have hnodup : ((List.range' 1 k).map decimal).Nodup := by
    have hrange : (List.range' 1 k).Nodup := List.nodup_range'
    rw [List.Nodup, List.pairwise_map]
    exact List.Pairwise.imp (fun hne he => hne (decimal_injective he)) hrange
  have hmem : decimal n ∈ (List.range' 1 k).map decimal :=
    List.mem_map_of_mem (List.mem_range'_1.2 ⟨h1, by omega⟩)
  rw [hnodup.count, if_pos hmem]

/-- The palette in which all is allowed but the ids of definitions. -/
def Palette.apart : Palette where
  text _ := True
  value _ := True
  number _ := True
  id i := ¬ "_footnotedef_".toList <+: i.toList
  split := False

theorem Palette.coversPage_apart (s : Scene) : Palette.apart.CoversPage s where
  node _ _ := trivial
  text _ _ := trivial
  scheme := trivial
  sign _ _ _ := trivial
  channel _ _ := trivial
  value _ _ := trivial

theorem authorIds_apart : Page.AuthorIds .apart := by
  refine fun suffix => ⟨fun hpre => ?_, fun hpre => ?_⟩
  · rw [String.toList_append] at hpre
    exact absurd hpre (by simp)
  · rw [String.toList_append] at hpre
    exact absurd hpre (by simp)

section

variable {d : Document} {defaults : SortedMap String} (hd : s.doc = d.prepareWith defaults)
  (h : s.PlainNotes)

include h in
theorem supplied_apart {n : Node} (hn : s.doc.Holds n) : n.Supplied s .apart := by
  have hlistings : s.DrawsListings .apart :=
    drawsListings_of_plain (fun _ _ => trivial) h.highlighter
  refine supplied_of_holds (Palette.coversPage_apart s).toCovers hlistings hn ?_
    fun _ _ _ => trivial
  intro i hi hpre
  exact h.ids n hn i hi (List.IsPrefix.trans (by decide) hpre)

include hd h in
/-- A whole page that shows footnotes defines each number of the catalog once, in order. -/
theorem standalone_defines (hshown : s.hasAttr "nofootnotes" = false) :
    definedIn (Page.standalone s).value =
      (List.range' 1 s.doc.catalog.footnotes.length).map decimal := by
  have hcovers := Palette.coversPage_apart s
  have hcontent : ¬ "_footnotedef_".toList <+: "content".toList := by decide
  have hpage : Page.Supplied s .apart := page_supplied_of hcovers (fun _ hn => supplied_apart h hn)
    authorIds_apart hcontent (added_of_plain (fun _ _ => trivial) h.highlighter)
  have hdefined := Page.definedIn_standalone hpage (head_supplied hcovers) (fun _ hi => hi)
    (fun f hf n hn => supplied_apart h (.note hf hn)) hshown
  have horder : s.doc.catalog.footnotes.map Footnote.index =
      List.range' 1 s.doc.catalog.footnotes.length := by
    rw [hd]
    exact inOrder_indexFootnotes _
  rw [hdefined, ← horder, List.map_map]
  rfl

end

/-- The palette in which all that is inserted is inert, and ids are any. -/
def Palette.inert : Palette where
  text := DocPress.Inert
  value := DocPress.Inert
  number := DocPress.Inert
  id _ := True
  split := False

theorem Palette.inert_inert : Palette.inert.Inert where
  text h := h
  value h := h
  number h := h
  whole h := h

section

variable {d : Document} {defaults : SortedMap String} (hd : s.doc = d.prepareWith defaults)
  (h : s.PlainNotes) (hp : s.InertPage)

include hd h hp

theorem standalone_read :
    readTags (Page.standalone s).value.chars = some (tagsOf (Page.standalone s).value) := by
  have hcovers : Palette.inert.CoversPage s := {
    toCovers := covers_of_inert hd h.inert (fun _ hx => hx) fun _ hx => hx
    channel := fun _ hx => hp.of_channel hx
    value := fun _ hx => hp.of_splicedValue hx }
  have hlistings : s.DrawsListings .inert := drawsListings_of_plain (fun _ hx => hx) h.highlighter
  have hnodes : ∀ n, s.doc.Holds n → n.Supplied s .inert := fun n hn =>
    supplied_of_holds hcovers.toCovers hlistings hn (fun _ _ => trivial) (hp.index n hn)
  have hpage : Page.Supplied s .inert := page_supplied_of hcovers hnodes
    (fun _ => ⟨trivial, trivial⟩) trivial (added_of_plain (fun _ hx => hx) h.highlighter)
  have hnotes : Page.NotesSupplied s .inert := {
    texts := fun _ hf n hn => hnodes n (.note hf hn)
    list := trivial
    note := fun _ => trivial }
  have hfine := (Page.standalone_drawn hpage (head_supplied hcovers) hnotes).fine
  have hsealed : Sealed (Page.standalone s).value := Palette.inert_inert.sealed hfine
  exact hsealed.read (FineAll.named _ hfine)

end

/-! ### Links and definitions -/

/-- The body of a prepared document is read as tags in which the marks of footnotes have strictly
increasing numbers, and every link to a footnote has the number of one in the catalog. A whole page
that shows footnotes has one definition of that number, and it is read so if what the rest of the
page inserts is inert too. -/
theorem Converter.footnotes_linked (c : Converter) (d : Document) (defaults : SortedMap String)
    (h : (c.scene (d.prepareWith defaults)).PlainNotes) :
    let s := c.scene (d.prepareWith defaults)
    ∃ ts, readTags (Page.body s).value.chars = some ts ∧
      (∃ ns : List Nat, ts.filterMap TagRead.mark? = ns.map decimal ∧ ns.Pairwise (· < ·)) ∧
      ∀ t ∈ ts, ∀ x, t.note? = some x →
        ∃ n, 1 ≤ n ∧ n ≤ s.doc.catalog.footnotes.length ∧ x = decimal n ∧
          (s.hasAttr "nofootnotes" = false →
            (definedIn (Page.standalone s).value).count (decimal n) = 1 ∧
            (s.InertPage → ∃ us, readTags (c.standalone s.doc).html.toList = some us ∧
              (definitionsOf us).count (decimal n) = 1)) := by
  intro s
  refine ⟨_, body_read rfl h, body_marks rfl h, fun t ht x hx => ?_⟩
  obtain ⟨n, h1, hn, hi⟩ := body_notes rfl h ht hx
  refine ⟨n, h1, hn, hi, fun hshown => ?_⟩
  have hcount : (definedIn (Page.standalone s).value).count (decimal n) = 1 := by
    rw [standalone_defines rfl h hshown, count_decimal h1 hn]
  refine ⟨hcount, fun hp => ⟨_, ?_, hcount⟩⟩
  have hhtml : (c.standalone s.doc).html.toList = (Page.standalone s).value.chars :=
    String.toList_ofList
  rw [hhtml, standalone_read rfl h hp]

/-- A section whose title has a footnote and is borrowed by a reference in front of another one. -/
def linkedSample : Document :=
  let note (text : String) : Node := { Node.ofKind .inlineFootnote with text := some [.plain text] }
  let refid := SortedMap.empty.insert "refid" (.text "s")
  let reference : NodeData := { kind := .inlineAnchor, variant := some "xref", attributes := refid }
  let paragraph := { Node.ofKind .paragraph with text := some [.leaf reference, note "two"] }
  let heading := Node.leaf { kind := .section, id := some "s", level := 1 }
  Document.blank.withBlocks
    [{ heading with title := some [.plain "one", note "one"], blocks := [paragraph] }]

theorem Converter.footnotes_linked_sample :
    let s := (⟨.initial, some HighlightJs.highlighter, .blank⟩ : Converter).scene
      (linkedSample.prepareWith ∅)
    s.PlainNotes ∧ marksOf (Page.body s).value = [1, 2].map decimal ∧
      ∃ (ts : List TagRead) (ns : List Nat), readTags (Page.body s).value.chars = some ts ∧
        ts.filterMap TagRead.mark? = ns.map decimal ∧ ns.Pairwise (· < ·) := by
  intro s
  have htree : ∀ n ∈ s.doc.root.walk, n.kind ≠ .pass ∧ n.kind ≠ .inlineCallout ∧
      n.hasOption "inline" = false ∧ n.sectnum = none ∧ (n.id = none ∨ n.id = some "s") := by
    decide
  have hnotes : ∀ f ∈ s.doc.catalog.footnotes, ∀ n ∈ Node.walkAll f.text, n.kind ≠ .pass ∧
      n.kind ≠ .inlineCallout ∧ n.hasOption "inline" = false ∧ n.sectnum = none ∧
      (n.id = none ∨ n.id = some "s") := by
    decide
  have hall : ∀ n, s.doc.Holds n → n.kind ≠ .pass ∧ n.kind ≠ .inlineCallout ∧
      n.hasOption "inline" = false ∧ n.sectnum = none ∧ (n.id = none ∨ n.id = some "s") := by
    intro n hn
    cases hn with
    | tree h => exact htree n h
    | header h => exact absurd h nofun
    | target ht h =>
      rcases title_prepared rfl ht h with h | h
      · exact absurd h nofun
      · exact htree n h
    | note hf h => exact hnotes _ hf n h
  have hplain : s.PlainNotes := {
    inert := {
      pass := fun n hn hk => absurd hk (hall n hn).1
      guard := fun n hn hk => absurd hk (hall n hn).2.1
      svg := fun n hn _ ho => absurd ho (by simp [(hall n hn).2.2.1])
      sign := fun _ _ h => absurd h nofun
      scheme := fun _ h => absurd h nofun
      sectnum := fun n hn x hx => absurd ((hall n hn).2.2.2.1.symm.trans hx) nofun }
    header := nofun
    ids := fun n hn i hi => by
      rcases (hall n hn).2.2.2.2 with h | h
      · exact absurd (h.symm.trans hi) nofun
      · obtain rfl := Option.some.inj (h.symm.trans hi)
        decide
    highlighter := fun _ hh => .inl (Option.some.inj hh).symm }
  have hmarks : marksOf (Page.body s).value = [1, 2].map decimal := by decide
  obtain ⟨ts, hread, ⟨ns, hts, hlt⟩, _⟩ := Converter.footnotes_linked
    ⟨.initial, some HighlightJs.highlighter, .blank⟩ linkedSample ∅ hplain
  exact ⟨hplain, hmarks, ts, ns, hread, hts, hlt⟩

end DocPress
