import DocPress.Converter
import DocPress.Proofs.FootnoteLinks
import DocPress.Proofs.ShownBlocks

/-! Definitions of footnotes link back to marks in the text. Every footnote of a document is
defined on its page, but only one that the page shows has a mark, so a link back leads nowhere
where the tree holds a footnote that the page leaves out. -/

namespace DocPress

set_option autoImplicit false

/-! ### Parts of markup -/

theorem charsOf_within (tag : Tag) (attrs : List Attr) (content : List Html) :
    charsOf content <:+: (Html.element tag attrs content).chars := by
  rw [Html.chars_element]
  refine ⟨'<' :: (tag.name.toList ++ (attrChars attrs ++ ['>'])),
    '<' :: '/' :: (tag.name.toList ++ ['>']), ?_⟩
  simp only [List.append_assoc, List.cons_append, List.nil_append]

/-- Markup that stands somewhere in other markup, between its nodes or inside of an element. -/
inductive Stands (part : Markup) : Markup → Prop
  | here (before behind : Markup) : Stands part (before ++ (part ++ behind))
  | inside {content : Markup} (h : Stands part content) (tag : Tag) (attrs : List Attr)
    (before behind : Markup) :
    Stands part (before ++ .element tag attrs content :: behind)

namespace Stands

variable {part m : Markup}

theorem refl (m : Markup) : Stands m m := by
  have h : Stands m ([] ++ (m ++ [])) := .here [] []
  rwa [List.nil_append, List.append_nil] at h

theorem between (h : Stands part m) (before behind : Markup) :
    Stands part (before ++ (m ++ behind)) := by
  cases h with
  | here b e =>
    have hsplit : before ++ (b ++ (part ++ e) ++ behind) =
        (before ++ b) ++ (part ++ (e ++ behind)) := by simp
    rw [hsplit]
    exact .here _ _
  | @inside content h tag attrs b e =>
    have hsplit : before ++ (b ++ .element tag attrs content :: e ++ behind) =
        (before ++ b) ++ .element tag attrs content :: (e ++ behind) := by simp
    rw [hsplit]
    exact .inside h _ _ _ _

theorem element (h : Stands part m) (tag : Tag) (attrs : List Attr) :
    Stands part [.element tag attrs m] := .inside h tag attrs [] []

theorem lines {parts : List Markup} (hm : m ∈ parts) (h : Stands part m) :
    Stands part (.lines parts) := by
  induction parts with
  | nil => exact absurd hm List.not_mem_nil
  | cons p ps ih =>
    cases ps with
    | nil =>
      obtain rfl := List.mem_singleton.1 hm
      rwa [Markup.lines, List.intercalate_singleton]
    | cons q qs =>
      rw [Markup.lines, List.intercalate_cons_cons]
      rcases List.mem_cons.1 hm with rfl | hm
      · rw [List.append_assoc]
        exact h.between [] _
      · have hrest := (ih hm).between (p ++ Markup.newline) []
        rwa [List.append_nil] at hrest

theorem stack {parts : List Markup} (hm : m ∈ parts) (h : Stands part m) (tag : Tag)
    (attrs : List Attr) : Stands part (.stack tag attrs parts) := by
  obtain ⟨before, behind, rfl⟩ := List.append_of_mem hm
  have hsplit : Html.lineEnd :: (before ++ m :: behind).flatMap (· ++ [.lineEnd]) =
      (.lineEnd :: before.flatMap (· ++ [.lineEnd])) ++
        (m ++ (.lineEnd :: behind.flatMap (· ++ [.lineEnd]))) := by simp
  rw [Markup.stack, hsplit]
  exact (h.between _ _).element _ _

theorem chars (h : Stands part m) : part.chars <:+: m.chars := by
  induction h with
  | here before behind =>
    simp only [Markup.chars, charsOf_append]
    exact ⟨charsOf before, charsOf behind, List.append_assoc _ _ _⟩
  | @inside content _ tag attrs before behind ih =>
    have helement : (Html.element tag attrs content).chars <:+:
        charsOf (before ++ .element tag attrs content :: behind) := by
      rw [charsOf_append, charsOf]
      exact ⟨charsOf before, charsOf behind, List.append_assoc _ _ _⟩
    exact ih.trans ((charsOf_within tag attrs content).trans helement)

theorem tags (h : Stands part m) : tagsOf part ⊆ tagsOf m := by
  induction h with
  | here before behind =>
    simp only [tagsOf_append]
    exact List.Subset.trans (List.subset_append_left _ _) (List.subset_append_right _ _)
  | @inside content _ tag attrs before behind ih =>
    intro t ht
    have hcontent : t ∈ tagsOf content := ih ht
    simp [tagsOf_append, tagsOf, Html.tags, hcontent]

end Stands

/-! ### Marks in the text of a page -/

/-- Whether a tag of the markup has the given id. -/
def Markup.HasId (m : Markup) (id : List Char) : Prop :=
  ∃ t ∈ tagsOf m, ("id".toList, some id) ∈ t.attrs

instance (m : Markup) (id : List Char) : Decidable (m.HasId id) :=
  inferInstanceAs (Decidable (∃ t ∈ tagsOf m, ("id".toList, some id) ∈ t.attrs))

theorem Stands.hasId {part m : Markup} (h : Stands part m) {id : List Char} (hid : part.HasId id) :
    m.HasId id := by
  obtain ⟨t, ht, hattr⟩ := hid
  exact ⟨t, h.tags ht, hattr⟩

/-- The tag of an element, up to the end of its first attribute. -/
def tagStart (tag name : String) (value : List Char) : List Char :=
  '<' :: (tag.toList ++ ' ' :: (name.toList ++ '=' :: '"' :: (value ++ ['"'])))

theorem attr_chars_of_read {a : Attr} {name value : List Char} (h : a.read = (name, some value)) :
    a.chars = ' ' :: (name ++ '=' :: '"' :: (value ++ ['"'])) := by
  cases a with
  | flag _ => exact absurd h nofun
  | value n pieces =>
    rw [read_value] at h
    obtain ⟨hname, hvalue⟩ := Prod.mk.inj h
    rw [← hname, ← Option.some.inj hvalue]
    rfl

theorem element_starts (tag : Tag) {a : Attr} {name : String} {value : List Char}
    (h : a.read = (name.toList, some value)) (attrs : List Attr) (content : Markup) :
    tagStart tag.name name value <+: (Html.element tag (a :: attrs) content).chars := by
  rw [Html.chars_element, attrChars, List.flatMap_cons, attr_chars_of_read h]
  refine ⟨attrChars attrs ++ '>' ::
    (charsOf content ++ '<' :: '/' :: (tag.name.toList ++ ['>'])), ?_⟩
  simp only [tagStart, attrChars, List.append_assoc, List.cons_append]

/-- A mark is an anchor with such an id. -/
theorem hasId_of_mark {m : Markup} {number : List Char} (h : number ∈ marksOf m) :
    m.HasId (markIdOf number) := by
  obtain ⟨t, ht, hmark⟩ := List.mem_filterMap.1 h
  refine ⟨t, ht, ?_⟩
  unfold TagRead.mark? at hmark
  split at hmark
  · obtain ⟨rest, hattrs⟩ := read_of_markNumber? hmark
    rw [hattrs]
    exact List.mem_cons_self
  · cases hmark

theorem mark_starts {attrs : List Attr} {number : List Char}
    (h : markNumber? (attrs.map Attr.read) = some number) (content : Markup) :
    tagStart "a" "id" (markIdOf number) <+: (Html.element .a attrs content).chars := by
  obtain ⟨rest, hread⟩ := read_of_markNumber? h
  cases attrs with
  | nil => exact absurd hread nofun
  | cons a attrs => exact element_starts .a (List.cons.inj hread).1 attrs content

mutual

theorem Html.tagStart_within : ∀ h : Html, ∀ t ∈ h.tags, ∀ number,
    t.mark? = some number → tagStart "a" "id" (markIdOf number) <:+: h.chars
  | .doctype => fun t ht number hn => by
    obtain rfl := List.mem_singleton.1 ht
    have hnone : doctypeTag.mark? = none := by decide
    exact absurd (hnone.symm.trans hn) nofun
  | .text _ => fun _ ht => absurd ht nofun
  | .attrText _ => fun _ ht => absurd ht nofun
  | .raw _ => fun _ ht => absurd ht nofun
  | .charRef _ => fun _ ht => absurd ht nofun
  | .void tag attrs => fun t ht number hn => by
    obtain rfl := List.mem_singleton.1 ht
    rw [mark?_void] at hn
    exact absurd hn nofun
  | .element tag attrs content => fun t ht number hn => by
    simp only [Html.tags, List.mem_cons, List.mem_append, List.not_mem_nil, or_false] at ht
    rcases ht with rfl | ht | rfl
    · rw [mark?_start] at hn
      split at hn
      · rename_i htag
        subst htag
        exact (mark_starts hn content).isInfix
      · exact absurd hn nofun
    · exact (tagStart_withinOf content t ht number hn).trans (charsOf_within tag attrs content)
    · rw [mark?_stop] at hn
      exact absurd hn nofun

theorem tagStart_withinOf : ∀ m : List Html, ∀ t ∈ tagsOf m, ∀ number,
    t.mark? = some number → tagStart "a" "id" (markIdOf number) <:+: charsOf m
  | [] => fun _ ht => absurd ht nofun
  | h :: hs => fun t ht number hn => by
    rcases List.mem_append.1 ht with ht | ht
    · exact (Html.tagStart_within h t ht number hn).trans (List.infix_append' [] _ _)
    · exact (tagStart_withinOf hs t ht number hn).trans (List.suffix_append _ _).isInfix

end

/-! ### Definitions at the end of a page -/

namespace Page

variable {s : Scene} {part m : Markup}

theorem line_stands (hm : m ∈ frontLines s ++ (footnotes s).value ++ backLines s)
    (h : Stands part m) : Stands part (standalone s).value := by
  have haround : ∃ k ∈ around s (frontLines s ++ (footnotes s).value ++ backLines s),
      Stands part k := by
    unfold around
    split
    · exact ⟨m, hm, h⟩
    · exact ⟨_, List.mem_cons_self, h.stack hm _ _⟩
  obtain ⟨k, hk, hpart⟩ := haround
  have hbody := hpart.stack hk .body s.doc.root.data.idAttrs
  rw [standalone_value]
  refine Stands.lines (List.mem_cons_of_mem _ List.mem_cons_self) ?_
  exact hbody.stack (List.mem_cons_of_mem _ List.mem_cons_self) _ _

theorem body_stands (s : Scene) : Stands (body s).value (standalone s).value := by
  have hfront : Markup.stack .div (attr .id "content" :: maxWidth s) [(body s).value] ∈
      frontLines s ++ (footnotes s).value ++ backLines s := by simp [frontLines]
  exact line_stands hfront ((Stands.refl _).stack List.mem_cons_self _ _)

theorem mem_sequence {α : Type} {f : α → Rendered Markup} {as : List α} {a : α} (h : a ∈ as) :
    (f a).value ∈ (Rendered.sequence (as.map f)).value := by
  induction as with
  | nil => exact absurd h List.not_mem_nil
  | cons b as ih =>
    simp only [List.map_cons, Rendered.sequence, Rendered.value_bind, Rendered.value_pure]
    rcases List.mem_cons.1 h with rfl | h
    · exact List.mem_cons_self
    · exact List.mem_cons_of_mem _ (ih h)

/-- Every footnote of the catalog is defined on a page that shows footnotes. -/
theorem footnote_stands (hshown : s.hasAttr "nofootnotes" = false) {f : Footnote}
    (hf : f ∈ s.doc.catalog.footnotes) : Stands (footnote s f).value (standalone s).value := by
  have hnotes : s.doc.hasFootnotes = true := by
    simpa [Document.hasFootnotes] using List.ne_nil_of_mem hf
  have hsection : Markup.stack .div (attr .id "footnotes" :: maxWidth s)
      (Rendered.sequence (s.doc.catalog.footnotes.map (footnote s))).value ∈
        frontLines s ++ (footnotes s).value ++ backLines s := by
    simp [footnotes, hnotes, hshown]
  exact line_stands hsection ((Stands.refl _).stack (mem_sequence hf) _ _)

theorem footnote_hasId (f : Footnote) :
    (footnote s f).value.HasId ("_footnotedef_".toList ++ decimal f.index) := by
  have hread : (attr .id ("_footnotedef_" ++ toString f.index)).read =
      ("id".toList, some ("_footnotedef_".toList ++ decimal f.index)) := by
    rw [read_attr, String.toList_append, Text.escapedAttribute_append,
      escapedAttribute_digits fun _ => isDigit_of_mem_toString]
    rfl
  refine ⟨Tag.div.start [attr .classes "footnote", attr .id ("_footnotedef_" ++ toString f.index)],
    ?_, ?_⟩
  · simp only [footnote, Rendered.value_bind, Rendered.value_pure]
    exact List.mem_cons_self
  · rw [Tag.start, List.map_cons, List.map_cons, hread]
    exact List.mem_cons_of_mem _ List.mem_cons_self

theorem backLink_within (f : Footnote) :
    tagStart "a" "href" ('#' :: markIdOf (decimal f.index)) <:+: (footnote s f).value.chars := by
  have hread : (attr .href ("#_footnoteref_" ++ toString f.index)).read =
      ("href".toList, some ('#' :: markIdOf (decimal f.index))) := by
    rw [read_attr, String.toList_append, Text.escapedAttribute_append,
      escapedAttribute_digits fun _ => isDigit_of_mem_toString]
    rfl
  let link : Html := .element .a [attr .href ("#_footnoteref_" ++ toString f.index)]
    [.text (toString f.index)]
  have hlink : tagStart "a" "href" ('#' :: markIdOf (decimal f.index)) <+: link.chars :=
    element_starts .a hread [] _
  have hline : ∀ rest, Stands [link] (link :: rest) := Stands.here []
  have hnote : Stands [link] (footnote s f).value := by
    simp only [footnote, Rendered.value_bind, Rendered.value_pure]
    exact (hline _).stack List.mem_cons_self _ _
  have hchars : Markup.chars [link] = link.chars := List.append_nil _
  exact hlink.isInfix.trans (hchars ▸ hnote.chars)

end Page

/-! ### Links back to marks -/

/-- The inline nodes that the blocks of a document show. -/
def Document.shownNodes (d : Document) : List NodeData :=
  Node.shownBlocks (d.doctype == "book") (some d.root.data.asParent) d.root.blocks

theorem isNumeral_decimal (n : Nat) : isNumeral (decimal n) = true := by
  rw [isNumeral, List.all_eq_true]
  exact fun c hc => isDigit_of_mem_toString hc

theorem mem_numeralsIn {m : Markup} {n : Nat} :
    decimal n ∈ numeralsIn m ↔ decimal n ∈ marksOf m := by
  simp [numeralsIn, isNumeral_decimal]

theorem mem_numerals_of_definition {d : NodeData} {n : Nat}
    (h : d.markNumber? = some (decimal n)) : decimal n ∈ d.numerals := by
  have hkind : d.kind = .inlineFootnote := by
    unfold NodeData.markNumber? at h
    split at h
    · rename_i hd
      exact hd.1
    · exact absurd h nofun
  simp [NodeData.numerals, hkind, h, isNumeral_decimal]

namespace Converter

/-- Every footnote of a prepared document has one definition in the tree, and is defined on a page
that shows footnotes, with a link back. The body has the mark that this link leads to if and only
if one of the nodes shown there makes it; so the page has the mark if it shows the footnote. -/
theorem standalone_backLinks (c : Converter) (d : Document)
    (hshown : (c.scene (c.prepare d)).hasAttr "nofootnotes" = false)
    (hmarks : (c.scene (c.prepare d)).KeepsMarks) :
    let p := c.prepare d
    let page := (Page.standalone (c.scene p)).value
    ∀ f ∈ p.catalog.footnotes,
      (numbersOf (p.root.walk.map Node.data)).count (decimal f.index) = 1 ∧
      page.HasId ("_footnotedef_".toList ++ decimal f.index) ∧
      tagStart "a" "href" ('#' :: markIdOf (decimal f.index)) <:+: (c.standalone p).html.toList ∧
      (decimal f.index ∈ marksOf (Page.body (c.scene p)).value ↔
        ∃ x ∈ p.shownNodes, decimal f.index ∈ x.numerals) ∧
      ((∃ x ∈ p.shownNodes, x.markNumber? = some (decimal f.index)) →
        page.HasId (markIdOf (decimal f.index)) ∧
        tagStart "a" "id" (markIdOf (decimal f.index)) <:+: (c.standalone p).html.toList) := by
  intro p page f hf
  have hhtml : (c.standalone p).html.toList = page.chars := String.toList_ofList
  have hnote : Stands (Page.footnote (c.scene p) f).value page := Page.footnote_stands hshown hf
  have hbody : Stands (Page.body (c.scene p)).value page := Page.body_stands _
  have hmark : decimal f.index ∈ marksOf (Page.body (c.scene p)).value ↔
      ∃ x ∈ p.shownNodes, decimal f.index ∈ x.numerals := by
    rw [← mem_numeralsIn, Page.numeralsIn_pageBody hmarks]
    exact List.mem_flatMap
  refine ⟨?_, ?_, ?_, hmark, ?_⟩
  -- The numbers of the tree and those of the catalog both count up from one.
  · have hnumbers : numbersOf (p.root.walk.map Node.data) =
        (List.range' 1 p.catalog.footnotes.length).map decimal := numbersOf_indexFootnotes _
    have horder : p.catalog.footnotes.map Footnote.index =
        List.range' 1 p.catalog.footnotes.length := inOrder_indexFootnotes _
    have hindex := List.mem_map_of_mem (f := Footnote.index) hf
    rw [horder, List.mem_range'_1] at hindex
    rw [hnumbers, count_decimal hindex.1 (by omega)]
  · exact hnote.hasId (Page.footnote_hasId f)
  · rw [hhtml]
    exact (Page.backLink_within f).trans hnote.chars
  · rintro ⟨x, hx, hdefines⟩
    have hin := hmark.2 ⟨x, hx, mem_numerals_of_definition hdefines⟩
    obtain ⟨t, ht, hnumber⟩ := List.mem_filterMap.1 hin
    rw [hhtml]
    exact ⟨hbody.hasId (hasId_of_mark hin),
      (tagStart_withinOf _ t ht _ hnumber).trans hbody.chars⟩

/-- A paragraph with a footnote, and another one in a term that stands in the index alone. -/
def termSample : Document :=
  let note (text : String) : Node := { Node.ofKind .inlineFootnote with text := some [.plain text] }
  let term : Node := { Node.ofKind .inlineIndexterm with text := some [note "two"] }
  Document.blank.withBlocks
    [{ Node.ofKind .paragraph with text := some [.plain "word", note "one", term] }]

/-- The first footnote is shown, so its definition links back to a mark. -/
theorem standalone_shownNote :
    let c : Converter := ⟨.initial, some HighlightJs.highlighter, .blank⟩
    let p := c.prepare termSample
    (c.scene p).hasAttr "nofootnotes" = false ∧ (c.scene p).KeepsMarks ∧
      (∃ x ∈ p.shownNodes, x.markNumber? = some (decimal 1)) ∧
      (Page.standalone (c.scene p)).value.HasId (markIdOf (decimal 1)) ∧
      tagStart "a" "id" (markIdOf (decimal 1)) <:+: (c.standalone p).html.toList := by
  intro c p
  have hshown : (c.scene p).hasAttr "nofootnotes" = false := by decide
  have hmarks : (c.scene p).KeepsMarks := fun _ hh => Option.some.inj hh ▸ HighlightJs.keepsMarks
  have hnode : ∃ x ∈ p.shownNodes, x.markNumber? = some (decimal 1) := by decide
  obtain ⟨f, hf, hindex⟩ : ∃ f ∈ p.catalog.footnotes, f.index = 1 := by decide
  obtain ⟨_, _, _, _, hlinked⟩ := standalone_backLinks c termSample hshown hmarks f hf
  rw [hindex] at hlinked
  exact ⟨hshown, hmarks, hnode, hlinked hnode⟩

/-- The second one is defined on the page, but no tag has the id that its definition links to. -/
theorem standalone_hiddenNote :
    let c : Converter := ⟨.initial, none, .blank⟩
    let p := c.prepare termSample
    let page := (Page.standalone (c.scene p)).value
    (c.scene p).hasAttr "nofootnotes" = false ∧
      page.HasId ("_footnotedef_".toList ++ decimal 2) ∧
      tagStart "a" "href" ('#' :: markIdOf (decimal 2)) <:+: (c.standalone p).html.toList ∧
      ¬ page.HasId (markIdOf (decimal 2)) := by
  intro c p page
  have hshown : (c.scene p).hasAttr "nofootnotes" = false := by decide
  have hhtml : (c.standalone p).html.toList = page.chars := String.toList_ofList
  obtain ⟨f, hf, hindex⟩ : ∃ f ∈ p.catalog.footnotes, f.index = 2 := by decide
  have hnote : Stands (Page.footnote (c.scene p) f).value page := Page.footnote_stands hshown hf
  have hlink := (Page.backLink_within f).trans hnote.chars
  rw [hindex, ← hhtml] at hlink
  exact ⟨hshown, by decide, hlink, by decide⟩

end Converter

end DocPress
