import DocPress.Proofs.AnchorErasure
import DocPress.Proofs.DrawnWords
import DocPress.Proofs.Indexing
import DocPress.Proofs.Inert
import DocPress.Proofs.ReadText
import DocPress.Proofs.ReferenceDepth

/-! Titles that are borrowed for a place inside a link. In a prepared document nothing of a title is
written unescaped but the numbers of its footnotes. What it loses are therefore the tags of anchors:
all other tags stay, and so does all text. -/

namespace DocPress

set_option autoImplicit false

/-! ### Tags and text beside the anchors -/

/-- Whether a tag opens or closes an anchor. -/
def TagRead.ofAnchor (t : TagRead) : Bool := t.name == ['a'] || t.name == ['/', 'a']

theorem ofAnchor_start {tag : Tag} (h : tag ≠ .a) (attrs : List Attr) :
    (tag.start attrs).ofAnchor = false := by
  cases tag with
  | a => exact absurd rfl h
  | heading level => simp [TagRead.ofAnchor, Tag.start, heading_name]
  | _ => rfl

theorem ofAnchor_stop {tag : Tag} (h : tag ≠ .a) : tag.stop.ofAnchor = false := by
  cases tag with
  | a => exact absurd rfl h
  | heading level => simp [TagRead.ofAnchor, Tag.stop, heading_name]
  | _ => rfl

theorem ofAnchor_void (tag : VoidTag) (attrs : List Attr) :
    (tag.start attrs).ofAnchor = false := by
  cases tag <;> rfl

mutual

theorem tags_unwrapAnchors : ∀ h : Html,
    tagsOf h.unwrapAnchors = h.tags.filter fun t => !t.ofAnchor
  | .element tag attrs content => by
    have hcontent := tags_unwrapAnchorsOf content
    rw [unwrapAnchors_element, Html.tags]
    by_cases htag : tag = .a
    · subst htag
      have hstart : (Tag.a.start attrs).ofAnchor = true := rfl
      have hstop : Tag.a.stop.ofAnchor = true := rfl
      simp [hstart, hstop, hcontent]
    · simp [htag, tagsOf, Html.tags, ofAnchor_start htag, ofAnchor_stop htag, hcontent]
  | .void tag attrs => by
    simp [Html.unwrapAnchors, tagsOf, Html.tags, ofAnchor_void]
  | .doctype => rfl
  | .text _ => rfl
  | .attrText _ => rfl
  | .raw _ => rfl
  | .charRef _ => rfl

theorem tags_unwrapAnchorsOf : ∀ m : List Html,
    tagsOf (unwrapAnchorsOf m) = (tagsOf m).filter fun t => !t.ofAnchor
  | [] => rfl
  | h :: hs => by
    rw [unwrapAnchorsOf, tagsOf_append, tags_unwrapAnchors h, tags_unwrapAnchorsOf hs, tagsOf,
      List.filter_append]

end

mutual

theorem text_unwrapAnchors : ∀ h : Html, textCharsOf h.unwrapAnchors = h.textChars
  | .element tag attrs content => by
    have hcontent := text_unwrapAnchorsOf content
    rw [unwrapAnchors_element, Html.textChars]
    split
    · exact hcontent
    · exact (List.append_nil _).trans hcontent
  | .void _ _ => rfl
  | .doctype => rfl
  | .text _ => List.append_nil _
  | .attrText _ => List.append_nil _
  | .raw _ => List.append_nil _
  | .charRef _ => List.append_nil _

theorem text_unwrapAnchorsOf : ∀ m : List Html, textCharsOf (unwrapAnchorsOf m) = textCharsOf m
  | [] => rfl
  | h :: hs => by
    rw [unwrapAnchorsOf, textCharsOf_append, text_unwrapAnchors h, text_unwrapAnchorsOf hs,
      textCharsOf]

end

/-! ### Titles of prepared documents -/

/-- Nothing unescaped but decimal numbers of footnotes. -/
def Palette.numbersOnly : Palette where
  text _ := False
  value _ := False
  number x := ∃ i : Nat, x = toString i
  id _ := True
  split := False

theorem Palette.numbersOnly_inert : numbersOnly.Inert where
  text h := absurd h not_false
  value h := absurd h not_false
  number := by
    rintro _ ⟨i, rfl⟩
    exact .decimal i
  whole := not_false

section Titles

variable {s : Scene} {title : Inlines}

theorem Reference.borrowed_fine {defaults : SortedMap String} {d : Document} {n : Node}
    (hn : n ∈ (d.prepareWith defaults).root.walk) (htitle : n.title = some title)
    (hguard : ∀ m ∈ Node.walkAll title, m.kind = .inlineCallout → ∀ x,
      m.attributes.get? "guard" ≠ some (.text x))
    (hsvg : ∀ m ∈ Node.walkAll title, m.kind = .inlineImage → Inline.imageSvg? s m.data = none) :
    FineAll Palette.numbersOnly (borrowed s title).value := by
  refine (inlines_drawn (.refl _) plainWording_worded title fun m hm => ?_).fine
  constructor
  · exact fun _ _ => trivial
  · exact fun hk x hx => hguard m hm hk x hx
  · intro hk x hx
    have hmem : m ∈ (d.prepareWith defaults).root.walk := by
      apply Node.walk_subset _ n hn
      rw [Node.walk_eq, htitle]
      simp only [List.mem_cons, List.mem_append]
      exact .inr (.inl (.inl (.inl (.inl (.inl hm)))))
    obtain ⟨i, _, _, hi⟩ := index_indexFootnotes _ hmem hk hx
    exact ⟨i, hi⟩
  · intro hk x hx
    rw [hsvg m hm hk] at hx
    exact absurd hx.symm (Option.some_ne_none x)

end Titles

/-- A title of a prepared document, with no guard of a callout and no SVG in it, is borrowed without
its anchors and with all else: what is left is what is written when nothing is written for the tags
of anchors, and it reads as the other tags in their order and as the same text. -/
theorem Converter.borrowed_withoutAnchors (c : Converter) (defaults : SortedMap String)
    (d : Document) {n : Node} {title : Inlines} (hn : n ∈ (d.prepareWith defaults).root.walk)
    (htitle : n.title = some title)
    (hguard : ∀ m ∈ Node.walkAll title, m.kind = .inlineCallout → ∀ x,
      m.attributes.get? "guard" ≠ some (.text x))
    (hsvg : ∀ m ∈ Node.walkAll title, m.kind = .inlineImage →
      Inline.imageSvg? (c.scene (d.prepareWith defaults)) m.data = none) :
    let m := (Reference.borrowed (c.scene (d.prepareWith defaults)) title).value
    m.withoutAnchors.chars = dropAnchors m.chars ∧ dropAnchors m.chars = m.bareChars ∧
      (∃ tags, readTags m.chars = some tags ∧
        readTags (dropAnchors m.chars) = some (tags.filter fun t => !t.ofAnchor)) ∧
      readText (dropAnchors m.chars) = readText m.chars := by
  intro m
  have hfine : FineAll Palette.numbersOnly m := Reference.borrowed_fine hn htitle hguard hsvg
  have hraws := Palette.numbersOnly_inert.tagFree hfine
  have hleft := fine_unwrapAnchorsOf m hfine
  have hchars : dropAnchors m.chars = Markup.chars (unwrapAnchorsOf m) :=
    (dropAnchors_chars hraws).trans (chars_unwrapAnchorsOf m).symm
  have hsealed {k : Markup} (hk : FineAll Palette.numbersOnly k) : Sealed k :=
    Palette.numbersOnly_inert.sealed (FineAll.mono (Palette.le_page _) k hk)
  refine ⟨withoutAnchors_chars m, dropAnchors_chars hraws, ?_, ?_⟩
  · refine ⟨tagsOf m, (hsealed hfine).read (FineAll.named m hfine), ?_⟩
    rw [hchars, (hsealed hleft).read (FineAll.named _ hleft), tags_unwrapAnchorsOf]
  · rw [hchars, (hsealed hleft).readText (FineAll.named _ hleft), text_unwrapAnchorsOf,
      (hsealed hfine).readText (FineAll.named m hfine)]

/-- A section whose title has a link with emphasis in it, text that looks like a tag, and a
footnote. -/
def linkedTitle : Document :=
  let word : Node :=
    { Node.leaf { kind := .inlineQuoted, variant := some "strong" } with
      text := some [.plain "one"] }
  let link : Node :=
    { Node.leaf { kind := .inlineAnchor, variant := some "link", target := some "a>b" } with
      text := some [word] }
  let title := [link, .plain " <a href>", .ofKind .inlineFootnote]
  { Document.blank with
    root :=
      { Node.ofKind .document with
        blocks := [{ Node.leaf { kind := .section, level := 1 } with title := some title }] } }

/-- The anchors of the link and of the footnote are gone; the emphasis and the escaped text stay. -/
theorem Converter.borrowed_linkedTitle :
    let c : Converter := ⟨.initial, none, .blank⟩
    let d := linkedTitle.prepareWith ∅
    ∃ n ∈ d.root.walk, ∃ title, n.title = some title ∧
      (Reference.borrowed (c.scene d) title).value.render =
        "<a href=\"a&gt;b\"><strong>one</strong></a> &lt;a href&gt;<sup class=\"footnote\">[" ++
          "<a id=\"_footnoteref_1\" class=\"footnote\" href=\"#_footnotedef_1\" " ++
          "title=\"View footnote.\">1</a>]</sup>" ∧
      dropAnchors (Reference.borrowed (c.scene d) title).value.chars =
        "<strong>one</strong> &lt;a href&gt;<sup class=\"footnote\">[1]</sup>".toList := by
  intro c d
  let n := d.root.walk[1]?.getD default
  let title := n.title.getD []
  have hn : n ∈ d.root.walk := List.mem_of_getElem? (i := 1) rfl
  have htitle : n.title = some title := rfl
  have hkinds : ∀ m ∈ Node.walkAll title, m.kind ≠ .inlineCallout ∧ m.kind ≠ .inlineImage := by
    decide +kernel
  have h := (c.borrowed_withoutAnchors ∅ linkedTitle hn htitle
    (fun m hm hk => absurd hk (hkinds m hm).1) fun m hm hk => absurd hk (hkinds m hm).2).2.1
  refine ⟨n, hn, title, htitle, by decide +kernel, ?_⟩
  rw [h]
  decide +kernel

end DocPress
