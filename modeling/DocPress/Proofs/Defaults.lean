import DocPress.Converter
import DocPress.Highlighter.HighlightJs
import DocPress.Proofs.AgreementBlocks
import DocPress.Proofs.Preparation

/-! A default attribute shows in a page as an attribute of the document does, with two exceptions:
open blocks ask the document alone whether it is a book, and highlight.js asks it alone for its
own attributes. -/

namespace DocPress

set_option autoImplicit false

/-- The converter with one more default attribute. -/
def Converter.withDefault (c : Converter) (name value : String) : Converter :=
  { c with options :=
      { c.options with attributes := c.options.attributes.insert name value } }

/-- The attributes that highlight.js looks up in the document. -/
def HighlightJs.ownNames : List String :=
  ["highlightjsdir", "highlightjs-theme", "highlightjs-languages"]

namespace Document

variable (d : Document) (name value : String)

theorem attr?_withAttr (other : String) :
    (d.withAttr name (.text value)).attr? other =
      if other = name then some value else d.attr? other := by
  by_cases h : other = name <;>
    simp [Document.attr?, withAttr, Attributes.text?, AttrValue.text?, h]

theorem attr?_none (h : d.attributes.contains name = false) : d.attr? name = none := by
  have hget : d.attributes.get? name = none := by
    simpa [SortedMap.contains] using h
  simp [Document.attr?, Attributes.text?, hget]

/-- An attribute asks for section numbers wherever it is set. -/
theorem asksNumbers_withAttr (defaults : SortedMap String) :
    (d.withAttr name (.text value)).asksNumbers defaults =
      d.asksNumbers (defaults.insert name value) := by
  by_cases h : "sectnums" = name <;>
    simp [asksNumbers, hasAttr, withAttr, SortedMap.contains, h]

theorem prepareWith_withAttr (defaults : SortedMap String) :
    (d.withAttr name (.text value)).prepareWith defaults =
      (d.prepareWith (defaults.insert name value)).withAttr name (.text value) := by
  have hroot : ((d.withAttr name (.text value)).prepareWith defaults).root =
      (d.prepareWith (defaults.insert name value)).root := by
    rw [prepareWith_root, prepareWith_root, asksNumbers_withAttr]
    rfl
  have hregistered : ((d.withAttr name (.text value)).prepareWith defaults).registered =
      (d.prepareWith (defaults.insert name value)).registered := by
    unfold registered
    rw [hroot]
    rfl
  refine eq_of_parts hroot rfl rfl ?_ ?_ rfl
  · rw [prepareWith_refs, hregistered]
    rfl
  · rw [prepareWith_footnotes, asksNumbers_withAttr]
    rfl

end Document

namespace Converter

variable {c : Converter} {d : Document} {name value : String}

/-- The scene with a default, and the one with an attribute of the document. -/
theorem scene_twin (hname : d.attributes.contains name = false)
    (hbook : name = "doctype" → value ≠ "book") :
    ((c.withDefault name value).scene d).Twin (c.scene (d.withAttr name (.text value))) where
  attr? := by
    funext other
    have hwith := d.attr?_withAttr name value other
    simp only [Scene.attr?, scene, withDefault, hwith]
    by_cases h : other = name
    · subst h
      simp [d.attr?_none other hname]
    · simp [h]
  files := rfl
  baseDir := rfl
  rootTarget := rfl
  root := rfl
  header := rfl
  catalog := rfl
  book := by
    have hwith := d.attr?_withAttr name value "doctype"
    simp only [Block.isBook, scene, Document.doctype, hwith]
    by_cases h : "doctype" = name
    · subst h
      simp [d.attr?_none _ hname, hbook rfl]
    · simp [h]
  highlighter := rfl
  chrome := rfl

/-- What highlight.js adds to a page is the same if none of its own attributes is concerned. -/
theorem highlightJs_footer (d : Document) (value : String) (hname : name ∉ HighlightJs.ownNames)
    (ctx : AssetContext) :
    HighlightJs.footer (d.withAttr name (.text value)) ctx = HighlightJs.footer d ctx := by
  have hown : ∀ own ∈ HighlightJs.ownNames,
      (d.withAttr name (.text value)).attr? own = d.attr? own := by
    intro own hmem
    rw [d.attr?_withAttr, if_neg]
    rintro rfl
    exact hname hmem
  have hdir := hown "highlightjsdir" (by decide)
  have htheme := hown "highlightjs-theme" (by decide)
  have hlanguages := hown "highlightjs-languages" (by decide)
  simp only [HighlightJs.footer, HighlightJs.baseUrl, HighlightJs.languages, hdir, htheme,
    hlanguages]

theorem withDefault_footer (hname : d.attributes.contains name = false)
    (hbook : name = "doctype" → value ≠ "book")
    (hlighter : c.highlighter = none ∨ c.highlighter = some HighlightJs.highlighter)
    (hown : c.highlighter ≠ none → name ∉ HighlightJs.ownNames) :
    let s := (c.withDefault name value).scene d
    let t := c.scene (d.withAttr name (.text value))
    Page.highlighterHead s = Page.highlighterHead t ∧
      Page.highlighterFooter s = Page.highlighterFooter t := by
  intro s t
  have htwin : s.Twin t := scene_twin hname hbook
  have hctx : Page.assetContext s = Page.assetContext t := by
    simp only [Page.assetContext, htwin.cdnBaseUrl, htwin.hasAttr]
  have hs : s.highlighter = c.highlighter := rfl
  have ht : t.highlighter = c.highlighter := rfl
  rcases hlighter with hnone | hjs
  · simp only [Page.highlighterHead, Page.highlighterFooter, hs, ht, hnone, and_self]
  · have hfooter := highlightJs_footer d value (hown (by simp [hjs])) (Page.assetContext t)
    simp only [Page.highlighterHead, Page.highlighterFooter, hs, ht, hjs, hctx]
    exact ⟨rfl, congrArg (Markup.when true) hfooter.symm⟩

/-- A default attribute makes the same page, with the same warnings, as an attribute of the
document, unless it makes the document a book or is one that highlight.js looks up itself. -/
theorem convert_withDefault (c : Converter) (d : Document) (name value : String)
    (hname : d.attributes.contains name = false)
    (hlighter : c.highlighter = none ∨ c.highlighter = some HighlightJs.highlighter)
    (hbook : name = "doctype" → value ≠ "book")
    (hown : c.highlighter ≠ none → c.options.standalone = true →
      name ∉ HighlightJs.ownNames) :
    (c.withDefault name value).convert ((c.withDefault name value).prepare d) =
      c.convert (c.prepare (d.withAttr name (.text value))) := by
  let p := (c.withDefault name value).prepare d
  have hprepared : c.prepare (d.withAttr name (.text value)) = p.withAttr name (.text value) :=
    d.prepareWith_withAttr name value c.options.attributes
  have htwin := scene_twin (c := c) (d := p) hname hbook
  have hmode : (c.withDefault name value).options.standalone = c.options.standalone := rfl
  rw [hprepared, convert, convert, hmode]
  cases hst : c.options.standalone with
  | true =>
    obtain ⟨hhead, hfoot⟩ := withDefault_footer (d := p) hname hbook hlighter
      fun h => hown h hst
    simp only [if_true, standalone]
    rw [htwin.standalone hhead hfoot]
  | false =>
    simp only [Bool.false_eq_true, if_false, embedded]
    rw [htwin.embedded]

/-- A document with the given block alone. -/
def singleBlock (n : Node) : Document := Document.blank.withBlocks [n]

/-- A default makes a callout show an icon, as the attribute does. -/
theorem convert_defaultIcons :
    let c : Converter := ⟨{ Options.initial with standalone := false },
      some HighlightJs.highlighter, .blank⟩
    let callout : Node := .leaf { kind := .inlineCallout, source := some "1" }
    let d := singleBlock { Node.ofKind .paragraph with text := some [callout] }
    let shown := (c.withDefault "icons" "font").convert ((c.withDefault "icons" "font").prepare d)
    d.attributes.contains "icons" = false ∧ "icons" ∉ HighlightJs.ownNames ∧
      shown = c.convert (c.prepare (d.withAttr "icons" (.text "font"))) ∧
      shown.html = "<p><i class=\"conum\" data-value=\"1\"></i><b>(1)</b></p>" := by
  intro c callout d shown
  have hname : d.attributes.contains "icons" = false := by decide
  have hown : "icons" ∉ HighlightJs.ownNames := by decide
  exact ⟨hname, hown,
    convert_withDefault c d "icons" "font" hname (.inr rfl) nofun fun _ _ => hown, by decide⟩

/-- A default document type does not make a book, so the abstract stays in the page. -/
theorem convert_defaultDoctype :
    let c : Converter := ⟨{ Options.initial with standalone := false }, none, .blank⟩
    let d := singleBlock { Node.ofKind .openBlock with
      data := { kind := .openBlock, style := some "abstract" }
      text := some [.plain "short"] }
    d.attributes.contains "doctype" = false ∧ c.options.attributes.contains "doctype" = false ∧
      (c.withDefault "doctype" "book").convert ((c.withDefault "doctype" "book").prepare d) ≠
        c.convert (c.prepare (d.withAttr "doctype" (.text "book"))) := by
  intro c d
  refine ⟨by decide, by decide, fun h => ?_⟩
  exact absurd (congrArg (fun r => r.warnings.length) h) (by decide)

end Converter

end DocPress
