import DocPress.Converter
import DocPress.Proofs.Inert

/-! Pages are well nested when all that they insert unescaped is inert. Nothing is asked of what is
escaped, nor of how nodes are put together. -/

namespace DocPress

set_option autoImplicit false

/-! ### Inert files -/

namespace Svg

theorem startsRoot_eq_false {cs : List Char} (h : '<' ∉ cs) : startsRoot cs = false := by
  unfold startsRoot rootStart
  cases cs with
  | nil => rfl
  | cons c cs =>
    have hc : ('<' == c) = false := by
      simp only [beq_eq_false_iff_ne]
      rintro rfl
      exact h List.mem_cons_self
    simp [List.isPrefixOf, hc]

theorem fromRoot?_eq_none {cs : List Char} (h : '<' ∉ cs) : fromRoot? cs = none := by
  induction cs with
  | nil => rfl
  | cons c cs ih =>
    rw [fromRoot?, startsRoot_eq_false h]
    exact ih fun hm => h (List.mem_cons_of_mem c hm)

/-- A file without a root element is inserted as it is. -/
theorem resize_of_no_bracket {svg : String} (h : '<' ∉ svg.toList) (width height : Option String) :
    resize svg width height = svg := by
  have hdrop : dropPreamble svg.toList = svg.toList := by
    unfold dropPreamble
    split
    · rfl
    · rw [fromRoot?_eq_none h]
      rfl
  simp only [resize, hdrop, splitStartTag?, startsRoot_eq_false h, Bool.false_eq_true, if_false,
    String.ofList_toList, ite_self]

theorem read_eq_some {s : Scene} {d : NodeData} {target x : String}
    (h : (read s d target).value = some x) : ∃ svg, s.files.read (pathOf s target) = .ok svg ∧
      x = resize svg (d.attr? "width") (d.attr? "height") := by
  simp only [read] at h
  split at h
  · exact absurd h nofun
  · split at h
    · exact absurd h nofun
    · rename_i svg hfile
      split at h
      · exact absurd h nofun
      · exact ⟨svg, hfile, (Option.some.inj h).symm⟩

end Svg

/-! ### Inert scenes -/

theorem Reference.defaultSign_inert {name sign : String} (h : defaultSign? name = some sign) :
    Inert sign := by
  unfold defaultSign? at h
  split at h
  · obtain rfl := Option.some.inj h
    exact .of_all (by decide)
  · obtain rfl := Option.some.inj h
    exact .of_all (by decide)
  · obtain rfl := Option.some.inj h
    exact .of_all (by decide)
  · obtain rfl := Option.some.inj h
    exact .of_all (by decide)
  · exact absurd h nofun

/-- Whether the texts are inert that nodes insert unescaped: the sources of pass blocks, guards of
callouts, the files of SVGs, signs before numbers, the numbers of sections, and the scheme of
addresses. -/
structure Scene.InertNodes (s : Scene) : Prop where
  pass : ∀ n, s.doc.Holds n → n.kind = .pass → ∀ x, n.source = some x → Inert x
  guard : ∀ n, s.doc.Holds n → n.kind = .inlineCallout →
    ∀ x, n.attributes.get? "guard" = some (.text x) → Inert x
  svg : ∀ n, s.doc.Holds n → n.kind = .image ∨ n.kind = .inlineImage →
    n.hasOption "inline" = true → ∀ svg, s.files.read (Svg.pathOf s (n.target.getD "")) = .ok svg →
      Inert svg
  sign : ∀ name x, s.attr? (name ++ "-refsig") = some x → Inert x
  scheme : ∀ x, s.attr? "asset-uri-scheme" = some x → Inert x
  sectnum : ∀ n, s.doc.Holds n → ∀ x, n.sectnum = some x → Inert x

/-- Whether all texts that are inserted unescaped are inert: those of nodes, style sheets, footers
of the options, the extension of the icon, and the numbers of targets and footnotes. -/
structure Scene.InertPage (s : Scene) : Prop extends Scene.InertNodes s where
  sheet : ∀ sheet, s.attr? "stylesheet" = some sheet →
    ∀ css, s.files.read (s.basePath (Asset.join (s.attr? "stylesdir") sheet)) = .ok css →
      Inert css
  footer : ∀ lang x, s.options.chrome.footer.get? lang = some x → Inert x
  favicon : ∀ x, Page.faviconExtension? s = some x → Inert x
  targetNumber : ∀ id t, s.doc.catalog.ref? id = some t →
    ∀ x, t.sectnum = some x → Inert x
  index : ∀ n, s.doc.Holds n → n.kind = .inlineFootnote →
    ∀ x, n.attr? indexName = some x → Inert x

namespace Scene.InertNodes

variable {s : Scene} (h : s.InertNodes)

include h

theorem of_channel {x : String} (hx : NodeChannel s x) : Inert x := by
  cases hx with
  | pass hn hk hx => exact h.pass _ hn hk x hx
  | guard hn hk hx => exact h.guard _ hn hk x hx
  | svg hn hk ho hx =>
    obtain ⟨svg, hfile, rfl⟩ := Svg.read_eq_some hx
    have hinert := h.svg _ hn hk ho svg hfile
    rwa [Svg.resize_of_no_bracket hinert.no_bracket]

theorem of_splicedText (htarget : ∀ id t, s.doc.catalog.ref? id = some t →
    ∀ x, t.sectnum = some x → Inert x) {x : String} (hx : SplicedText s x) :
    Inert x := by
  cases hx with
  | sign hx => exact h.sign _ x hx
  | sectnum hn _ hx => exact h.sectnum _ hn x hx
  | @target id t ht _ y hx =>
    refine Inert.trimEnd ?_ '.'
    unfold Reference.target? at ht
    split at ht
    · rename_i target hr
      obtain rfl := Option.some.inj ht
      exact htarget id _ hr y hx
    · split at ht
      · obtain rfl := Option.some.inj ht
        exact h.sectnum _ (.tree (Node.mem_walk_self _)) y hx
      · simp at ht

theorem of_scheme : Inert s.assetScheme := by
  have hcolon : Inert ":" := .of_all (by decide)
  have hempty : Inert "" := nofun
  simp only [Scene.assetScheme]
  split
  · exact hempty
  · refine Inert.append ?_ hcolon
    cases hx : s.attr? "asset-uri-scheme" with
    | some x => exact h.scheme x hx
    | none => exact .of_all (by decide)

end Scene.InertNodes

namespace Scene.InertPage

variable {s : Scene} (h : s.InertPage)

include h

theorem of_channel {x : String} (hx : Channel s x) : Inert x := by
  cases hx with
  | node hx => exact h.toInertNodes.of_channel hx
  | @sheet sheet hs =>
    simp only [Page.sheetText, Page.readStylesheet]
    split
    · rename_i css hfile
      exact h.sheet sheet hs css hfile
    · exact nofun
  | footer hx => exact h.footer _ x hx

theorem of_splicedValue {x : String} (hx : SplicedValue s x) : Inert x := by
  cases hx with
  | scheme => exact h.toInertNodes.of_scheme
  | favicon hx => exact h.favicon _ hx

theorem palette : (Palette.origins s).Inert where
  text := by
    rintro x (hx | hx | ⟨name, hname⟩)
    · exact h.of_channel hx
    · exact h.toInertNodes.of_splicedText h.targetNumber hx
    · exact Reference.defaultSign_inert hname
  value := h.of_splicedValue
  number := by
    rintro x ⟨n, hn, hk, hx⟩
    exact h.index n hn hk x hx
  whole := id

end Scene.InertPage

/-! ### Well nested output -/

/-- Whether a text is read as tags that close each other in order. -/
def WellNested (html : String) : Prop :=
  ∃ ts, readTags html.toList = some ts ∧ nested [] ts = true

theorem wellNested_render {P : Palette} {m : Markup} (hm : FineAll P m) (hs : Sealed m) :
    WellNested m.render := by
  rw [WellNested, Markup.render, String.toList_ofList]
  exact hs.read_nested (FineAll.named m hm)

/-- Whole pages and embedded content are well nested, whatever the document and the options are, as
long as what is inserted unescaped is inert. -/
theorem Converter.output_wellNested (c : Converter) (d : Document)
    (hh : c.highlighter = none ∨ c.highlighter = some HighlightJs.highlighter)
    (h : (c.scene d).InertPage) :
    WellNested (c.standalone d).html ∧ WellNested (c.embedded d).html ∧
      WellNested (c.convert d).html := by
  have hstandalone : WellNested (c.standalone d).html :=
    wellNested_render (standalone_fine hh) (h.palette.sealed (standalone_fine hh))
  have hembedded : WellNested (c.embedded d).html :=
    wellNested_render (embedded_fine hh) (h.palette.sealed (embedded_fine hh))
  refine ⟨hstandalone, hembedded, ?_⟩
  unfold Converter.convert
  split
  · exact hstandalone
  · exact hembedded

/-- A document with a block that is passed through and a footnote that has a number already. -/
def inertSample : Document := Document.blank.withBlocks [
  .leaf { kind := .pass, source := some "a & b" },
  { Node.leaf {} with text := some [
    .leaf { kind := .inlineFootnote, attributes := SortedMap.empty.insert "index" (.text "7") }] }]

theorem inertSample_nested :
    ((⟨.initial, some HighlightJs.highlighter, .blank⟩ : Converter).scene inertSample).InertPage ∧
      WellNested ((⟨.initial, some HighlightJs.highlighter, .blank⟩ : Converter).standalone
        inertSample).html := by
  have htree : ∀ n ∈ inertSample.root.walk, n.sectnum = none ∧
      (n.kind = .pass → n.source = some "a & b") ∧ n.kind ≠ .inlineCallout ∧
      n.hasOption "inline" = false ∧ (n.kind = .inlineFootnote → n.attr? indexName = some "7") := by
    decide
  have held : ∀ n, inertSample.Holds n → n ∈ inertSample.root.walk := by
    intro n hn
    cases hn with
    | tree h => exact h
    | header h => exact absurd h nofun
    | target ht _ => exact absurd ht nofun
    | note hf _ => exact absurd hf nofun
  have hinert : ((⟨.initial, some HighlightJs.highlighter, .blank⟩ : Converter).scene
      inertSample).InertPage := {
    pass := fun n hn hk x hx => by
      obtain rfl := Option.some.inj (((htree n (held n hn)).2.1 hk).symm.trans hx)
      exact .of_all (by decide)
    guard := fun n hn hk => absurd hk (htree n (held n hn)).2.2.1
    svg := fun n hn _ ho => absurd ho (by simp [(htree n (held n hn)).2.2.2.1])
    sheet := fun _ h => absurd h nofun
    footer := fun _ _ h => absurd h nofun
    sign := fun _ _ h => absurd h nofun
    scheme := fun _ h => absurd h nofun
    favicon := fun _ h => absurd h nofun
    sectnum := fun n hn x hx => absurd ((htree n (held n hn)).1.symm.trans hx) nofun
    targetNumber := fun _ _ h => absurd h nofun
    index := fun n hn hk x hx => by
      obtain rfl := Option.some.inj (((htree n (held n hn)).2.2.2.2 hk).symm.trans hx)
      exact .of_all (by decide) }
  exact ⟨hinert, (Converter.output_wellNested _ inertSample (.inr rfl) hinert).1⟩

end DocPress
