import DocPress.Converter
import DocPress.Proofs.AgreementBlocks

/-! The lines of a whole page, and what a highlighter adds to them. The title has a line in the head
and one in the header. A highlighter is asked for source listings, and for a stretch at the end of
the head and one at the end of the body; apart from these it has no say in a page. -/

namespace DocPress

set_option autoImplicit false

/-! ### Lines -/

/-- Lines with a line end behind each. -/
def endedLines : List String → String
  | [] => ""
  | l :: ls => l ++ "\n" ++ endedLines ls

theorem endedLines_append (a b : List String) :
    endedLines (a ++ b) = endedLines a ++ endedLines b := by
  induction a with
  | nil => simp [endedLines]
  | cons l ls ih => simp [endedLines, ih, String.append_assoc]

theorem ended_append {a a' b b' : List String} (ha : endedLines a = endedLines a')
    (hb : endedLines b = endedLines b') : endedLines (a ++ b) = endedLines (a' ++ b') := by
  rw [endedLines_append, endedLines_append, ha, hb]

theorem intercalate_ended {ls : List String} (h : ls ≠ []) :
    "\n".intercalate ls ++ "\n" = endedLines ls := by
  induction ls with
  | nil => exact absurd rfl h
  | cons l ls ih =>
    cases ls with
    | nil => simp [endedLines]
    | cons m ls =>
      rw [String.intercalate_cons_cons, String.append_assoc, ih (List.cons_ne_nil m ls)]
      rfl

/-- Lines that come to the same with an end behind each do so with ends between them. -/
theorem intercalate_eq {a b : List String} (ha : a ≠ []) (hb : b ≠ [])
    (h : endedLines a = endedLines b) : "\n".intercalate a = "\n".intercalate b := by
  rw [← intercalate_ended ha, ← intercalate_ended hb, ← String.toList_inj, String.toList_append,
    String.toList_append] at h
  exact String.toList_inj.mp (List.append_cancel_right h)

def Tag.opening (tag : Tag) (attrs : List Attr) : String :=
  String.ofList ('<' :: (tag.name.toList ++ (attrChars attrs ++ ['>'])))

def Tag.closing (tag : Tag) : String := String.ofList ('<' :: '/' :: (tag.name.toList ++ ['>']))

namespace Markup

theorem render_element (tag : Tag) (attrs : List Attr) (m : Markup) :
    render [.element tag attrs m] = tag.opening attrs ++ m.render ++ tag.closing := by
  rw [← String.toList_inj]
  simp [render, chars, charsOf, Html.chars_element, Tag.opening, Tag.closing]

theorem render_ended (parts : List Markup) :
    render (parts.flatMap (· ++ [.lineEnd])) = endedLines (parts.map render) := by
  induction parts with
  | nil => rfl
  | cons p parts ih =>
    have hend : render [.lineEnd] = "\n" := render_newline
    rw [List.flatMap_cons, render_append, render_append, hend, ih]
    rfl

theorem render_stack (tag : Tag) (attrs : List Attr) (parts : List Markup) :
    render (stack tag attrs parts) =
      endedLines (tag.opening attrs :: parts.map render) ++ tag.closing := by
  have hend : Html.lineEnd.chars = ['\n'] := by decide
  have hparts := congrArg String.toList (render_ended parts)
  rw [endedLines, ← String.toList_inj]
  simp only [render, chars, String.toList_append, String.toList_ofList] at hparts ⊢
  rw [← hparts, stack]
  simp [charsOf, Html.chars_element, hend, Tag.opening, Tag.closing]

/-- A stack takes the line of its start tag, those of its parts and that of its end tag. -/
theorem ended_stack (tag : Tag) (attrs : List Attr) {parts : List Markup} {ls : List String}
    (h : endedLines (parts.map render) = endedLines ls) :
    endedLines [render (stack tag attrs parts)] =
      endedLines ([tag.opening attrs] ++ ls ++ [tag.closing]) := by
  rw [endedLines_append, endedLines_append, ← h, render_stack]
  simp [endedLines, String.append_assoc]

end Markup

namespace Page

section Frame

variable (nav : Bool) (body : List Markup)

/-- The content of a page with a navigation stands in its body, else in an article there. -/
theorem article_lines :
    endedLines ((if nav then body else [.stack .article [] body]).map Markup.render) =
      endedLines ((if nav then [] else ["<article>"]) ++ body.map Markup.render ++
        (if nav then [] else ["</article>"])) := by
  cases nav with
  | true => simp
  | false => exact Markup.ended_stack .article [] rfl

/-- The frame of a page puts its tags on lines of their own. -/
theorem frame_lines (langAttrs idAttrs : List Attr) (head : List Markup) :
    Markup.render (.lines [[.doctype], .stack .html langAttrs [.stack .head [] head,
        .stack .body idAttrs (if nav then body else [.stack .article [] body])]]) =
      "\n".intercalate (["<!DOCTYPE html>", Tag.html.opening langAttrs, "<head>"] ++
        head.map Markup.render ++ ["</head>", Tag.body.opening idAttrs] ++
        (if nav then [] else ["<article>"]) ++ body.map Markup.render ++
        (if nav then [] else ["</article>"]) ++ ["</body>", "</html>"]) := by
  have hhead := Markup.ended_stack .head [] (Eq.refl (endedLines (head.map Markup.render)))
  have hbody := Markup.ended_stack .body idAttrs (article_lines nav body)
  have hdoctype : Markup.render [.doctype] = "<!DOCTYPE html>" := by decide
  have hpage := Markup.ended_stack .html langAttrs
    (show endedLines ([Markup.stack .head [] head, _].map Markup.render) = _ from
      ended_append hhead hbody)
  rw [Markup.render_lines]
  apply intercalate_eq (by simp) (by simp)
  refine (ended_append (Eq.refl (endedLines [_])) hpage).trans (congrArg endedLines ?_)
  rw [hdoctype]
  simp only [List.append_assoc]
  rfl

end Frame

/-- The lines of a page without a highlighter, in three stretches: up to the end of the head, from
there to the end of the body, and the end tags of the page. -/
structure Lines where
  top : List String
  middle : List String
  bottom : List String

/-- The lines with further ones at the end of the head and of the body. -/
def Lines.around (l : Lines) (head foot : List String) : List String :=
  l.top ++ head ++ l.middle ++ foot ++ l.bottom

def linesOf (s : Scene) : Lines where
  top := ["<!DOCTYPE html>", Tag.html.opening (if s.hasAttr "nolang" then [] else
      [attr .lang (lang s)]), "<head>"] ++ (headLines s).value.map Markup.render
  middle := ["</head>", Tag.body.opening s.doc.root.data.idAttrs] ++
    (if s.hasAttr "shownav" then [] else ["<article>"]) ++ (bodyLines s).value.map Markup.render
  bottom := (if s.hasAttr "shownav" then [] else ["</article>"]) ++ ["</body>", "</html>"]

/-- A page is its lines, with what a highlighter adds between them. -/
theorem standalone_lines (s : Scene) :
    (standalone s).value.render = "\n".intercalate ((linesOf s).around
      ((highlighterHead s).map Markup.render) ((highlighterFooter s).map Markup.render)) := by
  rw [standalone]
  simp only [Rendered.value_bind, Rendered.value_pure]
  rw [frame_lines]
  simp [Lines.around, linesOf]

/-! ### Titles -/

/-- The line of the title in the head. -/
def titleLine (title : String) : String := "<title>" ++ Text.escapeText title ++ "</title>"

/-- The line of a title in the header. -/
def headingLine (title : Markup) : String := "<h1>" ++ title.render ++ "</h1>"

theorem render_title (title : String) :
    Markup.render [.element .title [] [.text title]] = titleLine title := by
  have hopening : Tag.title.opening [] = "<title>" := by decide
  have hclosing : Tag.title.closing = "</title>" := by decide
  have htext : Markup.render [.text title] = Text.escapeText title :=
    congrArg String.ofList (List.append_nil _)
  rw [Markup.render_element, hopening, hclosing, htext, titleLine]

theorem render_heading (title : Markup) :
    Markup.render [.element (.heading 1) [] title] = headingLine title := by
  have hopening : (Tag.heading 1).opening [] = "<h1>" := by decide
  have hclosing : (Tag.heading 1).closing = "</h1>" := by decide
  rw [Markup.render_element, hopening, hclosing, headingLine]

theorem headLines_title (s : Scene) :
    ∃ lead trail : List String, (headLines s).value.map Markup.render =
      lead ++ [titleLine (titleText s)] ++ trail := by
  have hmem : [.element .title [] [.text (titleText s)]] ∈ (headLines s).value := by
    simp [headLines]
  rw [← render_title]
  obtain ⟨lead, trail, hsplit⟩ := List.append_of_mem (List.mem_map_of_mem hmem)
  exact ⟨lead, trail, hsplit.trans (List.append_cons _ _ _)⟩

theorem header_title {s : Scene} {title : Inlines} (h : s.doc.title? = some title) :
    ∃ rest, (header s).value = .stack .header [] ((if s.hasAttr "notitle" then []
      else [[.element (.heading 1) [] (runningText s title).value]]) ++ rest) := by
  simp only [header, h]
  split <;> rw [Rendered.value_bind] <;> split <;>
    simp only [Rendered.value_bind, Rendered.value_pure, List.append_assoc] <;> exact ⟨_, rfl⟩

theorem bodyLines_header (s : Scene) : ∃ rest : List Markup, (bodyLines s).value =
    (if s.hasAttr "noheader" then [] else [(header s).value]) ++ rest := by
  simp only [bodyLines]
  split <;> simp only [Rendered.value_bind, Rendered.value_pure, List.append_assoc] <;>
    exact ⟨_, rfl⟩

/-- The lines with which the header begins, if there is one. -/
def headingLines (s : Scene) (title : Markup) : List String :=
  if s.hasAttr "noheader" then []
  else ["<header>"] ++ if s.hasAttr "notitle" then [] else [headingLine title]

theorem header_lines {s : Scene} {title : Inlines} (h : s.doc.title? = some title) :
    ∃ rest, endedLines [(header s).value.render] = endedLines (["<header>"] ++
      (if s.hasAttr "notitle" then [] else [headingLine (runningText s title).value]) ++ rest) := by
  obtain ⟨rest, hheader⟩ := header_title h
  have hopening : Tag.header.opening [] = "<header>" := by decide
  refine ⟨rest.map Markup.render ++ [Tag.header.closing], ?_⟩
  rw [hheader, Markup.ended_stack .header [] rfl, hopening, List.map_append, apply_ite (List.map _),
    List.map_singleton, render_heading]
  simp only [List.map_nil, List.append_assoc]

theorem bodyLines_heading {s : Scene} {title : Inlines} (h : s.doc.title? = some title) :
    ∃ rest, endedLines ((bodyLines s).value.map Markup.render) =
      endedLines (headingLines s (runningText s title).value ++ rest) := by
  obtain ⟨further, hbody⟩ := bodyLines_header s
  obtain ⟨behind, hheader⟩ := header_lines h
  rw [hbody, List.map_append]
  unfold headingLines
  split
  · exact ⟨further.map Markup.render, rfl⟩
  · refine ⟨behind ++ further.map Markup.render, ?_⟩
    rw [← List.append_assoc]
    exact ended_append hheader rfl

/-- A page with a title has it on a line of its head and, if it is shown there, on a line of its
header. -/
theorem standalone_title {s : Scene} {title : Inlines} (h : s.doc.title? = some title) :
    ∃ lead trail rest : List String, (standalone s).value.render = "\n".intercalate (
      ["<!DOCTYPE html>", Tag.html.opening (if s.hasAttr "nolang" then [] else
        [attr .lang (lang s)]), "<head>"] ++ lead ++ [titleLine (titleText s)] ++ trail ++
      ["</head>", Tag.body.opening s.doc.root.data.idAttrs] ++
      (if s.hasAttr "shownav" then [] else ["<article>"]) ++
      headingLines s (runningText s title).value ++ rest) := by
  obtain ⟨lead, trail, hhead⟩ := headLines_title s
  obtain ⟨behind, hbody⟩ := bodyLines_heading h
  refine ⟨lead, trail ++ (highlighterHead s).map Markup.render,
    behind ++ ((highlighterFooter s).map Markup.render ++ (linesOf s).bottom), ?_⟩
  rw [standalone_lines]
  refine intercalate_eq (by simp [Lines.around, linesOf]) (by simp) ?_
  simp only [Lines.around, linesOf, hhead, endedLines_append, hbody, String.append_assoc]

end Page

/-! ### Highlighters -/

/-- Whether no listing of a document is to be highlighted. -/
def Document.WithoutSource (d : Document) : Prop :=
  ∀ n ∈ d.root.walk, n.kind = .listing → n.style ≠ some "source"

namespace Highlighter

variable (h : Highlighter) (d : Document) (ctx : AssetContext)

/-- What a highlighter adds to the end of the head, if it has something for it. -/
def headLines : List String :=
  if h.hasHead then ((h.head d ctx).map Markup.render).toList else []

/-- What a highlighter adds to the end of the body. -/
def footLines : List String := if h.hasFooter then [(h.footer d ctx).render] else []

theorem headLines_eq {s : Scene} (hs : s.highlighter = some h) :
    (Page.highlighterHead s).map Markup.render = h.headLines s.doc (Page.assetContext s) := by
  simp only [Page.highlighterHead, hs, headLines]
  cases h.hasHead with
  | false => rfl
  | true => cases h.head s.doc (Page.assetContext s) <;> rfl

theorem footLines_eq {s : Scene} (hs : s.highlighter = some h) :
    (Page.highlighterFooter s).map Markup.render = h.footLines s.doc (Page.assetContext s) := by
  simp only [Page.highlighterFooter, hs, footLines]
  cases h.hasFooter <;> rfl

end Highlighter

namespace Converter

def withoutHighlighter (c : Converter) : Converter := { c with highlighter := none }

def withHighlighter (c : Converter) (h : Highlighter) : Converter :=
  { c with highlighter := some h }

variable (c : Converter) (h : Highlighter) (d : Document)

/-- The scenes of a document with and without a highlighter are alike. -/
theorem scene_alike : (c.withHighlighter h).scene d |>.Alike (c.withoutHighlighter.scene d) :=
  ⟨⟨rfl, rfl, rfl⟩, rfl, rfl, rfl, rfl, rfl⟩

theorem body_withHighlighter (hd : d.WithoutSource) :
    Page.body ((c.withHighlighter h).scene d) = Page.body (c.withoutHighlighter.scene d) := by
  have halike := c.scene_alike h d
  have hlistings : ((c.withHighlighter h).scene d).SameListings (c.withoutHighlighter.scene d)
      (Node.walkAll d.root.blocks) := by
    intro n hn hkind
    refine halike.plainListing (hd n ?_ hkind)
    rw [Node.walk_eq]
    simp [hn]
  have hblocks := halike.siblings (some d.root.data.asParent) d.root.blocks hlistings
  change blocksIn _ (some d.root.data.asParent) d.root.blocks = blocksIn _ _ _
  rw [blocksIn, hblocks]
  rfl

/-- Without source listings, the pages with and without a highlighter have the same lines. -/
theorem linesOf_withHighlighter (hd : d.WithoutSource) :
    Page.linesOf ((c.withHighlighter h).scene d) = Page.linesOf (c.withoutHighlighter.scene d) ∧
      (Page.standalone ((c.withHighlighter h).scene d)).warnings =
        (Page.standalone (c.withoutHighlighter.scene d)).warnings := by
  have halike := c.scene_alike h d
  have hbody := halike.bodyLines (c.body_withHighlighter h d hd)
  constructor
  · simp only [Page.linesOf, halike.hasAttr, halike.lang, halike.headLines, hbody]
    rfl
  · simp only [Page.standalone, Rendered.warnings_bind, Rendered.warnings_pure, halike.headLines,
      hbody]

/-- A highlighter adds its lines to the end of the head and to the end of the body of a page without
source listings, and nothing else; one that has nothing to add leaves the page as it is. -/
theorem standalone_withHighlighter (hd : d.WithoutSource) :
    let s := c.withoutHighlighter.scene d
    let ctx := Page.assetContext s
    let lines := Page.linesOf s
    (c.withoutHighlighter.standalone d).html = "\n".intercalate (lines.around [] []) ∧
      ((c.withHighlighter h).standalone d).html =
        "\n".intercalate (lines.around (h.headLines d ctx) (h.footLines d ctx)) ∧
      lines.middle.head? = some "</head>" ∧
      lines.bottom.head? = some (if s.hasAttr "shownav" then "</body>" else "</article>") ∧
      ((c.withHighlighter h).standalone d).warnings =
        (c.withoutHighlighter.standalone d).warnings ∧
      ((h.hasHead = false ∨ h.head d ctx = none) → h.hasFooter = false →
        ((c.withHighlighter h).standalone d).html = (c.withoutHighlighter.standalone d).html) := by
  intro s ctx lines
  obtain ⟨hlines, hwarnings⟩ := c.linesOf_withHighlighter h d hd
  have hplain : (c.withoutHighlighter.standalone d).html =
      "\n".intercalate (lines.around [] []) := Page.standalone_lines s
  have hadded : ((c.withHighlighter h).standalone d).html =
      "\n".intercalate (lines.around (h.headLines d ctx) (h.footLines d ctx)) := by
    refine (Page.standalone_lines ((c.withHighlighter h).scene d)).trans ?_
    rw [h.headLines_eq rfl, h.footLines_eq rfl, hlines]
    rfl
  have hbottom : lines.bottom.head? =
      some (if s.hasAttr "shownav" then "</body>" else "</article>") := by
    change (Page.linesOf s).bottom.head? = _
    rw [Page.linesOf]
    cases s.hasAttr "shownav" <;> rfl
  refine ⟨hplain, hadded, rfl, hbottom, hwarnings, fun hhead hfoot => ?_⟩
  have hnohead : h.headLines d ctx = [] := by
    rcases hhead with hhead | hhead <;> simp [Highlighter.headLines, hhead]
  have hnofoot : h.footLines d ctx = [] := by simp [Highlighter.footLines, hfoot]
  rw [hadded, hplain, hnohead, hnofoot]

/-- A listing that is not source, in a page whose highlighter adds to the head and to the body. -/
theorem standalone_markedPage :
    let c : Converter := ⟨Options.initial, none, .blank⟩
    let h : Highlighter := { Highlighter.ofName "marker" with
      hasHead := true
      head := fun _ ctx => some (Page.stylesheetLink (ctx.cdnBaseUrl ++ "/marker.css"))
      hasFooter := true
      footer := fun _ _ => [.element .script [] [.raw "mark()"]] }
    let d := Document.blank.withBlocks [{ Node.ofKind .listing with text := some [.plain "x"] }]
    d.WithoutSource ∧ ((c.withHighlighter h).standalone d).html = "\n".intercalate
      ((Page.linesOf (c.withoutHighlighter.scene d)).around
        ["<link rel=\"stylesheet\" href=\"https://cdnjs.cloudflare.com/ajax/libs/marker.css\">"]
        ["<script>mark()</script>"]) := by
  intro c h d
  have hd : d.WithoutSource := by
    unfold Document.WithoutSource
    decide
  obtain ⟨-, hadded, -⟩ := c.standalone_withHighlighter h d hd
  refine ⟨hd, hadded.trans ?_⟩
  have hhead : h.headLines d (Page.assetContext (c.withoutHighlighter.scene d)) =
      ["<link rel=\"stylesheet\" href=\"https://cdnjs.cloudflare.com/ajax/libs/marker.css\">"] := by
    decide +kernel
  have hfoot : h.footLines d (Page.assetContext (c.withoutHighlighter.scene d)) =
      ["<script>mark()</script>"] := by
    decide +kernel
  rw [hhead, hfoot]

end Converter

end DocPress
