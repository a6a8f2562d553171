import DocPress.Block.Basic
import DocPress.Page.Frame
import DocPress.Page.Head

/-!
# Pages

A document as a whole page, or only its content. The lines of a page stand in the order of the
page; what a highlighter adds goes to the end of the head and to the end of the body.
-/

namespace DocPress.Page

set_option autoImplicit false

def body (s : Scene) : Rendered Markup :=
  blocksIn s (some s.doc.root.data.asParent) s.doc.root.blocks

/-- The content alone, under its title if that is to be shown. -/
def embedded (s : Scene) : Rendered Markup := do
  let title ← match s.doc.title? with
    | some title =>
      if s.hasAttr "showtitle" && !s.hasAttr "notitle" then do
        let title ← runningText s title
        pure [[Html.element (.heading 1) s.doc.root.data.idAttrs title]]
      else pure []
    | none => pure []
  let body ← body s
  return .lines (title ++ [body])

def lang (s : Scene) : String := (s.attr? "lang").getD "en"

/-- The width that the content is held to, if one is set. -/
def maxWidth (s : Scene) : List Attr :=
  optAttr .style ((s.attr? "max-width").map fun w => "max-width: " ++ w ++ ";")

/-- The name of an author, and the address if there is one; all but the first are numbered. -/
def authorLines (position : Nat) (a : Author) : List Markup :=
  let suffix := if position = 0 then "" else toString (position + 1)
  let line (id cls : String) (content : Markup) : Markup :=
    [.element .span [attr .id (id ++ suffix), attr .classes cls] content, .void .br []]
  line "author" "author" [.text a.name] :: match a.email with
    | some email =>
      [line "email" "email" [.element .a [attr .href ("mailto:" ++ email)] [.text email]]]
    | none => []

def details (authors : List Author) : List Markup :=
  Markup.when (!authors.isEmpty) (.stack .div [attr .classes "details"]
    (authors.zipIdx.flatMap fun p => authorLines p.2 p.1))

def header (s : Scene) : Rendered Markup := do
  let header := s.doc.headerOrBlank
  let title ←
    if s.hasAttr "notitle" then pure []
    else do
      let title ← match s.doc.title? with
        | some title => runningText s title
        | none => pure [.text "Untitled"]
      pure [[Html.element (.heading 1) [] title]]
  let subtitle ← match header.subtitle.filter (!·.isEmpty) with
    | some subtitle => do
      pure [[Html.element (.heading 2) [attr .classes "subtitle"] (← runningText s subtitle)]]
    | none => pure []
  let nav := Markup.when (s.hasAttr "shownav")
    (navigation (s.options.chrome.navigationFor (lang s)) (lang s))
  return .stack .header [] (title ++ subtitle ++ details header.authors ++ nav)

/-- A footnote with the link back to its mark. -/
def footnote (s : Scene) (f : Footnote) : Rendered Markup := do
  let text ← runningText s f.text
  let index := toString f.index
  return .stack .div [attr .classes "footnote", attr .id ("_footnotedef_" ++ index)]
    [.element .a [attr .href ("#_footnoteref_" ++ index)] [.text index] :: .text ". " :: text]

/-- All footnotes of the catalog, if there are any and they are not turned off. -/
def footnotes (s : Scene) : Rendered (List Markup) :=
  if s.doc.hasFootnotes && !s.hasAttr "nofootnotes" then do
    let notes ← Rendered.sequence (s.doc.catalog.footnotes.map (footnote s))
    return [.stack .div (attr .id "footnotes" :: maxWidth s) notes]
  else pure []

/-- The lines of the body, before what the highlighter adds. -/
def bodyLines (s : Scene) : Rendered (List Markup) := do
  let header ← if s.hasAttr "noheader" then pure [] else do pure [← header s]
  let body ← body s
  let footnotes ← footnotes s
  let footer := Markup.when (!s.hasAttr "nofooter")
    (footer (s.options.chrome.footerFor (lang s)) (lang s))
  let rule : Markup := [.void .hr []]
  return header ++ [rule, .stack .div (attr .id "content" :: maxWidth s) [body], rule] ++
    footnotes ++ footer

def assetContext (s : Scene) : AssetContext := ⟨s.cdnBaseUrl, s.hasAttr "linkcss"⟩

def highlighterHead (s : Scene) : List Markup :=
  match s.highlighter with
  | some h => if h.hasHead then (h.head s.doc (assetContext s)).toList else []
  | none => []

def highlighterFooter (s : Scene) : List Markup :=
  match s.highlighter with
  | some h => Markup.when h.hasFooter (h.footer s.doc (assetContext s))
  | none => []

def standalone (s : Scene) : Rendered Markup := do
  let head ← headLines s
  let body ← bodyLines s
  let langAttrs := if s.hasAttr "nolang" then [] else [attr .lang (lang s)]
  let bodyLines := body ++ highlighterFooter s
  let bodyLines := if s.hasAttr "shownav" then bodyLines else [.stack .article [] bodyLines]
  return .lines [[.doctype],
    .stack .html langAttrs [
      .stack .head [] (head ++ highlighterHead s),
      .stack .body s.doc.root.data.idAttrs bodyLines]]

end DocPress.Page
