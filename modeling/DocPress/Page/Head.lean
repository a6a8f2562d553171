import DocPress.Block.Title

/-!
# Page heads

What the head of a page holds: fonts and styles of the site, what the document says of itself,
the title, and the style sheets it asks for.
-/

namespace DocPress.Page

set_option autoImplicit false

def version : String := "0.1.0"

def stylesheetLink (href : String) : Markup :=
  [.void .link [attr .rel "stylesheet", attr .href href]]

def fontLink (href : String) : Markup := [.void .link [attr .href href, attr .rel "stylesheet"]]

/-- The fonts and the style sheet of the site. -/
def siteAssets : List Markup := [
  [.void .link [attr .rel "preconnect", attr .href "https://fonts.googleapis.com"]],
  [.void .link [attr .rel "preconnect", attr .href "https://fonts.gstatic.com",
    attr .crossorigin ""]],
  fontLink "https://fonts.googleapis.com/css2?family=Oxygen:wght@400;700&display=swap",
  fontLink "https://fonts.googleapis.com/css2?family=Noto+Serif+SC:wght@400;700&display=swap",
  fontLink "https://fonts.googleapis.com/css2?family=Noto+Sans+SC:wght@400;700&display=swap",
  fontLink "https://cdn.jsdelivr.net/npm/hack-font@3/build/web/hack.css",
  stylesheetLink "/style.css"]

def katexUrl : String := "https://cdn.jsdelivr.net/npm/katex@0.16.11/dist/"

/-- A script that runs once the page is read, checked against its digest. -/
def deferredScript (src digest : String) (further : List Attr) : Markup :=
  [.element .script
    ([.flag .defer, attr .src src, attr .integrity digest, attr .crossorigin "anonymous"] ++
      further) []]

/-- What equations and diagrams need. -/
def equationAssets : List Markup := [
  [.void .link [attr .rel "stylesheet", attr .href (katexUrl ++ "katex.min.css"),
    attr .integrity "sha384-nB0miv6/jRmo5UMMR1wu3Gz6NLsoTkbqJghGIsx//Rlm+ZU03BU6SQNC66uf4l5+",
    attr .crossorigin "anonymous"]],
  deferredScript (katexUrl ++ "katex.min.js")
    "sha384-7zkQWkzuo3B5mTepMUcHkMB5jZaolc2xDwL6VFqjFALcbeS9Ggm/Yr2r3Dy4lfFg" [],
  deferredScript (katexUrl ++ "contrib/auto-render.min.js")
    "sha384-43gviWU0YVjaDtb/GhzOouOXtZMP/7XUzwPTstBeZFe/+rCMvRwr4yROQP43s0Xk"
    [attr .onload "renderMathInElement(document.body);"],
  [.element .script [attr .src "https://cdn.jsdelivr.net/npm/mermaid@11.0.2/dist/mermaid.min.js",
    attr .onload "mermaid.initialize(\x7b startOnLoad: true \x7d);"] []]]

def namedMeta (name content : String) : Markup :=
  [.void .metadata [attr .named name, attr .content content]]

/-- What the document says of itself, as far as it does. -/
def descriptions (s : Scene) : List Markup :=
  ["description", "keywords", "author"].filterMap fun name =>
    (s.attr? name).map (namedMeta name)

/-- The media type of an icon, from the extension of its file. -/
def faviconType (href : String) : List Piece :=
  match Path.extension? href with
  | some "ico" => [.escaped "image/x-icon"]
  | some type => [.escaped "image/", .raw type]
  | none => [.escaped "image/x-icon"]

def favicon (s : Scene) : List Markup :=
  match s.attr? "favicon" with
  | none => []
  | some favicon =>
    let href := if favicon.isEmpty then "favicon.ico" else favicon
    [[.void .link [attr .rel "icon", .value .type (faviconType href), attr .href href]]]

/-- The title of the page, else the one of the document without markup. -/
def titleText (s : Scene) : String :=
  match s.attr? "pagetitle" with
  | some title => title
  | none =>
    let plain := (s.doc.title?.map Node.plainTextOf).getD ""
    if plain.isEmpty then "Untitled" else plain

/-- The text of a style sheet; an unreadable one is empty. -/
def readStylesheet (s : Scene) (path : String) : Rendered String :=
  let path := s.basePath path
  match s.files.read path with
  | .ok css => pure css
  | .error cause => .warn (.unreadableStylesheet path cause) ""

/-- The style sheet of the document, linked or inserted; without one, its web fonts. -/
def stylesheet (s : Scene) : Rendered (List Markup) :=
  match (s.attr? "stylesheet").filter fun sheet => sheet ≠ "" && sheet ≠ "DEFAULT" with
  | none => pure (((s.attr? "webfonts").filter (· ≠ "")).toList.map fun fonts =>
      [.void .link [attr .rel "stylesheet", .value .href
        [.raw s.assetScheme, .escaped ("//fonts.googleapis.com/css?family=" ++ fonts)]]])
  | some sheet =>
    let path := Asset.join (s.attr? "stylesdir") sheet
    if s.hasAttr "linkcss" then pure [stylesheetLink path]
    else do
      let css ← readStylesheet s path
      return [.stack .style [] [[.raw css]]]

/-- The style sheet of the icon font. -/
def iconFont (s : Scene) : List Markup :=
  let remote := s.hasAttr "iconfont-remote"
  let href :=
    if remote then
      (s.attr? "iconfont-cdn").getD (s.cdnBaseUrl ++ "/font-awesome/4.7.0/css/font-awesome.min.css")
    else
      Asset.join (s.attr? "stylesdir") ((s.attr? "iconfont-name").getD "font-awesome" ++ ".css")
  Markup.when s.fontIcons (stylesheetLink href)

/-- The lines of the head, before what the highlighter adds. -/
def headLines (s : Scene) : Rendered (List Markup) := do
  let sheet ← stylesheet s
  return [[.void .metadata [attr .charset "utf-8"]]] ++ siteAssets ++
    (if s.hasAttr "stem" then equationAssets else []) ++
    [namedMeta "viewport" "width=device-width, initial-scale=1",
      namedMeta "generator" ("Waterlens HTML Backend " ++ version)] ++
    descriptions s ++ favicon s ++ [[.element .title [] [.text (titleText s)]]] ++
    sheet ++ iconFont s

end DocPress.Page
