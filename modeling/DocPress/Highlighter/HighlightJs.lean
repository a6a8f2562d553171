import DocPress.Highlighter.Basic
import DocPress.Text.Blank

/-!
# highlight.js

Tags listings for highlight.js, which runs in the browser, and loads its style sheet and scripts
at the foot of the page. The document may set where they are (`highlightjsdir`), the theme
(`highlightjs-theme`) and further languages (`highlightjs-languages`).
-/

namespace DocPress.HighlightJs

set_option autoImplicit false

def version : String := "10.7.3"

def defaultTheme : String := "atom-one-light"

def highlighterName : String := "highlightjs"

/-- The address of the release: the directory of the document, else the one of the CDN. -/
def baseUrl (doc : Document) (ctx : AssetContext) : String :=
  match doc.attr? "highlightjsdir" with
  | some dir => Text.trimEnd '/' dir
  | none => ctx.cdnBaseUrl ++ "/highlight.js/" ++ version

def format (n : Node) (lang : Option String) (content : Markup) (style : ListingStyle) : Markup :=
  let tags := (CodeTags.new highlighterName lang style.nowrap)
    |>.setCode "class" ("language-" ++ lang.getD "none" ++ " hljs")
    |>.setCode "data-noescape" "true"
  let tags := match n.attr? "data-id" with
    | some id => tags.setPre "data-id" id
    | none => tags
  let tags := if n.hasOption "trim" then tags.setCode "data-trim" "" else tags
  tags.wrap content

/-- The names between commas, without blanks around them. -/
def languages (doc : Document) : List String :=
  match doc.attr? "highlightjs-languages" with
  | some list => ((Text.split ',' list).map Text.trim).filter (· ≠ "")
  | none => []

def scriptAt (url : String) : Markup := [.element .script [attr .src url] []]

def footer (doc : Document) (ctx : AssetContext) : Markup :=
  let base := baseUrl doc ctx
  let theme := (doc.attr? "highlightjs-theme").getD defaultTheme
  .lines (
    [[.void .link [attr .rel "stylesheet", attr .href (base ++ "/styles/" ++ theme ++ ".min.css")]],
      scriptAt (base ++ "/highlight.min.js")] ++
    (languages doc).map (fun l => scriptAt (base ++ "/languages/" ++ l ++ ".min.js")) ++
    [[.element .script [] [.text "\nhljs.highlightAll();\n"]]])

def highlighter : Highlighter where
  name := highlighterName
  highlights := false
  preClass := highlighterName
  format := format
  hasHead := false
  head _ _ := none
  hasFooter := true
  footer := footer

end DocPress.HighlightJs
