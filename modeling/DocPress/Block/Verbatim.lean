import DocPress.Block.Title
import DocPress.Equation

/-!
# Verbatim blocks

Listings, literal blocks and equations. Source listings are handed to the highlighter, if there
is one.
-/

namespace DocPress.Block

set_option autoImplicit false

/-- Whether the lines of a block are kept unwrapped. -/
def isNowrap (s : Scene) (d : NodeData) : Bool := d.hasOption "nowrap" || !s.hasAttr "prewrap"

/-- What a highlighter is told about a listing; the style only if it highlights itself. -/
def listingStyle (s : Scene) (h : Highlighter) (nowrap : Bool) : ListingStyle :=
  if h.highlights then
    ⟨some ((s.attr? (h.name ++ "-css")).getD "class"), s.attr? (h.name ++ "-style"), nowrap⟩
  else ⟨none, none, nowrap⟩

def plainSource (lang : Option String) (nowrap : Bool) (content : Markup) : Markup :=
  let codeAttrs := match lang with
    | some lang => [attr .classes ("language-" ++ lang), attr .dataLang lang]
    | none => []
  [.element .pre [attr .classes (if nowrap then "highlight nowrap" else "highlight")]
    [.element .code codeAttrs content]]

def preformatted (nowrap : Bool) (content : Markup) : Markup :=
  [.element .pre (if nowrap then [attr .classes "nowrap"] else []) content]

def listingBody (s : Scene) (n : Node) (content : Markup) : Markup :=
  let nowrap := isNowrap s n.data
  if n.style = some "source" then
    let lang := n.attr? "language"
    match s.highlighter with
    | some h => h.format n lang content (listingStyle s h nowrap)
    | none => plainSource lang nowrap content
  else preformatted nowrap content

def listing (s : Scene) (n : Node) : Rendered Markup := do
  let content ← verbatim s n
  let title ← titleLine s n true
  return .stack .div (n.data.idAttrs ++ n.data.classAttrs "listing")
    (title ++ [contentBox [listingBody s n content]])

def literalBlock (s : Scene) (n : Node) : Rendered Markup := do
  let title ← titleLine s n false
  let content ← verbatim s n
  return .stack .div (n.data.idAttrs ++ n.data.classAttrs "literal")
    (title ++ [contentBox [preformatted (isNowrap s n.data) content]])

/-- The language of an equation: the style of the block, else the one of the document. -/
def stemStyle (s : Scene) (d : NodeData) : String :=
  match d.style.filter (· ≠ "stem") with
  | some style => style
  | none => ((s.attr? "stem").filter (· ≠ "")).getD "asciimath"

def equations (style : String) (content : Markup) : Markup :=
  let delimiters := if style = "latexmath" then Equation.latex else Equation.ascii
  let content := if style = "asciimath" then Equation.split delimiters content else content
  Equation.delimit delimiters content

def stem (s : Scene) (n : Node) : Rendered Markup := do
  let content ← verbatim s n
  let title ← titleLine s n false
  return .stack .div (n.data.idAttrs ++ n.data.classAttrs "stem")
    (title ++ [contentBox [equations (stemStyle s n.data) content]])

end DocPress.Block
