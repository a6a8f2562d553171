import DocPress.Document.Basic
import DocPress.Highlighter.CodeTags

/-!
# Highlighters

A highlighter is asked for the markup of source listings and for what it needs in the head and at
the foot of a page. One that is only a name tags the listing and asks for nothing.
-/

namespace DocPress

set_option autoImplicit false

/-- What a highlighter is told about a listing besides its language. -/
structure ListingStyle where
  cssMode : Option String
  theme : Option String
  nowrap : Bool

structure AssetContext where
  cdnBaseUrl : String
  linkcss : Bool

structure Highlighter where
  name : String
  highlights : Bool
  preClass : String
  format : Node → Option String → Markup → ListingStyle → Markup
  hasHead : Bool
  head : Document → AssetContext → Option Markup
  hasFooter : Bool
  footer : Document → AssetContext → Markup

/-- The plain tags around a listing. -/
def Highlighter.plainFormat (preClass : String) (_node : Node) (lang : Option String)
    (content : Markup) (style : ListingStyle) : Markup :=
  (CodeTags.new preClass lang style.nowrap).wrap content

/-- The highlighter that is only a name. -/
def Highlighter.ofName (name : String) : Highlighter where
  name := name
  highlights := false
  preClass := name
  format := plainFormat name
  hasHead := false
  head _ _ := none
  hasFooter := false
  footer _ _ := []

end DocPress
