import DocPress.SortedMap

/-!
# Options

What stays the same from one document to the next: the kind of output, where files are read from,
default attributes, and the navigation and footer of pages by language.
-/

namespace DocPress

set_option autoImplicit false

structure NavLink where
  title : String
  href : String
  deriving DecidableEq, Repr

/-- Navigation links and footers by language. -/
structure Chrome where
  navigation : SortedMap (List NavLink)
  footer : SortedMap String

namespace Chrome

def blank : Chrome := ⟨∅, ∅⟩

/-- The entry that stands in for languages without one of their own. -/
def defaultLang : String := "default"

def navigationFor (c : Chrome) (lang : String) : Option (List NavLink) :=
  c.navigation.get? lang <|> c.navigation.get? defaultLang

def footerFor (c : Chrome) (lang : String) : Option String :=
  c.footer.get? lang <|> c.footer.get? defaultLang

end Chrome

structure Options where
  standalone : Bool
  baseDir : String
  attributes : SortedMap String
  chrome : Chrome

def Options.initial : Options := ⟨true, ".", ∅, .blank⟩

end DocPress
