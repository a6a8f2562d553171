import DocPress.Node.Basic

/-!
# Documents

A document is a tree with a header, attributes, and a catalog of what can be referred to. The
catalog is filled by preparation.
-/

namespace DocPress

set_option autoImplicit false

structure Author where
  name : String
  email : Option String
  deriving DecidableEq

structure Header where
  title : Inlines
  subtitle : Option Inlines
  authors : List Author

def Header.blank : Header := ⟨[], none, []⟩

/-- What the catalog knows of a node that can be referred to. -/
structure RefTarget where
  kind : Kind
  id : String
  title : Option Inlines
  reftext : Option String
  caption : Option String
  sectname : Option String
  sectnum : Option String
  numbered : Bool
  level : UInt64

/-- The catalog entry of a node under the given id. -/
def RefTarget.ofNode (id : String) (n : Node) : RefTarget :=
  ⟨n.kind, id, n.title, n.attr? "reftext", n.caption, n.sectname, n.sectnum, n.numbered, n.level⟩

/-- A collected footnote: its number from 1, its id and its text. -/
structure Footnote where
  index : Nat
  id : Option String
  text : Inlines

structure Catalog where
  refs : SortedMap RefTarget
  footnotes : List Footnote

namespace Catalog

def blank : Catalog := ⟨∅, []⟩

def ref? (c : Catalog) (id : String) : Option RefTarget := c.refs.get? id

def footnote? (c : Catalog) : Nat → Option Footnote
  | 0 => none
  | i + 1 => c.footnotes[i]?

end Catalog

structure Document where
  root : Node
  header : Option Header
  attributes : Attributes
  catalog : Catalog
  nested : Bool

namespace Document

def blank : Document := ⟨.ofKind .document, none, ∅, .blank, false⟩

instance : Inhabited Document := ⟨blank⟩

def headerOrBlank (d : Document) : Header := d.header.getD .blank

def withTitle (d : Document) (title : Inlines) : Document :=
  { d with header := some { d.headerOrBlank with title := title } }

def withSubtitle (d : Document) (subtitle : Inlines) : Document :=
  { d with header := some { d.headerOrBlank with subtitle := some subtitle } }

def withAuthor (d : Document) (author : Author) : Document :=
  let h := d.headerOrBlank
  { d with header := some { h with authors := h.authors ++ [author] } }

def withAttr (d : Document) (name : String) (value : AttrValue) : Document :=
  { d with attributes := d.attributes.insert name value }

def withBlocks (d : Document) (blocks : List Node) : Document :=
  { d with root := { d.root with blocks := d.root.blocks ++ blocks } }

def withoutAttr (d : Document) (name : String) : Document :=
  { d with attributes := d.attributes.erase name }

def withoutBlock (d : Document) (index : Nat) : Document :=
  { d with root := { d.root with blocks := d.root.blocks.eraseIdx index } }

def attr? (d : Document) (name : String) : Option String := d.attributes.text? name

def hasAttr (d : Document) (name : String) : Bool := d.attributes.contains name

def doctype (d : Document) : String := (d.attr? "doctype").getD "article"

def title? (d : Document) : Option Inlines :=
  match d.header with
  | some h => if h.title.isEmpty then none else some h.title
  | none => none

def hasFootnotes (d : Document) : Bool := !d.catalog.footnotes.isEmpty

/-- The target that stands for the document itself. -/
def rootTarget (d : Document) : RefTarget :=
  { RefTarget.ofNode (d.root.id.getD "") d.root with title := d.title? }

end Document

end DocPress
