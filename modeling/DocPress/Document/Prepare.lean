import DocPress.Document.Footnotes
import DocPress.Document.Numbering

/-!
# Preparation

A document is prepared once before it is rendered: sections are numbered, footnotes indexed, and
the targets of references registered, in this order, so that the titles in the catalog show the
numbers of the tree.
-/

namespace DocPress

set_option autoImplicit false

/-- Whether a node with an id can be referred to. -/
def Node.isRegistrable (n : Node) : Bool :=
  match n.kind with
  | .inlineAnchor => n.variant == some "ref" || n.variant == some "bibref"
  | .document => false
  | kind => !kind.isInline

/-- Registers a node under its id; the first registration of an id stays. -/
def registerRef (refs : SortedMap RefTarget) (n : Node) : SortedMap RefTarget :=
  match n.id with
  | some id => if n.isRegistrable && !refs.contains id then refs.insert id (.ofNode id n) else refs
  | none => refs

namespace Document

/-- The nodes that may be registered: those of the header title, then those of the tree. -/
def registered (d : Document) : List Node :=
  Node.walkAll ((d.header.map Header.title).getD []) ++ d.root.walk

def numberIf (number : Bool) (root : Node) : Node :=
  if number then { root with blocks := (numberSections "" root.blocks 0).1 } else root

/-- Prepares the document; `defaults` stand in for attributes it does not set. -/
def prepareWith (defaults : SortedMap String) (d : Document) : Document :=
  let number := d.hasAttr "sectnums" || defaults.contains "sectnums"
  let (root, footnotes) := indexFootnotes (numberIf number d.root)
  let d := { d with root := root }
  { d with catalog := ⟨d.registered.foldl registerRef ∅, footnotes⟩ }

def prepare (d : Document) : Document := d.prepareWith ∅

end Document

end DocPress
