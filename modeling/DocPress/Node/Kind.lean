/-!
# Kinds of nodes

Every node of a document has one kind, which says what it is and where it may stand. The set is
closed, and each kind has one name.
-/

namespace DocPress

set_option autoImplicit false

inductive Kind where
  | document | section | preamble | paragraph | admonition | audio | colist | dlist | exampleBlock
  | floatingTitle | image | listing | literal | stem | olist | openBlock | pageBreak | pass
  | quote | sidebar | table | thematicBreak | ulist | verse | video | listItem | text
  | inlineAnchor | inlineBreak | inlineButton | inlineCallout | inlineFootnote | inlineImage
  | inlineIndexterm | inlineKbd | inlineMenu | inlineQuoted
  deriving DecidableEq, Repr, Inhabited

namespace Kind

/-- All kinds, blocks before inlines. -/
def all : List Kind := [
  .document, .section, .preamble, .paragraph, .admonition, .audio, .colist, .dlist, .exampleBlock,
  .floatingTitle, .image, .listing, .literal, .stem, .olist, .openBlock, .pageBreak, .pass,
  .quote, .sidebar, .table, .thematicBreak, .ulist, .verse, .video, .listItem, .text,
  .inlineAnchor, .inlineBreak, .inlineButton, .inlineCallout, .inlineFootnote, .inlineImage,
  .inlineIndexterm, .inlineKbd, .inlineMenu, .inlineQuoted]

def name : Kind → String
  | .document => "document"
  | .section => "section"
  | .preamble => "preamble"
  | .paragraph => "paragraph"
  | .admonition => "admonition"
  | .audio => "audio"
  | .colist => "colist"
  | .dlist => "dlist"
  | .exampleBlock => "example"
  | .floatingTitle => "floating_title"
  | .image => "image"
  | .listing => "listing"
  | .literal => "literal"
  | .stem => "stem"
  | .olist => "olist"
  | .openBlock => "open"
  | .pageBreak => "page_break"
  | .pass => "pass"
  | .quote => "quote"
  | .sidebar => "sidebar"
  | .table => "table"
  | .thematicBreak => "thematic_break"
  | .ulist => "ulist"
  | .verse => "verse"
  | .video => "video"
  | .listItem => "list_item"
  | .text => "text"
  | .inlineAnchor => "inline_anchor"
  | .inlineBreak => "inline_break"
  | .inlineButton => "inline_button"
  | .inlineCallout => "inline_callout"
  | .inlineFootnote => "inline_footnote"
  | .inlineImage => "inline_image"
  | .inlineIndexterm => "inline_indexterm"
  | .inlineKbd => "inline_kbd"
  | .inlineMenu => "inline_menu"
  | .inlineQuoted => "inline_quoted"

def ofName? (name : String) : Option Kind := all.find? fun k => k.name == name

def isInline : Kind → Bool
  | .text | .inlineAnchor | .inlineBreak | .inlineButton | .inlineCallout | .inlineFootnote
  | .inlineImage | .inlineIndexterm | .inlineKbd | .inlineMenu | .inlineQuoted => true
  | _ => false

def ordinal (k : Kind) : Nat := all.idxOf k

theorem ofName?_name (k : Kind) : ofName? k.name = some k := by cases k <;> decide

end Kind

end DocPress
